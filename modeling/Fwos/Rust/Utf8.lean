import Mathlib.Data.Nat.Notation

/-!
# UTF-8

`String::from_utf8_lossy` and `str::from_utf8`: a scalar value is read from its
lead byte and the continuation bytes that the lead byte allows. Where they are not
there, the bytes read so far are one ill-formed part.
-/

namespace Rust

/-- What a lead byte announces: the length of the sequence, the bits of the lead
byte, and the range of the second byte. -/
structure Utf8Lead where
  length : Nat
  bits : Nat
  first : Nat
  last : Nat

def utf8Lead (byte : UInt8) : Option Utf8Lead :=
  let b := byte.toNat
  if b < 0x80 then some ⟨1, b, 0, 0⟩
  else if 0xc2 ≤ b ∧ b ≤ 0xdf then some ⟨2, b - 0xc0, 0x80, 0xbf⟩
  else if b = 0xe0 then some ⟨3, 0, 0xa0, 0xbf⟩
  else if b = 0xed then some ⟨3, 0xd, 0x80, 0x9f⟩
  else if 0xe1 ≤ b ∧ b ≤ 0xef then some ⟨3, b - 0xe0, 0x80, 0xbf⟩
  else if b = 0xf0 then some ⟨4, 0, 0x90, 0xbf⟩
  else if 0xf1 ≤ b ∧ b ≤ 0xf3 then some ⟨4, b - 0xf0, 0x80, 0xbf⟩
  else if b = 0xf4 then some ⟨4, 4, 0x80, 0x8f⟩
  else none

/-- The continuation bytes at the head, at most so many. -/
def utf8Continuation : Nat → Nat → Nat → List UInt8 → List UInt8
  | 0, _, _, _ => []
  | _ + 1, _, _, [] => []
  | count + 1, first, last, byte :: rest =>
      if first ≤ byte.toNat ∧ byte.toNat ≤ last then
        byte :: utf8Continuation count 0x80 0xbf rest
      else []

/-- The character at the head of these bytes, none if they are ill-formed, and the
number of bytes after the lead byte that belong to it. -/
def utf8Step (byte : UInt8) (rest : List UInt8) : Option Char × Nat :=
  match utf8Lead byte with
  | none => (none, 0)
  | some lead =>
      let more := utf8Continuation (lead.length - 1) lead.first lead.last rest
      if more.length = lead.length - 1 then
        (some (Char.ofNat (more.foldl (fun value b => value * 64 + b.toNat % 64) lead.bits)),
          more.length)
      else (none, more.length)

/-- The characters of the bytes, an ill-formed part as none. -/
def utf8Chars : List UInt8 → List (Option Char)
  | [] => []
  | byte :: rest =>
      (utf8Step byte rest).1 :: utf8Chars (rest.drop (utf8Step byte rest).2)
termination_by bytes => bytes.length
decreasing_by
  rw [List.length_drop, List.length_cons]
  omega

def fromUtf8Lossy (bytes : List UInt8) : String :=
  String.ofList ((utf8Chars bytes).map (·.getD '\uFFFD'))

def fromUtf8 (bytes : List UInt8) : Option String :=
  ((utf8Chars bytes).mapM id).map String.ofList

end Rust
