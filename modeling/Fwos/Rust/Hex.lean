import Mathlib.Data.List.Basic
import Mathlib.Data.Nat.Notation
import Mathlib.Logic.Function.Basic

/-!
# Hexadecimal text

Bytes printed with `{byte:02x}`, one after the other: the sources make tokens and
components of paths this way. Different bytes give different texts, of lowercase
hexadecimal digits only.
-/

namespace Rust

def hexByte (byte : UInt8) : List Char :=
  [Nat.digitChar (byte.toNat / 16), Nat.digitChar (byte.toNat % 16)]

def hexText (bytes : List UInt8) : String := String.ofList (bytes.flatMap hexByte)

def isHexDigit (c : Char) : Bool := ('0' ≤ c && c ≤ '9') || ('a' ≤ c && c ≤ 'f')

theorem digitChar_isHexDigit : ∀ n < 16, isHexDigit (Nat.digitChar n) = true := by decide

theorem digitChar_inj : ∀ n < 16, ∀ m < 16, Nat.digitChar n = Nat.digitChar m → n = m := by decide

theorem hexByte_inj {a b : UInt8} (h : hexByte a = hexByte b) : a = b := by
  have ha := a.toNat_lt
  have hb := b.toNat_lt
  injection h with high low
  injection low with low
  have high := digitChar_inj _ (by omega) _ (by omega) high
  have low := digitChar_inj _ (by omega) _ (by omega) low
  exact UInt8.toNat_inj.mp (by omega)

theorem flatMap_hexByte_inj : ∀ {a b : List UInt8}, a.flatMap hexByte = b.flatMap hexByte → a = b
  | [], [], _ => rfl
  | [], b :: bs, h => by simp [hexByte] at h
  | a :: as, [], h => by simp [hexByte] at h
  | a :: as, b :: bs, h => by
    obtain ⟨first, rest⟩ := @List.append_inj _ (hexByte a) (hexByte b) _ _ h rfl
    rw [hexByte_inj first, flatMap_hexByte_inj rest]

theorem hexText_injective : Function.Injective hexText := by
  intro a b h
  exact flatMap_hexByte_inj (String.ofList_injective h)

theorem hexText_digits {bytes : List UInt8} {c : Char} (h : c ∈ (hexText bytes).toList) :
    isHexDigit c = true := by
  rw [hexText, String.toList_ofList] at h
  obtain ⟨byte, _, digit⟩ := List.mem_flatMap.mp h
  have bound := byte.toNat_lt
  rcases List.mem_pair.mp digit with rfl | rfl
  · exact digitChar_isHexDigit _ (by omega)
  · exact digitChar_isHexDigit _ (by omega)

example : hexText [0x0f, 0xa0] = "0fa0" := by decide

/-! ## The bytes of a text -/

theorem toList_loop (bytes : ByteArray) (i : Nat) (read : List UInt8) :
    ByteArray.toList.loop bytes i read = read.reverse ++ bytes.data.toList.drop i := by
  fun_induction ByteArray.toList.loop bytes i read with
  | case1 i read inside ih =>
    have bound : i < bytes.data.toList.length := inside
    have here : bytes.get! i = bytes.data.toList[i] := getElem!_pos bytes.data i inside
    rw [ih, List.reverse_cons, List.append_assoc, here, List.drop_eq_getElem_cons bound]
    rfl
  | case2 i read past =>
    have none : bytes.data.toList.drop i = [] := List.drop_eq_nil_of_le (Nat.not_lt.mp past)
    rw [none, List.append_nil]

theorem byteList_injective : Function.Injective ByteArray.toList := by
  intro a b h
  unfold ByteArray.toList at h
  rw [toList_loop, toList_loop] at h
  exact ByteArray.ext (Array.toList_inj.mp h)

end Rust
