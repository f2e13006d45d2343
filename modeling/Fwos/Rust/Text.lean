import Mathlib

/-!
# Rust's text operations

The operations of Rust's `str` and the integer parsers the sources call, on
Lean strings. A Rust `&str` and a Lean `String` are both sequences of Unicode
scalar values, so each operation is written on the characters.
-/

namespace Rust

/-! ## Splitting -/

/-- `str::split_once` on the characters: what stands before and after the first `sep`. -/
def splitOnceChars (sep : Char) : List Char → Option (List Char × List Char)
  | [] => none
  | c :: rest =>
      if c = sep then some ([], rest)
      else (splitOnceChars sep rest).map fun parts => (c :: parts.1, parts.2)

def splitOnce (text : String) (sep : Char) : Option (String × String) :=
  (splitOnceChars sep text.toList).map fun parts =>
    (String.ofList parts.1, String.ofList parts.2)

/-- `str::rsplit_once`: what stands before and after the last `sep`. -/
def rsplitOnce (text : String) (sep : Char) : Option (String × String) :=
  (splitOnceChars sep text.toList.reverse).map fun parts =>
    (String.ofList parts.2.reverse, String.ofList parts.1.reverse)

/-- `str::split` on the characters; an empty text is one empty part. -/
def splitChars (sep : Char → Bool) : List Char → List (List Char)
  | [] => [[]]
  | c :: rest =>
      if sep c then [] :: splitChars sep rest
      else
        match splitChars sep rest with
        | [] => [[c]]
        | part :: parts => (c :: part) :: parts

def splitBy (text : String) (sep : Char → Bool) : List String :=
  (splitChars sep text.toList).map String.ofList

def split (text : String) (sep : Char) : List String := splitBy text (· == sep)

/-- `char::is_whitespace`, the Unicode property `White_Space`. -/
def isWhitespace (c : Char) : Bool :=
  (0x9 ≤ c.toNat && c.toNat ≤ 0xd) || c.toNat == 0x20 || c.toNat == 0x85 || c.toNat == 0xa0 ||
    c.toNat == 0x1680 || (0x2000 ≤ c.toNat && c.toNat ≤ 0x200a) || c.toNat == 0x2028 ||
    c.toNat == 0x2029 || c.toNat == 0x202f || c.toNat == 0x205f || c.toNat == 0x3000

/-- `str::trim` on the characters. -/
def trimChars (text : List Char) : List Char :=
  ((text.dropWhile isWhitespace).reverse.dropWhile isWhitespace).reverse

def trim (text : String) : String := String.ofList (trimChars text.toList)

/-- `str::split_whitespace`: the non-empty parts between white space. -/
def splitWhitespace (text : String) : List String :=
  ((splitChars isWhitespace text.toList).filter fun part => !part.isEmpty).map String.ofList

/-- `str::trim_matches` for one character. -/
def trimMatches (text : String) (c : Char) : String :=
  String.ofList ((text.toList.dropWhile (· == c)).reverse.dropWhile (· == c)).reverse

def startsWith (text lead : String) : Bool := lead.toList.isPrefixOf text.toList

def toAsciiLowercase (text : String) : String := String.ofList (text.toList.map Char.toLower)

def containsChar (text : String) (c : Char) : Bool := text.toList.contains c

/-! ## Numbers -/

/-- The value of a run of decimal digits. -/
def decimal (digits : List Char) : Nat :=
  digits.foldl (fun value c => value * 10 + (c.toNat - '0'.toNat)) 0

/-- An unsigned number may begin with a plus sign. -/
def withoutPlus : List Char → List Char
  | '+' :: rest => rest
  | text => text

/-- `from_str` of an unsigned integer type with the given maximum: an optional
plus sign, at least one digit, and no overflow. -/
def parseUnsigned (max : Nat) (text : String) : Option Nat :=
  let digits := withoutPlus text.toList
  if digits.isEmpty || !digits.all Char.isDigit || decimal digits > max then none
  else some (decimal digits)

def parseU8 (text : String) : Option Nat := parseUnsigned 255 text

/-! ## Lemmas -/

@[simp]
theorem splitOnceChars_of_not_mem {sep : Char} {text : List Char} (h : sep ∉ text) :
    splitOnceChars sep text = none := by
  induction text with
  | nil => rfl
  | cons c rest ih =>
    simp only [List.mem_cons, not_or] at h
    simp [splitOnceChars, Ne.symm h.1, ih h.2]

/-- The first separator is the one that follows a text without separators. -/
theorem splitOnceChars_append {sep : Char} {front : List Char} (h : sep ∉ front)
    (rest : List Char) : splitOnceChars sep (front ++ sep :: rest) = some (front, rest) := by
  induction front with
  | nil => simp [splitOnceChars]
  | cons c front ih =>
    simp only [List.mem_cons, not_or] at h
    simp [splitOnceChars, Ne.symm h.1, ih h.2]

theorem splitOnceChars_eq_some {sep : Char} {text front rest : List Char} :
    splitOnceChars sep text = some (front, rest) ↔
      text = front ++ sep :: rest ∧ sep ∉ front := by
  constructor
  · intro h
    induction text generalizing front with
    | nil => simp [splitOnceChars] at h
    | cons c text ih =>
      simp only [splitOnceChars] at h
      split at h
      · next hc =>
        simp only [Option.some.injEq, Prod.mk.injEq] at h
        obtain ⟨rfl, rfl⟩ := h
        simp [hc]
      · next hc =>
        simp only [Option.map_eq_some_iff, Prod.mk.injEq] at h
        obtain ⟨⟨f, r⟩, hs, rfl, rfl⟩ := h
        obtain ⟨rfl, hf⟩ := ih hs
        exact ⟨rfl, by simp [Ne.symm hc, hf]⟩
  · rintro ⟨rfl, h⟩
    exact splitOnceChars_append h rest

theorem splitOnce_eq_some {text front rest : String} {sep : Char} :
    splitOnce text sep = some (front, rest) ↔
      text.toList = front.toList ++ sep :: rest.toList ∧ sep ∉ front.toList := by
  simp only [splitOnce, Option.map_eq_some_iff, Prod.mk.injEq]
  constructor
  · rintro ⟨⟨f, r⟩, hs, rfl, rfl⟩
    simpa using splitOnceChars_eq_some.mp hs
  · intro h
    exact ⟨_, splitOnceChars_eq_some.mpr h, by simp, by simp⟩

theorem splitChars_of_not_mem {sep : Char → Bool} {text : List Char}
    (h : ∀ c ∈ text, sep c = false) : splitChars sep text = [text] := by
  induction text with
  | nil => rfl
  | cons c rest ih =>
    simp only [List.mem_cons, forall_eq_or_imp] at h
    simp [splitChars, h.1, ih h.2]

/-- A part without separators, a separator and the rest. -/
theorem splitChars_append {sep : Char → Bool} {front : List Char} {c : Char}
    (h : ∀ x ∈ front, sep x = false) (hc : sep c = true) (rest : List Char) :
    splitChars sep (front ++ c :: rest) = front :: splitChars sep rest := by
  induction front with
  | nil => simp [splitChars, hc]
  | cons x front ih =>
    simp only [List.mem_cons, forall_eq_or_imp] at h
    simp [splitChars, h.1, ih h.2]

theorem withoutPlus_of_digits {text : List Char} (h : ∀ c ∈ text, c.isDigit = true) :
    withoutPlus text = text := by
  unfold withoutPlus
  split
  next rest => exact absurd (h '+' (by simp)) (by decide)
  · rfl

theorem mem_withoutPlus {text : List Char} {c : Char} (h : c ∈ text) (hc : c ≠ '+') :
    c ∈ withoutPlus text := by
  unfold withoutPlus
  split
  · simpa [hc] using h
  · exact h

theorem parseUnsigned_eq_some {max value : Nat} {text : String} :
    parseUnsigned max text = some value ↔
      withoutPlus text.toList ≠ [] ∧ (∀ c ∈ withoutPlus text.toList, c.isDigit = true) ∧
        decimal (withoutPlus text.toList) = value ∧ value ≤ max := by
  simp only [parseUnsigned, Option.ite_none_left_eq_some, Bool.or_eq_true, List.isEmpty_iff,
    Bool.not_eq_true', decide_eq_true_eq, not_or, Bool.not_eq_false, List.all_eq_true,
    Option.some.injEq]
  constructor
  · rintro ⟨⟨⟨h1, h2⟩, h3⟩, hv⟩
    exact ⟨h1, h2, hv, by omega⟩
  · rintro ⟨h1, h2, hv, h3⟩
    exact ⟨⟨⟨h1, h2⟩, by omega⟩, hv⟩

theorem parseUnsigned_of_digits {max value : Nat} {text : String} (hne : text.toList ≠ [])
    (hd : ∀ c ∈ text.toList, c.isDigit = true) (hv : decimal text.toList = value)
    (hle : value ≤ max) : parseUnsigned max text = some value := by
  rw [parseUnsigned_eq_some, withoutPlus_of_digits hd]
  exact ⟨hne, hd, hv, hle⟩

/-- A parsed number has no character but digits, after an optional plus. -/
theorem not_mem_of_parseUnsigned {max value : Nat} {text : String}
    (h : parseUnsigned max text = some value) {c : Char} (hd : c.isDigit = false) (hp : c ≠ '+') :
    c ∉ text.toList := fun hm => by
  have := (parseUnsigned_eq_some.mp h).2.1 c (mem_withoutPlus hm hp)
  simp [hd] at this

theorem startsWith_iff {text lead : String} :
    startsWith text lead = true ↔ ∃ rest, text.toList = lead.toList ++ rest := by
  simp only [startsWith, List.isPrefixOf_iff_prefix]
  exact ⟨fun ⟨rest, h⟩ => ⟨rest, h.symm⟩, fun ⟨rest, h⟩ => ⟨rest, h.symm⟩⟩

theorem splitChars_ne_nil {sep : Char → Bool} {text : List Char} : splitChars sep text ≠ [] := by
  cases text with
  | nil => simp [splitChars]
  | cons c rest =>
    unfold splitChars
    split
    · simp
    · split <;> simp

theorem split_of_not_mem {text : String} {sep : Char} (h : sep ∉ text.toList) :
    split text sep = [text] := by
  have hne : ∀ c ∈ text.toList, (c == sep) = false := fun c hc => by
    rw [beq_eq_false_iff_ne]
    rintro rfl
    exact h hc
  simp [split, splitBy, splitChars_of_not_mem hne]

/-- The first part of a split and the split of the rest. -/
theorem split_of_splitOnce {text front rest : String} {sep : Char}
    (h : splitOnce text sep = some (front, rest)) : split text sep = front :: split rest sep := by
  obtain ⟨ht, hf⟩ := splitOnce_eq_some.mp h
  have hne : ∀ c ∈ front.toList, (c == sep) = false := fun c hc => by
    rw [beq_eq_false_iff_ne]
    rintro rfl
    exact hf hc
  simp [split, splitBy, ht, splitChars_append hne (beq_self_eq_true sep)]

theorem splitOnce_eq_none {text : String} {sep : Char} :
    splitOnce text sep = none ↔ sep ∉ text.toList := by
  constructor
  · intro h hm
    obtain ⟨front, rest, ht, hf⟩ := List.eq_append_cons_of_mem hm
    rw [splitOnce, ht, splitOnceChars_append hf] at h
    cases h
  · intro h
    rw [splitOnce, splitOnceChars_of_not_mem h, Option.map_none]

/-- Trimming takes white space away at both ends. -/
theorem trimChars_eq (text : List Char) :
    ∃ lead trail, text = lead ++ (trimChars text ++ trail) ∧
      (∀ c ∈ lead, isWhitespace c = true) ∧ (∀ c ∈ trail, isWhitespace c = true) := by
  refine ⟨text.takeWhile isWhitespace,
    ((text.dropWhile isWhitespace).reverse.takeWhile isWhitespace).reverse, ?_, ?_, ?_⟩
  · have h := congrArg List.reverse (List.takeWhile_append_dropWhile (p := isWhitespace)
      (l := (text.dropWhile isWhitespace).reverse))
    rw [List.reverse_append, List.reverse_reverse] at h
    rw [trimChars, h, List.takeWhile_append_dropWhile]
  · exact fun c hc => List.all_eq_true.mp List.all_takeWhile c hc
  · intro c hc
    rw [List.mem_reverse] at hc
    exact List.all_eq_true.mp List.all_takeWhile c hc

theorem trimChars_append_whitespace {text : List Char} {c : Char} (hc : isWhitespace c = true) :
    trimChars (text ++ [c]) = trimChars text := by
  have hdrop : [c].dropWhile isWhitespace = [] := by simp [hc]
  rw [trimChars, trimChars, List.dropWhile_append, hdrop]
  split
  next h => rw [List.isEmpty_iff.mp h]
  · rw [List.reverse_append, List.reverse_singleton, List.singleton_append,
      List.dropWhile_cons_of_pos hc]

theorem not_isAlphanum_of_isWhitespace {c : Char} (h : isWhitespace c = true) :
    c.isAlphanum = false := by
  have hr : c.isAlphanum = true → (65 ≤ c.toNat ∧ c.toNat ≤ 90) ∨ (97 ≤ c.toNat ∧ c.toNat ≤ 122) ∨
      (48 ≤ c.toNat ∧ c.toNat ≤ 57) := by
    simp only [Char.isAlphanum, Char.isAlpha, Char.isUpper, Char.isLower, Char.isDigit,
      Bool.or_eq_true, Bool.and_eq_true, decide_eq_true_eq, or_assoc]
    exact id
  simp only [isWhitespace, Bool.or_eq_true, Bool.and_eq_true, beq_iff_eq, decide_eq_true_eq] at h
  by_contra hc
  have := hr (by simpa using hc)
  omega

theorem not_isDigit_of_isWhitespace {c : Char} (h : isWhitespace c = true) : c.isDigit = false := by
  have alphanum := not_isAlphanum_of_isWhitespace h
  rw [Char.isAlphanum, Bool.or_eq_false_iff] at alphanum
  exact alphanum.2

theorem trimChars_trimChars (text : List Char) : trimChars (trimChars text) = trimChars text := by
  cases trimmed : trimChars text with
  | nil => rfl
  | cons c rest =>
      -- It begins where the text without the leading white space does.
      have dark : isWhitespace c = false := by
        have first := List.head?_dropWhile_not isWhitespace text
        obtain ⟨trail, whole⟩ := List.dropWhile_suffix (p := isWhitespace)
          (l := (text.dropWhile isWhitespace).reverse)
        have whole := congrArg List.reverse whole
        rw [List.reverse_append, List.reverse_reverse] at whole
        rw [trimChars] at trimmed
        rw [← whole, trimmed] at first
        simpa using first
      have start : (c :: rest).dropWhile isWhitespace = c :: rest :=
        List.dropWhile_cons_of_neg (by simp [dark])
      rw [trimChars, start]
      rw [trimChars] at trimmed
      rw [← trimmed, List.reverse_reverse, List.dropWhile_idempotent]

theorem trim_trim (text : String) : trim (trim text) = trim text := by
  rw [trim, trim, String.toList_ofList, trimChars_trimChars]

/-- A text without white space stays as it is. -/
theorem trim_eq_self {text : String} (h : ∀ c ∈ text.toList, isWhitespace c = false) :
    trim text = text := by
  have kept : ∀ chars : List Char, (∀ c ∈ chars, isWhitespace c = false) →
      chars.dropWhile isWhitespace = chars := by
    intro chars dark
    cases chars with
    | nil => rfl
    | cons c rest => exact List.dropWhile_cons_of_neg (by simp [dark c List.mem_cons_self])
  have back : ∀ c ∈ text.toList.reverse, isWhitespace c = false := fun c mem =>
    h c (List.mem_reverse.mp mem)
  rw [trim, trimChars, kept _ h, kept _ back, List.reverse_reverse, String.ofList_toList]

end Rust
