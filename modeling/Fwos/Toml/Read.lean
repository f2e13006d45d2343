import Fwos.Rust.Text

/-!
# Arrays of tables in TOML

A reader of TOML documents that consist of arrays of tables with bare keys, whose values
are basic strings and booleans. It has no result for a document that is malformed or uses
anything else.

* `readBasic_plain`: a text without quotes, backslashes and control characters between two
  quotes is read as itself.
* `readBasic_eq_self`: no other text is.
-/

namespace Toml

inductive Value where
  | string (text : List Char)
  | boolean (value : Bool)
deriving DecidableEq, Repr

/-- A table of the array of this name. -/
structure Table where
  name : List Char
  entries : List (List Char × Value) := []
deriving DecidableEq, Repr

/-! ## Strings -/

def isControl (c : Char) : Bool := (c.toNat < 0x20 && c != '\t') || c.toNat == 0x7f

/-- A character that stands for itself in a basic string. -/
def isPlain (c : Char) : Bool := !isControl c && c != '"' && c != '\\'

def hexValue (c : Char) : Option Nat :=
  if '0' ≤ c ∧ c ≤ '9' then some (c.toNat - '0'.toNat)
  else if 'a' ≤ c ∧ c ≤ 'f' then some (c.toNat - 'a'.toNat + 10)
  else if 'A' ≤ c ∧ c ≤ 'F' then some (c.toNat - 'A'.toNat + 10)
  else none

/-- A Unicode scalar value of this many hexadecimal digits. -/
def readScalar (digits : Nat) (text : List Char) : Option (Char × List Char) := do
  let values ← (text.take digits).mapM hexValue
  let value := values.foldl (fun value digit => value * 16 + digit) 0
  if (text.take digits).length = digits ∧ value.isValidChar then some (Char.ofNat value, text.drop digits)
  else none

/-- What follows a backslash. -/
def readEscape : List Char → Option (Char × List Char)
  | 'b' :: rest => some ('\x08', rest)
  | 't' :: rest => some ('\t', rest)
  | 'n' :: rest => some ('\n', rest)
  | 'f' :: rest => some ('\x0c', rest)
  | 'r' :: rest => some ('\r', rest)
  | '"' :: rest => some ('"', rest)
  | '\\' :: rest => some ('\\', rest)
  | 'u' :: rest => readScalar 4 rest
  | 'U' :: rest => readScalar 8 rest
  | _ => none

/-- What follows the opening quote, up to the closing one. -/
def readBasicFuel : Nat → List Char → Option (List Char × List Char)
  | 0, _ => none
  | _ + 1, [] => none
  | fuel + 1, c :: rest =>
      if c = '"' then some ([], rest)
      else if c = '\\' then do
        let (escaped, rest) ← readEscape rest
        let (text, rest) ← readBasicFuel fuel rest
        return (escaped :: text, rest)
      else if isControl c then none
      else do
        let (text, rest) ← readBasicFuel fuel rest
        return (c :: text, rest)

def readBasic (text : List Char) : Option (List Char × List Char) :=
  readBasicFuel (text.length + 1) text

/-! ## Lines -/

def skipBlanks (text : List Char) : List Char := text.dropWhile fun c => c == ' ' || c == '\t'

/-- Nothing but a comment follows. -/
def endsLine (text : List Char) : Bool :=
  match skipBlanks text with
  | [] => true
  | '#' :: comment => comment.all (!isControl ·)
  | _ => false

def isKeyChar (c : Char) : Bool := c.isAlphanum || c == '_' || c == '-'

def readKey (text : List Char) : Option (List Char × List Char) :=
  let key := text.takeWhile isKeyChar
  if key.isEmpty then none else some (key, skipBlanks (text.dropWhile isKeyChar))

def readValue : List Char → Option (Value × List Char)
  | '"' :: rest => (readBasic rest).map fun read => (.string read.1, read.2)
  | 't' :: 'r' :: 'u' :: 'e' :: rest => some (.boolean true, rest)
  | 'f' :: 'a' :: 'l' :: 's' :: 'e' :: rest => some (.boolean false, rest)
  | _ => none

inductive Line where
  | blank
  | table (name : List Char)
  | entry (key : List Char) (value : Value)
deriving DecidableEq, Repr

def readLine (text : List Char) : Option Line :=
  if endsLine text then some .blank
  else
    match skipBlanks text with
    | '[' :: '[' :: rest => do
        let (name, rest) ← readKey (skipBlanks rest)
        match rest with
        | ']' :: ']' :: rest => if endsLine rest then some (.table name) else none
        | _ => none
    | text => do
        let (key, rest) ← readKey text
        match rest with
        | '=' :: rest => do
            let (value, rest) ← readValue (skipBlanks rest)
            if endsLine rest then some (.entry key value) else none
        | _ => none

/-- The tables after one more line; a key is given once in a table. -/
def addLine (tables : List Table) (text : List Char) : Option (List Table) := do
  match ← readLine text, tables.getLast? with
  | .blank, _ => some tables
  | .table name, _ => some (tables ++ [{ name := name }])
  | .entry key value, some last =>
      if (last.entries.map (·.1)).contains key then none
      else some (tables.dropLast ++ [{ last with entries := last.entries ++ [(key, value)] }])
  | .entry _ _, none => none

def readTables (text : String) : Option (List Table) :=
  (Rust.splitChars (· == '\n') text.toList).foldlM addLine []

/-! ## What basic strings hold -/

theorem readBasicFuel_plain {text : List Char} (plain : ∀ c ∈ text, isPlain c = true)
    (rest : List Char) {fuel : Nat} (enough : text.length < fuel) :
    readBasicFuel fuel (text ++ '"' :: rest) = some (text, rest) := by
  induction text generalizing fuel with
  | nil =>
      obtain ⟨fuel, rfl⟩ := Nat.exists_eq_succ_of_ne_zero (Nat.ne_of_gt enough)
      rfl
  | cons c text ih =>
      obtain ⟨first, others⟩ := List.forall_mem_cons.mp plain
      obtain ⟨fuel, rfl⟩ := Nat.exists_eq_succ_of_ne_zero (Nat.ne_of_gt (Nat.zero_lt_of_lt enough))
      simp only [isPlain, Bool.and_eq_true, Bool.not_eq_true', bne_iff_ne, ne_eq] at first
      obtain ⟨⟨printed, noQuote⟩, noBackslash⟩ := first
      have rest := @ih others fuel (Nat.lt_of_succ_lt_succ enough)
      rw [List.cons_append, readBasicFuel, if_neg noQuote, if_neg noBackslash, printed, rest]
      rfl

theorem readBasic_plain {text : List Char} (plain : ∀ c ∈ text, isPlain c = true)
    (rest : List Char) : readBasic (text ++ '"' :: rest) = some (text, rest) :=
  readBasicFuel_plain plain rest (by rw [List.length_append, List.length_cons]; omega)

theorem readScalar_takes {digits : Nat} {text rest : List Char} {c : Char}
    (h : readScalar digits text = some (c, rest)) :
    ∃ used, used.length = digits ∧ text = used ++ rest := by
  simp only [readScalar, Option.bind_eq_bind, Option.bind_eq_some_iff,
    Option.ite_none_right_eq_some, Option.some.injEq, Prod.mk.injEq] at h
  obtain ⟨_, -, ⟨whole, -⟩, -, rfl⟩ := h
  exact ⟨text.take digits, whole, (List.take_append_drop digits text).symm⟩

theorem readEscape_takes {text rest : List Char} {c : Char}
    (h : readEscape text = some (c, rest)) : ∃ used, used ≠ [] ∧ text = used ++ rest := by
  have one {x y : Char} {more : List Char} (same : some (y, more) = some (c, rest)) :
      ∃ used, used ≠ [] ∧ x :: more = used ++ rest := by
    cases same
    exact ⟨[x], List.cons_ne_nil _ _, rfl⟩
  have scalar {x : Char} {digits : Nat} {more : List Char}
      (read : readScalar digits more = some (c, rest)) :
      ∃ used, used ≠ [] ∧ x :: more = used ++ rest := by
    obtain ⟨used, -, rfl⟩ := readScalar_takes read
    exact ⟨x :: used, List.cons_ne_nil _ _, rfl⟩
  unfold readEscape at h
  split at h
  · exact one h
  · exact one h
  · exact one h
  · exact one h
  · exact one h
  · exact one h
  · exact one h
  · exact scalar h
  · exact scalar h
  · cases h

/-- A string is no longer than its source, and shorter if it has an escape. -/
theorem readBasicFuel_source {fuel : Nat} {source text rest : List Char}
    (h : readBasicFuel fuel source = some (text, rest)) :
    ∃ raw, source = raw ++ '"' :: rest ∧ text.length ≤ raw.length ∧
      (text.length = raw.length → text = raw ∧ ∀ c ∈ raw, isPlain c = true) := by
  induction fuel generalizing source text with
  | zero => cases h
  | succ fuel ih =>
      cases source with
      | nil => cases h
      | cons c source =>
          rw [readBasicFuel] at h
          by_cases quote : c = '"'
          · rw [if_pos quote] at h
            cases h
            exact ⟨[], by rw [quote]; rfl, Nat.le_refl _, fun _ => ⟨rfl, fun _ mem => nomatch mem⟩⟩
          rw [if_neg quote] at h
          by_cases backslash : c = '\\'
          · rw [if_pos backslash] at h
            simp only [Option.bind_eq_bind, Option.bind_eq_some_iff, Prod.exists] at h
            obtain ⟨escaped, after, escape, more, rest', read, same⟩ := h
            cases same
            obtain ⟨used, nonempty, rfl⟩ := readEscape_takes escape
            obtain ⟨raw, rfl, le, -⟩ := ih read
            have positive := List.length_pos_iff.mpr nonempty
            refine ⟨c :: (used ++ raw), by simp, ?_, fun equal => ?_⟩
            · simp only [List.length_cons, List.length_append]
              omega
            · simp only [List.length_cons, List.length_append] at equal
              omega
          rw [if_neg backslash] at h
          by_cases control : isControl c = true
          · rw [if_pos control] at h
            cases h
          · rw [if_neg control] at h
            simp only [Option.bind_eq_bind, Option.bind_eq_some_iff, Prod.exists] at h
            obtain ⟨more, rest', read, same⟩ := h
            cases same
            obtain ⟨raw, rfl, le, equal⟩ := ih read
            refine ⟨c :: raw, rfl, Nat.succ_le_succ le, fun equal' => ?_⟩
            obtain ⟨rfl, plain⟩ := equal (Nat.succ.inj equal')
            refine ⟨rfl, List.forall_mem_cons.mpr ⟨?_, plain⟩⟩
            simp [isPlain, control, quote, backslash]

/-- A text between quotes is read as itself only if it is plain. -/
theorem readBasic_eq_self {text rest : List Char}
    (h : readBasic (text ++ ['"']) = some (text, rest)) : ∀ c ∈ text, isPlain c = true := by
  obtain ⟨raw, source, le, equal⟩ := readBasicFuel_source h
  have length := congrArg List.length source
  simp only [List.length_append, List.length_cons, List.length_nil] at length
  obtain ⟨rfl, plain⟩ := equal (by omega)
  exact plain

end Toml
