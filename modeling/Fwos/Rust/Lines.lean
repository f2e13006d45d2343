import Fwos.Rust.Text

/-!
# Lines and words

Rust's `str::lines`, and the words of the lines that a program prints.

* `lines_append`: a printed line is the first one that is read.
* `splitWhitespace_pair`: two printed words are read as such.
-/

namespace Rust

/-- A line without the carriage return that ends it. -/
def withoutCr (line : List Char) : List Char :=
  if line.getLast? = some '\r' then line.dropLast else line

/-- `str::lines` on the characters. What follows the last newline is a line of its own if
it is not empty, and keeps its carriage return. -/
def linesChars (text : List Char) : List (List Char) :=
  let parts := splitChars (· == '\n') text
  parts.dropLast.map withoutCr ++ parts.getLast?.toList.filter (!·.isEmpty)

def lines (text : String) : List String := (linesChars text.toList).map String.ofList

theorem linesChars_append {line : List Char} (one : '\n' ∉ line) (rest : List Char) :
    linesChars (line ++ '\n' :: rest) = withoutCr line :: linesChars rest := by
  have apart : ∀ c ∈ line, (c == '\n') = false := fun c mem =>
    beq_false_of_ne fun same => one (same ▸ mem)
  have parts := splitChars_append apart (beq_self_eq_true '\n') rest
  obtain ⟨part, more, split⟩ := List.exists_cons_of_ne_nil
    (@splitChars_ne_nil (· == '\n') rest)
  rw [linesChars, linesChars, parts, split]
  rfl

/-- A printed line, without a carriage return at its end. -/
theorem lines_append {line : String} (one : '\n' ∉ line.toList) (plain : '\r' ∉ line.toList)
    (rest : String) : lines (line ++ "\n" ++ rest) = line :: lines rest := by
  have kept : withoutCr line.toList = line.toList :=
    if_neg fun last => plain (List.mem_of_getLast? last)
  have text : (line ++ "\n" ++ rest).toList = line.toList ++ '\n' :: rest.toList := by simp
  rw [lines, text, linesChars_append one, kept, List.map_cons, String.ofList_toList]
  rfl

theorem lines_empty : lines "" = [] := by decide

theorem splitWhitespace_pair {first second : List Char} (nonempty : first ≠ [])
    (nonempty' : second ≠ []) (dark : ∀ c ∈ first, isWhitespace c = false)
    (dark' : ∀ c ∈ second, isWhitespace c = false) :
    splitWhitespace (String.ofList (first ++ ' ' :: second)) =
      [String.ofList first, String.ofList second] := by
  rw [splitWhitespace, String.toList_ofList, splitChars_append dark (by decide),
    splitChars_of_not_mem dark']
  have keeps : [first, second].filter (!·.isEmpty) = [first, second] := by
    simp [nonempty, nonempty']
  rw [keeps]
  rfl

/-- Words have no white space. -/
theorem splitWhitespace_words {text word : String} (mem : word ∈ splitWhitespace text) :
    word.toList ≠ [] ∧ ∀ c ∈ word.toList, isWhitespace c = false := by
  have parts : ∀ chars : List Char, ∀ part ∈ splitChars isWhitespace chars,
      ∀ c ∈ part, isWhitespace c = false := by
    intro chars
    induction chars with
    | nil =>
        intro part mem c hc
        rw [List.mem_singleton.mp mem] at hc
        cases hc
    | cons x chars ih =>
        intro part mem
        unfold splitChars at mem
        split at mem
        · rcases List.mem_cons.mp mem with rfl | mem
          · exact fun c hc => absurd hc List.not_mem_nil
          · exact ih part mem
        next dark =>
          split at mem
          · rw [List.mem_singleton.mp mem]
            exact List.forall_mem_singleton.mpr (Bool.eq_false_iff.mpr dark)
          next first rest split =>
            rcases List.mem_cons.mp mem with rfl | mem
            · refine List.forall_mem_cons.mpr ⟨Bool.eq_false_iff.mpr dark, ih first ?_⟩
              rw [split]
              exact List.mem_cons_self
            · refine ih part ?_
              rw [split]
              exact List.mem_cons_of_mem _ mem
  obtain ⟨part, kept, rfl⟩ := List.mem_map.mp mem
  obtain ⟨found, nonempty⟩ := List.mem_filter.mp kept
  rw [String.toList_ofList]
  refine ⟨?_, parts text.toList part found⟩
  simpa using nonempty

end Rust
