import Fwos.Rust.Utf8

/-!
# Lines of the console

The console reads its terminal in pieces and hands out lines from what has
accumulated. A line ends with LF, CR or CR LF.

* `handedOut`: the lines that successive calls of `read_line_poll` hand out.
* `cutLines`: the lines of a byte sequence, however it arrives.
* `console_lines_iff`: when the two agree.
-/

namespace Fwos.Console

open Rust

abbrev Bytes := List UInt8

def lf : UInt8 := 10

def cr : UInt8 := 13

inductive Input where
  | line (text : String)
  | eof
  | timeout

/-- What `poll`, and `read` where there is something to read, find on the terminal. -/
inductive Poll where
  | failed (error : String)
  | timeout
  | hangup
  | readFailed (error : String)
  | read (bytes : Bytes)

def endsLine (byte : UInt8) : Bool := byte == lf || byte == cr

def takeLine (acc : Bytes) : Option (String × Bytes) := do
  let pos ← acc.findIdx? endsLine
  let skip := if acc[pos]? == some cr && acc[pos + 1]? == some lf then pos + 2 else pos + 1
  return (fromUtf8Lossy (acc.take pos), acc.drop skip)

/-- One call, with what will come from the terminal; none while it waits. -/
def readLinePoll (acc : Bytes) (terminal : List Poll) :
    Option (Except String Input × Bytes × List Poll) :=
  match takeLine acc with
  | some (line, rest) => some (.ok (.line line), rest, terminal)
  | none =>
      match terminal with
      | [] => none
      | .failed error :: later => some (.error s!"poll console: {error}", acc, later)
      | .timeout :: later => some (.ok .timeout, acc, later)
      | .hangup :: later => some (.ok .eof, acc, later)
      | .readFailed error :: later => some (.error s!"read console: {error}", acc, later)
      | .read [] :: later => some (.ok .eof, acc, later)
      | .read bytes :: later =>
          match takeLine (acc ++ bytes) with
          | some (line, rest) => some (.ok (.line line), rest, later)
          | none => some (.ok .timeout, acc ++ bytes, later)

theorem takeLine_length {acc rest : Bytes} {line : String} (h : takeLine acc = some (line, rest)) :
    rest.length < acc.length := by
  simp only [takeLine, Option.bind_eq_bind, Option.bind_eq_some_iff, Option.pure_def,
    Option.some.injEq, Prod.mk.injEq] at h
  obtain ⟨pos, hpos, -, rfl⟩ := h
  obtain ⟨hlt, -⟩ := List.findIdx?_eq_some_iff_getElem.mp hpos
  rw [List.length_drop]
  split <;> omega

theorem readLinePoll_decreases {acc acc' : Bytes} {terminal terminal' : List Poll}
    {result : Except String Input} (h : readLinePoll acc terminal = some (result, acc', terminal')) :
    terminal'.length < terminal.length ∨ (terminal' = terminal ∧ acc'.length < acc.length) := by
  unfold readLinePoll at h
  split at h
  next line rest ht =>
    cases h
    exact .inr ⟨rfl, takeLine_length ht⟩
  next =>
    left
    repeat' split at h
    all_goals
      cases h
      try simp

/-- The lines that successive calls hand out, until one waits or ends the console. -/
def handedOut (acc : Bytes) (terminal : List Poll) : List String :=
  match _ : readLinePoll acc terminal with
  | some (.ok (.line line), acc', terminal') => line :: handedOut acc' terminal'
  | some (.ok .timeout, acc', terminal') => handedOut acc' terminal'
  | _ => []
termination_by (terminal.length, acc.length)
decreasing_by
  all_goals
    rename_i h
    rcases readLinePoll_decreases h with hlt | ⟨rfl, hlt⟩
    · exact Prod.Lex.left _ _ hlt
    · exact Prod.Lex.right _ hlt

/-! ## The lines of a byte sequence -/

/-- The lines that end in these bytes, after the beginning of one. -/
def cutLines (begun : Bytes) : Bytes → List Bytes
  | [] => []
  | [byte] => if endsLine byte then [begun] else []
  | byte :: next :: more =>
      if byte = cr ∧ next = lf then begun :: cutLines [] more
      else if endsLine byte then begun :: cutLines [] (next :: more)
      else cutLines (begun ++ [byte]) (next :: more)

/-- The bytes of the line that has not ended. -/
def openLine (begun : Bytes) : Bytes → Bytes
  | [] => begun
  | byte :: rest => if endsLine byte then openLine [] rest else openLine (begun ++ [byte]) rest

/-- What was read, in order. -/
def reads : List Poll → List Bytes
  | [] => []
  | .read bytes :: later => bytes :: reads later
  | _ :: later => reads later

/-- A CR ends the first part and an LF begins the second. -/
def CutTerminator (first next : Bytes) : Prop :=
  first.getLast? = some cr ∧ next.head? = some lf

instance (first next : Bytes) : Decidable (CutTerminator first next) :=
  inferInstanceAs (Decidable (_ ∧ _))

/-- How often a CR ends one read and an LF begins the next. -/
def cutTerminators : List Bytes → Nat
  | first :: next :: later =>
      (if CutTerminator first next then 1 else 0) + cutTerminators (next :: later)
  | _ => 0

/-- Bytes keep arriving, with pauses between them. -/
def Arrives (terminal : List Poll) : Prop :=
  ∀ poll ∈ terminal, poll = .timeout ∨ ∃ bytes, poll = .read bytes ∧ bytes ≠ []

/-! ## Taking a line -/

/-- What follows a line's terminator. -/
def afterTerminator (byte : UInt8) (back : Bytes) : Bytes :=
  if byte = cr ∧ back.head? = some lf then back.tail else back

theorem takeLine_none {acc : Bytes} (pending : ∀ byte ∈ acc, endsLine byte = false) :
    takeLine acc = none := by
  have absent : acc.findIdx? endsLine = none := by
    simpa [List.findIdx?_eq_none_iff] using pending
  simp [takeLine, absent]

theorem takeLine_line {front back : Bytes} {byte : UInt8}
    (pending : ∀ b ∈ front, endsLine b = false) (ends : endsLine byte = true) :
    takeLine (front ++ byte :: back) =
      some (fromUtf8Lossy front, afterTerminator byte back) := by
  have found : (front ++ byte :: back).findIdx? endsLine = some front.length := by
    rw [List.findIdx?_append, List.findIdx?_eq_none_iff.mpr pending]
    simp [List.findIdx?_cons, ends]
  have after : (front ++ byte :: back)[front.length + 1]? = back.head? := by
    rw [List.getElem?_append_right (by omega)]
    simp [List.head?_eq_getElem?]
  simp only [takeLine, found, Option.bind_eq_bind, Option.bind_some, Option.pure_def, after]
  rw [List.take_left, afterTerminator]
  by_cases two : byte = cr ∧ back.head? = some lf
  · simp [two.1, two.2, List.drop_append, ← List.drop_one]
  · have one : ¬ ((front ++ byte :: back)[front.length]? == some cr &&
        back.head? == some lf) = true := by
      simpa using two
    rw [if_neg one, if_neg two]
    simp [List.drop_append]

/-- Bytes either hold no terminator or begin with a line. -/
theorem split_line (acc : Bytes) :
    (∀ byte ∈ acc, endsLine byte = false) ∨
      ∃ front byte back, acc = front ++ byte :: back ∧
        (∀ b ∈ front, endsLine b = false) ∧ endsLine byte = true := by
  induction acc with
  | nil => simp
  | cons byte rest ih =>
      cases ends : endsLine byte with
      | true => exact .inr ⟨[], byte, rest, rfl, by simp, ends⟩
      | false =>
          rcases ih with pending | ⟨front, found, back, rfl, pending, foundEnds⟩
          · exact .inl (by simpa [ends] using pending)
          · exact .inr ⟨byte :: front, found, back, rfl, by simpa [ends] using pending, foundEnds⟩

theorem cutLines_pending (begun : Bytes) {front : Bytes}
    (pending : ∀ b ∈ front, endsLine b = false) (rest : Bytes) :
    cutLines begun (front ++ rest) = cutLines (begun ++ front) rest := by
  induction front generalizing begun with
  | nil => simp
  | cons byte front ih =>
      have goesOn : endsLine byte = false := pending byte (by simp)
      have notCr : byte ≠ cr := by
        intro same
        simp [same, endsLine] at goesOn
      rw [List.append_cons begun byte front, ← ih (begun ++ [byte])
        fun b mem => pending b (List.mem_cons_of_mem _ mem)]
      cases h : front ++ rest with
      | nil => simp [cutLines, h, goesOn]
      | cons next more => simp [cutLines, h, goesOn, notCr]

theorem cutLines_terminator (begun back : Bytes) {byte : UInt8} (ends : endsLine byte = true) :
    cutLines begun (byte :: back) = begun :: cutLines [] (afterTerminator byte back) := by
  cases back with
  | nil => simp [cutLines, ends, afterTerminator]
  | cons next more =>
      by_cases two : byte = cr ∧ next = lf
      · simp [cutLines, afterTerminator, two.1, two.2]
      · simp [cutLines, afterTerminator, two, ends]

theorem openLine_pending (begun : Bytes) {front : Bytes}
    (pending : ∀ b ∈ front, endsLine b = false) (rest : Bytes) :
    openLine begun (front ++ rest) = openLine (begun ++ front) rest := by
  induction front generalizing begun with
  | nil => simp
  | cons byte front ih =>
      have goesOn : endsLine byte = false := pending byte (by simp)
      rw [List.append_cons begun byte front, ← ih (begun ++ [byte])
        fun b mem => pending b (List.mem_cons_of_mem _ mem)]
      simp [openLine, goesOn]

theorem openLine_terminator (begun back : Bytes) {byte : UInt8} (ends : endsLine byte = true) :
    openLine begun (byte :: back) = openLine [] (afterTerminator byte back) := by
  rw [openLine, if_pos ends, afterTerminator]
  split
  next two =>
    cases back with
    | nil => rfl
    | cons next more =>
        have isLf : next = lf := by simpa using two.2
        simp [isLf, openLine, endsLine]
  next => rfl

theorem openLine_is_pending (begun bytes : Bytes) (pending : ∀ b ∈ begun, endsLine b = false) :
    ∀ b ∈ openLine begun bytes, endsLine b = false := by
  induction bytes generalizing begun with
  | nil => exact pending
  | cons byte rest ih =>
      rw [openLine]
      split
      next => exact ih [] (by simp)
      next goesOn =>
        refine ih (begun ++ [byte]) fun b mem => ?_
        rcases List.mem_append.mp mem with old | new
        · exact pending b old
        · rw [List.mem_singleton.mp new]
          simpa using goesOn

/-! ## What the calls hand out -/

theorem handedOut_line {acc rest : Bytes} {line : String} (terminal : List Poll)
    (h : takeLine acc = some (line, rest)) :
    handedOut acc terminal = line :: handedOut rest terminal := by
  have call : readLinePoll acc terminal = some (.ok (.line line), rest, terminal) := by
    simp [readLinePoll, h]
  rw [handedOut, call]

/-- The lines that have accumulated come first. -/
theorem handedOut_accumulated (acc : Bytes) (terminal : List Poll) :
    handedOut acc terminal =
      (cutLines [] acc).map fromUtf8Lossy ++ handedOut (openLine [] acc) terminal := by
  rcases split_line acc with pending | ⟨front, byte, back, rfl, pending, ends⟩
  · have noLine := cutLines_pending [] pending []
    have allOpen := openLine_pending [] pending []
    simp only [List.append_nil, List.nil_append] at noLine allOpen
    simp [noLine, allOpen, cutLines, openLine]
  · rw [handedOut_line terminal (takeLine_line pending ends),
      handedOut_accumulated (afterTerminator byte back) terminal,
      cutLines_pending [] pending, cutLines_terminator _ _ ends,
      openLine_pending [] pending, openLine_terminator _ _ ends]
    simp
termination_by acc.length
decreasing_by
  subst_vars
  exact takeLine_length (takeLine_line pending ends)

theorem handedOut_timeout {acc : Bytes} (pending : ∀ b ∈ acc, endsLine b = false)
    (later : List Poll) : handedOut acc (.timeout :: later) = handedOut acc later := by
  have call : readLinePoll acc (.timeout :: later) = some (.ok .timeout, acc, later) := by
    simp [readLinePoll, takeLine_none pending]
  rw [handedOut, call]

theorem handedOut_read {acc bytes : Bytes} (pending : ∀ b ∈ acc, endsLine b = false)
    (more : bytes ≠ []) (later : List Poll) :
    handedOut acc (.read bytes :: later) = handedOut (acc ++ bytes) later := by
  obtain ⟨byte, rest, rfl⟩ := List.exists_cons_of_ne_nil more
  cases taken : takeLine (acc ++ byte :: rest) with
  | none =>
      have call : readLinePoll acc (.read (byte :: rest) :: later) =
          some (.ok .timeout, acc ++ byte :: rest, later) := by
        simp [readLinePoll, takeLine_none pending, taken]
      rw [handedOut, call]
  | some found =>
      obtain ⟨line, after⟩ := found
      have call : readLinePoll acc (.read (byte :: rest) :: later) =
          some (.ok (.line line), after, later) := by
        simp [readLinePoll, takeLine_none pending, taken]
      rw [handedOut, call, handedOut_line later taken]

/-- Each read goes on with the line that the reads before it have begun. -/
def piecewise (begun : Bytes) : List Bytes → List Bytes
  | [] => []
  | bytes :: later => cutLines begun bytes ++ piecewise (openLine begun bytes) later

theorem handedOut_piecewise {terminal : List Poll} (arrives : Arrives terminal) {acc : Bytes}
    (pending : ∀ b ∈ acc, endsLine b = false) :
    handedOut acc terminal = (piecewise acc (reads terminal)).map fromUtf8Lossy := by
  induction terminal generalizing acc with
  | nil =>
      have call : readLinePoll acc [] = none := by
        simp [readLinePoll, takeLine_none pending]
      rw [handedOut, call]
      rfl
  | cons poll later ih =>
      have rest : Arrives later := fun p mem => arrives p (List.mem_cons_of_mem _ mem)
      rcases arrives poll (by simp) with rfl | ⟨bytes, rfl, more⟩
      · rw [handedOut_timeout pending, ih rest pending]
        rfl
      · have cut := cutLines_pending [] pending bytes
        have stillOpen := openLine_pending [] pending bytes
        rw [List.nil_append] at cut stillOpen
        rw [handedOut_read pending more, handedOut_accumulated, cut, stillOpen,
          ih rest (openLine_is_pending acc bytes pending), ← List.map_append]
        rfl

/-! ## Reads against the whole sequence -/

/-- The second part without what belongs to a terminator of the first. -/
def beyond (first next : Bytes) : Bytes :=
  if CutTerminator first next then next.tail else next

theorem beyond_cons_cons (byte other : UInt8) (more next : Bytes) :
    beyond (byte :: other :: more) next = beyond (other :: more) next := by
  have same : CutTerminator (byte :: other :: more) next ↔ CutTerminator (other :: more) next := by
    simp [CutTerminator]
  simp only [beyond, same]

theorem beyond_lf (more next : Bytes) : beyond (lf :: more) next = beyond more next := by
  cases more with
  | nil => simp [beyond, CutTerminator, lf, cr]
  | cons other more => exact beyond_cons_cons lf other more next

theorem cutLines_append (begun first next : Bytes) :
    cutLines begun (first ++ next) =
      cutLines begun first ++ cutLines (openLine begun first) (beyond first next) := by
  induction begun, first using cutLines.induct with
  | case1 begun => simp [cutLines, openLine, beyond, CutTerminator]
  | case2 begun byte ends =>
      have seam : afterTerminator byte next = beyond [byte] next := by
        simp [afterTerminator, beyond, CutTerminator]
      rw [List.singleton_append, cutLines_terminator begun next ends, seam]
      simp [cutLines, openLine, ends]
  | case3 begun byte goesOn =>
      have notCr : byte ≠ cr := by
        intro same
        simp [same, endsLine] at goesOn
      have alone : ∀ b ∈ [byte], endsLine b = false := by simpa using goesOn
      rw [cutLines_pending begun alone]
      simp [cutLines, openLine, goesOn, beyond, CutTerminator, notCr]
  | case4 begun byte other more two ih =>
      obtain ⟨rfl, rfl⟩ := two
      rw [beyond_cons_cons, beyond_lf]
      simp [cutLines, openLine, endsLine, ih]
  | case5 begun byte other more one ends ih =>
      rw [beyond_cons_cons, List.cons_append, List.cons_append, cutLines, if_neg one, if_pos ends,
        ← List.cons_append, ih]
      simp only [cutLines, if_neg one, if_pos ends, openLine, List.cons_append]
  | case6 begun byte other more one goesOn ih =>
      rw [beyond_cons_cons, List.cons_append, List.cons_append, cutLines, if_neg one,
        if_neg goesOn, ← List.cons_append, ih]
      simp only [cutLines, if_neg one, if_neg goesOn, openLine]

theorem openLine_ended (begun : Bytes) {first : Bytes} (ended : first.getLast? = some cr) :
    openLine begun first = [] := by
  induction first generalizing begun with
  | nil => simp at ended
  | cons byte rest ih =>
      cases rest with
      | nil =>
          have isCr : byte = cr := by simpa using ended
          simp [openLine, isCr, endsLine]
      | cons other more =>
          rw [List.getLast?_cons_cons] at ended
          rw [openLine]
          split
          next => exact ih [] ended
          next => exact ih (begun ++ [byte]) ended

theorem cutLines_beyond (begun first next : Bytes) :
    (cutLines (openLine begun first) next).length =
      (cutLines (openLine begun first) (beyond first next)).length +
        if CutTerminator first next then 1 else 0 := by
  unfold beyond
  split
  next cut =>
    obtain ⟨more, rfl⟩ : ∃ more, next = lf :: more := by
      cases next with
      | nil => simp [CutTerminator] at cut
      | cons byte more =>
          have isLf : byte = lf := by simpa using cut.2
          exact ⟨more, by rw [isLf]⟩
    rw [openLine_ended begun cut.1, cutLines_terminator [] more (by rfl)]
    simp [afterTerminator, lf, cr]
  next => simp

/-- A terminator that two reads share gives one line more, which is empty. -/
theorem piecewise_length (begun : Bytes) {parts : List Bytes} (more : ∀ part ∈ parts, part ≠ []) :
    (piecewise begun parts).length =
      (cutLines begun parts.flatten).length + cutTerminators parts := by
  induction parts generalizing begun with
  | nil => rfl
  | cons first later ih =>
      rw [piecewise, List.length_append, ih _ fun part mem => more part (List.mem_cons_of_mem _ mem),
        List.flatten_cons, cutLines_append, List.length_append]
      cases later with
      | nil => simp [cutTerminators, beyond, CutTerminator]
      | cons next later =>
          obtain ⟨byte, rest, rfl⟩ := List.exists_cons_of_ne_nil (more next (by simp))
          have sameSeam : CutTerminator first ((byte :: rest) :: later).flatten ↔
              CutTerminator first (byte :: rest) := by
            simp [CutTerminator]
          rw [cutLines_beyond, cutTerminators]
          simp only [sameSeam]
          omega

theorem piecewise_whole (begun : Bytes) {parts : List Bytes} (more : ∀ part ∈ parts, part ≠ [])
    (whole : cutTerminators parts = 0) :
    piecewise begun parts = cutLines begun parts.flatten := by
  induction parts generalizing begun with
  | nil => rfl
  | cons first later ih =>
      cases later with
      | nil => simp [piecewise]
      | cons next later =>
          obtain ⟨byte, rest, rfl⟩ := List.exists_cons_of_ne_nil (more next (by simp))
          rw [cutTerminators, Nat.add_eq_zero_iff] at whole
          have seam : ¬ CutTerminator first (byte :: rest) := by
            intro cut
            simp [cut] at whole
          have sameSeam : ¬ CutTerminator first ((byte :: rest) :: later).flatten := by
            simpa [CutTerminator] using seam
          rw [piecewise, ih _ (fun part mem => more part (List.mem_cons_of_mem _ mem)) whole.2,
            List.flatten_cons (l := first), cutLines_append, beyond, if_neg sameSeam]

theorem reads_arrive {terminal : List Poll} (arrives : Arrives terminal) :
    ∀ part ∈ reads terminal, part ≠ [] := by
  induction terminal with
  | nil => simp [reads]
  | cons poll later ih =>
      have rest := ih fun p mem => arrives p (List.mem_cons_of_mem _ mem)
      rcases arrives poll (by simp) with rfl | ⟨bytes, rfl, more⟩
      · exact rest
      · intro part mem
        rcases List.mem_cons.mp mem with rfl | later
        · exact more
        · exact rest part later

/-- The lines handed out are those of the whole sequence exactly when no read ends
with the CR of a terminator whose LF begins the next read. -/
theorem console_lines_iff {terminal : List Poll} (arrives : Arrives terminal) :
    handedOut [] terminal = (cutLines [] (reads terminal).flatten).map fromUtf8Lossy ↔
      cutTerminators (reads terminal) = 0 := by
  rw [handedOut_piecewise arrives (by simp)]
  constructor
  · intro same
    have lengths := congrArg List.length same
    rw [List.length_map, List.length_map, piecewise_length [] (reads_arrive arrives)] at lengths
    omega
  · intro whole
    rw [piecewise_whole [] (reads_arrive arrives) whole]

theorem console_lines_two_reads :
    handedOut [] [.read [97], .timeout, .read [cr, lf, 98, lf]] =
      (cutLines [] [97, cr, lf, 98, lf]).map fromUtf8Lossy :=
  (console_lines_iff (by simp [Arrives])).mpr (by decide)

/-- After a name that ends in CR, the LF of the next read is an empty password. -/
theorem console_lines_cut_terminator :
    handedOut [] [.read [97, cr], .read [lf, 98, lf]] = ["a", "", "b"] ∧
      (cutLines [] [97, cr, lf, 98, lf]).map fromUtf8Lossy = ["a", "b"] ∧
      ¬ ∀ terminal, Arrives terminal →
        handedOut [] terminal = (cutLines [] (reads terminal).flatten).map fromUtf8Lossy := by
  have arrives : Arrives [.read [97, cr], .read [lf, 98, lf]] := by simp [Arrives]
  have given : handedOut [] [.read [97, cr], .read [lf, 98, lf]] = ["a", "", "b"] := by
    rw [handedOut_piecewise arrives (by simp)]
    simp [reads, piecewise, cutLines, openLine, endsLine, lf, cr, fromUtf8Lossy, utf8Chars,
      utf8Step, utf8Lead, utf8Continuation]
  have expected : (cutLines [] [97, cr, lf, 98, lf]).map fromUtf8Lossy = ["a", "b"] := by
    simp [cutLines, endsLine, lf, cr, fromUtf8Lossy, utf8Chars, utf8Step, utf8Lead,
      utf8Continuation]
  refine ⟨given, expected, fun every => ?_⟩
  have same := every _ arrives
  rw [given, show (reads [.read [97, cr], .read [lf, 98, lf]]).flatten = [97, cr, lf, 98, lf]
    from rfl, expected] at same
  exact absurd same (by decide)

end Fwos.Console
