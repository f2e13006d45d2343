import Fwos.Effects.Interference
import Fwos.Netd.World
import Fwos.Rust.Hex
import Fwos.Storage.Disk

/-!
# Durable files

`durable.rs`: a file is replaced by writing a temporary file beside it, bringing
that to the device, renaming it and bringing the directory to the device. The
programs run over a directory that a power loss may set back (`Storage.Disk`),
with a failure before or after the effect of every call, beside other processes
that write other files of the same directory.

* `write`, `remove`: the programs.
* `durable_verified`: what each guarantees and what it relies on.
* `files_survive`: in every interleaving of such calls, with processes killed and
  power lost anywhere, a power loss leaves under every name something that was
  attempted at or after the last acknowledged change.
* `write_exec`, `remove_exec`: what netd's own operations on a file promise, a
  directory keeps.
-/

namespace Fwos.Durable

open Effects Rust Storage

abbrev Bytes := List UInt8

abbrev Directory := Disk String Bytes

/-! ## The calls of the system -/

/-- An absolute path without `..`. -/
structure Path where
  components : List String
deriving DecidableEq, Repr

def Path.parent (path : Path) : Option Path :=
  if path.components.isEmpty then none else some ⟨path.components.dropLast⟩

def Path.fileName (path : Path) : Option String := path.components.getLast?

def Path.join (path : Path) (name : String) : Path := ⟨path.components ++ [name]⟩

def Path.display (path : Path) : String := "/" ++ "/".intercalate path.components

inductive IoError where
  | notFound
  | alreadyExists
  | other (text : String)
deriving DecidableEq, Repr

def IoError.text : IoError → String
  | .notFound => "No such file or directory (os error 2)"
  | .alreadyExists => "File exists (os error 17)"
  | .other text => text

/-- The calls, all of them on the directory of the file. -/
inductive Op where
  | createDirAll
  /-- The bytes of `random_token`. -/
  | random
  | createNew (name : String)
  | writeAll (file : Nat) (bytes : Bytes)
  | syncAll (file : Nat)
  | rename (source target : String)
  /-- `File::open(parent)` and `sync_all`. -/
  | syncDirectory
  | removeFile (name : String)

abbrev Ans : Op → Type
  | .random => Option Bytes
  | .createNew _ => Except IoError Nat
  | _ => Except IoError Unit

structure Choice where
  fault : Option Fault := none
  random : Bytes := []
  /-- What a failed `write_all` leaves in the file. -/
  written : Bytes := []

def Choice.result (choice : Choice) : Except IoError Unit :=
  match choice.fault with
  | none => .ok ()
  | some fault => .error (.other fault.error)

def Choice.after (choice : Choice) (d changed : Directory) : Directory :=
  match choice.fault with
  | some (.before _) => d
  | none | some (.after _) => changed

def exec (op : Op) (choice : Choice) (d : Directory) : Ans op × Directory :=
  match op with
  | .createDirAll => (choice.result, d)
  | .random => (if choice.fault.isNone then some choice.random else none, d)
  | .createNew name =>
      if (d.entries name).isSome then (.error .alreadyExists, d)
      else (choice.result.map fun _ => d.next, choice.after d (d.create name []))
  | .writeAll file bytes =>
      (choice.result, d.fill file (if choice.fault.isNone then bytes else choice.written))
  | .syncAll file => (choice.result, if choice.fault.isNone then d.syncFile file else d)
  | .rename source target =>
      if (d.entries source).isNone then (.error .notFound, d)
      else (choice.result, choice.after d (d.rename source target))
  | .syncDirectory => (choice.result, choice.after d d.syncDirectory)
  | .removeFile name =>
      if (d.entries name).isNone then (.error .notFound, d)
      else (choice.result, choice.after d (d.unlink name))

def semantics : Semantics Op Ans Choice Directory := ⟨exec⟩

/-! ## The programs -/

abbrev Prog (α : Type) := Program Op Ans α

abbrev Io (α : Type) := ExceptT String (Program Op Ans) α

def ask (op : Op) : Prog (Ans op) := perform op

/-- `map_err(|e| format!("{context}: {e}"))`. -/
def withContext {α : Type} (context : String) (call : Prog (Except IoError α)) : Io α :=
  ExceptT.mk do
    match ← call with
    | .ok value => return .ok value
    | .error error => return .error s!"{context}: {error.text}"

/-- `and_then` of two calls. -/
def andThen (first second : Prog (Except IoError Unit)) : Prog (Except IoError Unit) := do
  match ← first with
  | .ok () => second
  | .error error => return .error error

def check {α : Type} (result : Except String α) : Io α := ExceptT.mk (pure result)

/-- `identity::random_token`. -/
def randomToken : Io String := ExceptT.mk do
  match ← ask .random with
  | some bytes => return .ok (hexText bytes)
  | none => return .error "secure randomness unavailable"

def temporaryName (name token : String) : String := s!".{name}-{token}.tmp"

def publish (parent path : Path) (temporary name : String) (bytes : Bytes) : Io Unit := do
  let file ← withContext s!"create {(parent.join temporary).display}" (ask (.createNew temporary))
  withContext s!"persist {(parent.join temporary).display}"
    (andThen (ask (.writeAll file bytes)) (ask (.syncAll file)))
  withContext s!"publish {path.display}" (ask (.rename temporary name))
  withContext s!"persist {parent.display}" (ask .syncDirectory)

def write (path : Path) (bytes : Bytes) : Io Unit := do
  let parent ← check (okOr path.parent "missing parent directory")
  withContext s!"create {parent.display}" (ask .createDirAll)
  let name ← check (okOr path.fileName "missing file name")
  let token ← randomToken
  let temporary := temporaryName name token
  let result ← ExceptT.lift (publish parent path temporary name bytes).run
  if !result.isOk then
    let _ ← ExceptT.lift (ask (.removeFile temporary))
  check result

def remove (path : Path) : Io Unit := ExceptT.mk do
  match path.fileName with
  -- The root directory cannot be unlinked.
  | none => return .error s!"remove {path.display}: Is a directory (os error 21)"
  | some name =>
      match ← ask (.removeFile name) with
      | .ok () => ExceptT.run do
          let parent ← check (okOr path.parent "missing parent directory")
          withContext s!"persist {parent.display}" (ask .syncDirectory)
      | .error .notFound => return .ok ()
      | .error error => return .error s!"remove {path.display}: {error.text}"

/-- `write` or `remove`, as the content is there or not. -/
def restore (path : Path) : Option Bytes → Io Unit
  | some bytes => write path bytes
  | none => remove path

/-! ## Names -/

/-- A file that is not hidden: no temporary name is of this kind. -/
def IsPlain (name : String) : Prop := name.toList.head? ≠ some '.'

instance (name : String) : Decidable (IsPlain name) := inferInstanceAs (Decidable (_ ≠ _))

/-- The names that a call for this file may touch. -/
def Region (name : String) : Set String :=
  {other | other = name ∨ ∃ bytes, other = temporaryName name (hexText bytes)}

theorem mem_region (name : String) : name ∈ Region name := .inl rfl

theorem temporary_mem {name : String} {bytes : Bytes} :
    temporaryName name (hexText bytes) ∈ Region name := .inr ⟨bytes, rfl⟩

theorem temporaryName_toList {name token : String} :
    (temporaryName name token).toList =
      '.' :: (name.toList ++ '-' :: token.toList) ++ ['.', 't', 'm', 'p'] := by
  simp [temporaryName, String.toList_append, ToString.toString]

theorem temporary_ne {name token plain : String} (h : IsPlain plain) :
    temporaryName name token ≠ plain := by
  intro same
  refine h ?_
  rw [← same, temporaryName_toList]
  rfl

/-- What stands before the last separator. -/
theorem append_sep_left {sep : Char} {a b s t : List Char} (hs : sep ∉ s) (ht : sep ∉ t)
    (h : a ++ sep :: s = b ++ sep :: t) : a = b := by
  rcases List.append_eq_append_iff.mp h with ⟨middle, rfl, rest⟩ | ⟨middle, rfl, rest⟩
  · cases middle with
    | nil => simp
    | cons first middle =>
      injection rest with _ rest
      exact absurd (rest ▸ List.mem_append_right middle List.mem_cons_self) hs
  · cases middle with
    | nil => simp
    | cons first middle =>
      injection rest with _ rest
      exact absurd (rest ▸ List.mem_append_right middle List.mem_cons_self) ht

theorem temporaryName_name {a b : String} {s t : Bytes}
    (h : temporaryName a (hexText s) = temporaryName b (hexText t)) : a = b := by
  have noSep : ∀ bytes, '-' ∉ (hexText bytes).toList := by
    intro bytes member
    exact absurd (hexText_digits member) (by decide)
  have chars := congrArg String.toList h
  rw [temporaryName_toList, temporaryName_toList] at chars
  have names := List.append_inj_left' chars rfl
  injection names with _ names
  exact String.toList_injective (append_sep_left (noSep s) (noSep t) names)

/-- Calls for different files do not share a name. -/
theorem region_disjoint {a b : String} (ha : IsPlain a) (hb : IsPlain b) (differ : a ≠ b) :
    Region a ⊆ (Region b)ᶜ := by
  intro name inA inB
  rcases inA with rfl | ⟨s, rfl⟩
  · rcases inB with same | ⟨t, same⟩
    · exact differ same
    · exact temporary_ne ha same.symm
  · rcases inB with same | ⟨t, same⟩
    · exact temporary_ne hb same
    · exact differ (temporaryName_name same)

/-! ## What a call may do -/

/-- What one call of the system changes within a change of the file to this value. -/
structure Attempts (name : String) (value : Option Bytes) (d d' : Directory) : Prop where
  others : Disk.Spares (Region name)ᶜ d d'
  visible : d'.visible name = d.visible name ∨ d'.visible name = value
  mayFind : ∀ found, d'.MayFind name found → d.MayFind name found ∨ found = value

/-- The file has the value, and so it will after a power loss. -/
structure Settled (name : String) (value : Option Bytes) (d : Directory) : Prop where
  visible : d.visible name = value
  mayFind : ∀ found, d.MayFind name found → found = value ∨ d.rooted = false ∧ found = none

section Calls

variable {name temporary : String} {value : Option Bytes} {d d' : Directory} {file : Nat}
  {bytes : Bytes}

theorem attempts_refl : Attempts name value d d where
  others := .refl _ d
  visible := .inl rfl
  mayFind _ may := .inl may

/-- A change of the temporary file alone. -/
theorem attempts_aside (inside : temporary ∈ Region name) (differ : name ≠ temporary)
    (aside : Disk.Spares {temporary}ᶜ d d') : Attempts name value d d' where
  others := aside.antitone (Set.compl_subset_compl.mpr (Set.singleton_subset_iff.mpr inside))
  visible := .inl (aside.visible differ)
  mayFind _ may := .inl (aside.mayFind differ may)

/-- A synchronisation changes no file that can be seen. -/
theorem spares_sync (d : Directory) : Disk.Spares Set.univ d d.syncDirectory :=
  Disk.spares_syncDirectory

theorem attempts_syncDirectory : Attempts name value d d.syncDirectory where
  others := Disk.spares_syncDirectory
  visible := .inl ((spares_sync d).visible trivial)
  mayFind _ may := .inl ((spares_sync d).mayFind trivial may)

/-- The temporary file, and that nothing else is this file. -/
structure Staged (temporary : String) (file : Nat) (d : Directory) : Prop where
  entry : d.entries temporary = some file
  alone : ∀ other ∈ ({temporary} : Set String)ᶜ, ¬d.Held other (some file)

/-- The file under a name is this one, on the device as well. -/
structure Brought (name : String) (file : Nat) (bytes : Bytes) (d : Directory) : Prop where
  entry : d.entries name = some file
  content : d.content file = bytes
  stored : d.stored file = some bytes

theorem Staged.relied (staged : Staged temporary file d) (inside : temporary ∈ Region name)
    (relied : Disk.Spares (Region name) d d') : Staged temporary file d' := by
  refine ⟨(relied.entries temporary inside).trans staged.entry, ?_⟩
  intro other differs held
  by_cases within : other ∈ Region name
  · exact staged.alone other differs (relied.held other within _ held)
  · obtain ⟨elsewhere, away, old⟩ :=
      relied.apart other within file (Disk.entries_lt staged.entry) held
    exact staged.alone elsewhere (fun same => away (same ▸ inside)) old

theorem content_relied {other : String} (entry : d.entries other = some file)
    (inside : other ∈ Region name) (relied : Disk.Spares (Region name) d d') :
    d'.content file = d.content file := by
  have held : d'.Held other (some file) :=
    ((relied.entries other inside).trans entry) ▸ Disk.held_entries
  exact relied.content other inside file held

theorem Brought.relied {other : String} (brought : Brought other file bytes d)
    (inside : other ∈ Region name) (relied : Disk.Spares (Region name) d d') :
    Brought other file bytes d' := by
  have entry := (relied.entries other inside).trans brought.entry
  exact ⟨entry, (content_relied brought.entry inside relied).trans brought.content,
    relied.stored other inside file (entry ▸ Disk.held_entries) bytes brought.stored⟩

theorem staged_create :
    Staged temporary d.next (d.create temporary []) := by
  refine ⟨?_, ?_⟩
  · rw [Disk.entries_create]
    exact apply_some (if_pos rfl)
  · intro other differs held
    rcases Disk.held_create held with set | old
    · rw [Update.sets, if_neg (show other ≠ temporary from differs)] at set
      cases set
    · exact Nat.lt_irrefl _ (Disk.held_lt old)

/-- The rename attempts exactly the new bytes, once the temporary file is on the device. -/
theorem attempts_rename (inside : temporary ∈ Region name)
    (brought : Brought temporary file bytes d) :
    Attempts name (some bytes) d (d.rename temporary name) ∧
      Brought name file bytes (d.rename temporary name) := by
  have others : Disk.Spares (Region name)ᶜ d (d.rename temporary name) :=
    Disk.spares_rename (fun outside => outside inside) (fun outside => outside (mem_region name))
  rw [Disk.rename_eq brought.entry] at others ⊢
  have set : (Update.move temporary name file).sets name = some (some file) := if_pos rfl
  have entry : (d.push (.move temporary name file) (Disk.move_known brought.entry)).entries name =
      some file := by
    rw [Disk.entries_push]
    exact apply_some set
  refine ⟨⟨others, .inr ?_, ?_⟩, ⟨entry, brought.content, brought.stored⟩⟩
  · rw [Disk.visible, entry]
    exact congrArg some brought.content
  · intro found may
    have old : ∀ entry, (d.push (.move temporary name file) (Disk.move_known brought.entry)).Held
        name entry → entry = some file ∨ d.Held name entry := by
      intro entry held
      rcases Disk.held_push held with taken | held
      · rw [set] at taken
        exact .inl (Option.some_inj.mp taken).symm
      · exact .inr held
    rcases Disk.mayFind_iff.mp may with ⟨unrooted, rfl⟩ | ⟨held, rfl⟩ |
      ⟨other, data, held, hold, rfl⟩
    · exact .inl (Disk.mayFind_iff.mpr (.inl ⟨unrooted, rfl⟩))
    · rcases old _ held with new | held
      · cases new
      · exact .inl (Disk.mayFind_iff.mpr (.inr (.inl ⟨held, rfl⟩)))
    · rcases old _ held with new | held
      · cases new
        exact .inr (congrArg some (hold bytes brought.stored))
      · exact .inl (Disk.mayFind_iff.mpr (.inr (.inr ⟨other, data, held, hold, rfl⟩)))

/-- Bringing the directory to the device settles what is visible. -/
theorem settled_brought (brought : Brought name file bytes d) :
    Settled name (some bytes) d.syncDirectory := by
  refine ⟨?_, ?_⟩
  · rw [(spares_sync _).visible trivial, Disk.visible, brought.entry]
    exact congrArg some brought.content
  · intro found may
    rcases Disk.mayFind_iff.mp may with ⟨unrooted, none⟩ | ⟨held, _⟩ |
      ⟨other, data, held, hold, rfl⟩
    · exact .inr ⟨unrooted, none⟩
    · have entry := Disk.held_synced held
      rw [brought.entry] at entry
      cases entry
    · have entry := Disk.held_synced held
      rw [brought.entry] at entry
      cases entry
      exact .inl (congrArg some (hold bytes brought.stored))

theorem settled_unlinked (entry : d.entries name = none) : Settled name none d.syncDirectory := by
  refine ⟨?_, ?_⟩
  · rw [(spares_sync _).visible trivial, Disk.visible, entry]
    rfl
  · intro found may
    rcases Disk.mayFind_iff.mp may with ⟨_, none⟩ | ⟨_, none⟩ | ⟨other, _, held, _, _⟩
    · exact .inl none
    · exact .inl none
    · have linked := Disk.held_synced held
      rw [entry] at linked
      cases linked

theorem attempts_unlink :
    Attempts name none d (d.unlink name) ∧ (d.unlink name).entries name = none := by
  have set : (Update.unlink name).sets name = some none := if_pos rfl
  have entry : (d.unlink name).entries name = none := by
    exact (congrFun Disk.entries_push name).trans (apply_some set)
  refine ⟨⟨Disk.spares_unlink fun outside => outside (mem_region name), .inr ?_, ?_⟩, entry⟩
  · rw [Disk.visible, entry]
    rfl
  · intro found may
    rcases Disk.mayFind_iff.mp may with ⟨_, none⟩ | ⟨_, none⟩ | ⟨other, data, held, hold, rfl⟩
    · exact .inr none
    · exact .inr none
    · rcases Disk.held_push held with taken | held
      · rw [set] at taken
        cases taken
      · exact .inl (Disk.mayFind_iff.mpr (.inr (.inr ⟨other, data, held, hold, rfl⟩)))

end Calls

/-! ## The programs, each alone -/

section Programs

variable {name temporary : String} {value : Option Bytes} {d : Directory} {bytes : Bytes}

/-- The program under what it relies on, where every call of it attempts this value. -/
def Attempting {α : Type} (name : String) (value : Option Bytes) (program : Prog α)
    (Q : α → Directory → Prop) (d : Directory) : Prop :=
  program.guarded semantics (fun _ => True) (Disk.Spares (Region name)) (Attempts name value) Q d

theorem attempting_ask {op : Op} {Q : Ans op → Directory → Prop}
    (h : ∀ found, Disk.Spares (Region name) d found → ∀ choice,
      Attempts name value found (exec op choice found).2 ∧
        Q (exec op choice found).1 (exec op choice found).2) : Attempting name value (ask op) Q d :=
  fun found relied choice _ => h found relied choice

theorem attempting_mono {α : Type} {program : Prog α} {Q Q' : α → Directory → Prop}
    (h : Attempting name value program Q d) (hq : ∀ result d, Q result d → Q' result d) :
    Attempting name value program Q' d :=
  guarded_mono h hq

theorem attempting_seq {α β : Type} {program : Prog α} {next : α → Prog β}
    {P : α → Directory → Prop} {Q : β → Directory → Prop} (hp : Attempting name value program P d)
    (hn : ∀ result d, P result d → Attempting name value (next result) Q d) :
    Attempting name value (program >>= next) Q d :=
  guarded_seq hp hn

theorem attempting_seqExcept {α β : Type} {program : Io α} {next : α → Io β}
    {P : Except String α → Directory → Prop} {Q : Except String β → Directory → Prop}
    (hp : Attempting name value program.run P d)
    (he : ∀ error d, P (.error error) d → Q (.error error) d)
    (hn : ∀ result d, P (.ok result) d → Attempting name value (next result).run Q d) :
    Attempting name value (program >>= next).run Q d :=
  guarded_seqExcept hp he hn

theorem attempting_withContext {α : Type} {context : String} {call : Prog (Except IoError α)}
    {Q : Except String α → Directory → Prop}
    (h : Attempting name value call (fun result d =>
      Q (result.mapError fun error => s!"{context}: {error.text}") d) d) :
    Attempting name value (withContext context call).run Q d := by
  refine attempting_seq h fun result d' hq => ?_
  cases result <;> exact hq

/-- What holds after a call that succeeded. -/
def Succeeds {ε α : Type} (Q : α → Directory → Prop) : Except ε α → Directory → Prop
  | .ok value, d => Q value d
  | .error _, _ => True

theorem attempting_step {α β : Type} {context : String} {call : Prog (Except IoError α)}
    {next : α → Io β} {P : α → Directory → Prop} {Q : β → Directory → Prop}
    (hp : Attempting name value call (Succeeds P) d)
    (hn : ∀ result d, P result d → Attempting name value (next result).run (Succeeds Q) d) :
    Attempting name value (withContext context call >>= next).run (Succeeds Q) d := by
  refine attempting_seqExcept (P := Succeeds P) (attempting_withContext (attempting_mono hp ?_))
    (fun _ _ _ => trivial) hn
  intro result d' hq
  cases result with
  | ok value => exact hq
  | error error => trivial

/-! A call may fail before or after its effect. -/

theorem attempts_after {found changed : Directory} {choice : Choice}
    (attempts : Attempts name value found changed) :
    Attempts name value found (choice.after found changed) := by
  obtain ⟨fault, random, written⟩ := choice
  match fault with
  | none => exact attempts
  | some (.before _) => exact attempts_refl
  | some (.after _) => exact attempts

theorem attempting_effect {found changed : Directory} {choice : Choice} {α : Type} {made : α}
    {P : α → Directory → Prop} (attempts : Attempts name value found changed)
    (done : P made changed) :
    Attempts name value found (choice.after found changed) ∧
      Succeeds P (choice.result.map fun _ => made) (choice.after found changed) := by
  refine ⟨attempts_after attempts, ?_⟩
  obtain ⟨fault, random, written⟩ := choice
  match fault with
  | none => exact done
  | some (.before _) => exact trivial
  | some (.after _) => exact trivial

theorem result_map {choice : Choice} : (choice.result.map fun _ => ()) = choice.result := by
  cases choice.result <;> rfl

theorem createNew_attempting (inside : temporary ∈ Region name) (differ : name ≠ temporary) :
    Attempting name value (ask (.createNew temporary)) (Succeeds (Staged temporary)) d := by
  refine attempting_ask fun found _ choice => ?_
  have aside : Disk.Spares {temporary}ᶜ found (found.create temporary []) :=
    Disk.spares_create fun outside => outside rfl
  simp only [exec]
  split
  · exact ⟨attempts_refl, trivial⟩
  · exact attempting_effect (attempts_aside inside differ aside) staged_create

theorem writeAll_attempting {file : Nat} (inside : temporary ∈ Region name)
    (differ : name ≠ temporary) (staged : Staged temporary file d) :
    Attempting name value (ask (.writeAll file bytes)) (Succeeds fun _ d =>
      Staged temporary file d ∧ d.content file = bytes) d := by
  refine attempting_ask fun found relied choice => ?_
  have staged := staged.relied inside relied
  refine ⟨attempts_aside inside differ (Disk.spares_fill staged.alone), ?_⟩
  obtain ⟨fault, random, written⟩ := choice
  match fault with
  | none => exact ⟨⟨staged.entry, staged.alone⟩, Function.update_self ..⟩
  | some (.before _) => exact trivial
  | some (.after _) => exact trivial

theorem syncAll_attempting {file : Nat} (inside : temporary ∈ Region name)
    (differ : name ≠ temporary) (staged : Staged temporary file d ∧ d.content file = bytes) :
    Attempting name value (ask (.syncAll file))
      (Succeeds fun _ d => Brought temporary file bytes d) d := by
  refine attempting_ask fun found relied choice => ?_
  have content := (content_relied staged.1.entry inside relied).trans staged.2
  have staged := staged.1.relied inside relied
  have synced : Attempts name value found (found.syncFile file) :=
    attempts_aside inside differ (Disk.spares_syncFile staged.alone)
  obtain ⟨fault, random, written⟩ := choice
  match fault with
  | none =>
    refine ⟨synced, staged.entry, content, ?_⟩
    exact (Function.update_self ..).trans (congrArg some content)
  | some (.before _) => exact ⟨attempts_refl, trivial⟩
  | some (.after _) => exact ⟨attempts_refl, trivial⟩

theorem rename_attempting {file : Nat} (inside : temporary ∈ Region name)
    (brought : Brought temporary file bytes d) :
    Attempting name (some bytes) (ask (.rename temporary name))
      (Succeeds fun _ d => Brought name file bytes d) d := by
  refine attempting_ask fun found relied choice => ?_
  have brought := brought.relied inside relied
  obtain ⟨attempts, renamed⟩ := attempts_rename inside brought
  simp only [exec, brought.entry]
  exact result_map ▸ attempting_effect (P := fun _ => Brought name file bytes) attempts renamed

theorem syncDirectory_attempting {P : Directory → Prop}
    (settles : ∀ found, Disk.Spares (Region name) d found → P found.syncDirectory) :
    Attempting name value (ask .syncDirectory) (Succeeds fun _ => P) d := by
  refine attempting_ask fun found relied choice => ?_
  simp only [exec]
  exact result_map ▸
    attempting_effect (P := fun _ => P) attempts_syncDirectory (settles found relied)

theorem publish_attempting {parent path : Path} (inside : temporary ∈ Region name)
    (differ : name ≠ temporary) :
    Attempting name (some bytes) (publish parent path temporary name bytes).run
      (Succeeds fun _ => Settled name (some bytes)) d := by
  refine attempting_step (createNew_attempting inside differ) fun file d staged => ?_
  refine attempting_step (P := fun _ => Brought temporary file bytes) ?_ fun _ d brought => ?_
  · refine attempting_seq (writeAll_attempting inside differ staged) fun result d written => ?_
    cases result with
    | ok _ => exact syncAll_attempting inside differ written
    | error error => exact trivial
  refine attempting_step (rename_attempting inside brought) fun _ d brought => ?_
  refine attempting_withContext (attempting_mono (syncDirectory_attempting fun found relied =>
    settled_brought (brought.relied (mem_region name) relied)) fun result d settled => ?_)
  cases result <;> exact settled

theorem attempting_check {α β : Type} {result : Except String α} {next : α → Io β}
    {Q : β → Directory → Prop}
    (h : ∀ a, result = .ok a → Attempting name value (next a).run (Succeeds Q) d) :
    Attempting name value (check result >>= next).run (Succeeds Q) d := by
  cases result with
  | ok a => exact h a rfl
  | error error => exact trivial

theorem attempting_lift {α β : Type} {program : Prog α} {next : α → Io β} {P : α → Directory → Prop}
    {Q : Except String β → Directory → Prop} (hp : Attempting name value program P d)
    (hn : ∀ a d, P a d → Attempting name value (next a).run Q d) :
    Attempting name value (ExceptT.lift program >>= next).run Q d := by
  refine attempting_seqExcept (P := fun result d => ∃ a, result = .ok a ∧ P a d)
    (attempting_seq hp fun a d ha => ⟨a, rfl, ha⟩) ?_ ?_
  · intro error d ⟨_, lifted, _⟩
    cases lifted
  · intro a d ⟨_, lifted, ha⟩
    cases lifted
    exact hn a d ha

/-- A write attempts its bytes and nothing else, and leaves them for good if it succeeds. -/
theorem write_attempting {path : Path} (named : path.fileName = some name) (plain : IsPlain name) :
    Attempting name (some bytes) (write path bytes).run
      (Succeeds fun _ => Settled name (some bytes)) d := by
  refine attempting_check fun parent _ => ?_
  refine attempting_step (P := fun _ _ => True) ?_ fun _ d _ => ?_
  · refine attempting_ask fun found _ choice => ⟨attempts_refl, ?_⟩
    cases (exec .createDirAll choice found).1 <;> trivial
  refine attempting_check fun other same => ?_
  rw [okOr_eq_ok, named] at same
  cases same
  refine attempting_seqExcept (P := Succeeds fun token _ => ∃ bytes, token = hexText bytes) ?_
    (fun _ _ _ => trivial) ?_
  · refine attempting_seq (P := fun _ _ => True)
      (attempting_ask fun found _ choice => ⟨attempts_refl, trivial⟩) fun random d _ => ?_
    cases random with
    | none => exact trivial
    | some random => exact ⟨random, rfl⟩
  rintro token d ⟨random, rfl⟩
  have differ : name ≠ temporaryName name (hexText random) := Ne.symm (temporary_ne plain)
  refine attempting_lift (publish_attempting temporary_mem differ) fun result d published => ?_
  cases result with
  | ok value => exact published
  | error error =>
    refine attempting_lift (P := fun _ _ => True)
      (attempting_ask fun found _ choice => ⟨?_, trivial⟩) fun _ d _ => trivial
    have aside : Disk.Spares {temporaryName name (hexText random)}ᶜ found
        (found.unlink (temporaryName name (hexText random))) :=
      Disk.spares_unlink fun outside => outside rfl
    simp only [exec]
    split
    · exact attempts_refl
    · exact attempts_after (attempts_aside temporary_mem differ aside)

/-- What a removal promises: the file is gone, for good if there was one, and it cannot fail if
there was none. -/
def Removed (name : String) (start : Directory) : Except String Unit → Directory → Prop
  | .ok _, d => d.visible name = none ∧ (start.visible name ≠ none → Settled name none d)
  | .error _, _ => start.visible name ≠ none

theorem visible_eq_none : d.visible name = none ↔ d.entries name = none := Option.map_eq_none_iff

/-- A removal attempts the absence of the file and nothing else. -/
theorem remove_attempting {path : Path} (named : path.fileName = some name) :
    Attempting name none (remove path).run (Removed name d) d := by
  rw [remove, named]
  refine attempting_seq (P := fun result d' => match result with
      | .ok _ => d'.entries name = none ∧ d.visible name ≠ none
      | .error .notFound => d'.entries name = none ∧ d.entries name = none
      | .error _ => d.visible name ≠ none) ?_ fun result d' after => ?_
  · refine attempting_ask fun found relied choice => ?_
    have same := relied.entries name (mem_region name)
    simp only [exec]
    split
    · rename_i absent
      have absent : found.entries name = none := by simpa using absent
      exact ⟨attempts_refl, absent, same.symm.trans absent⟩
    · rename_i there
      have there : d.visible name ≠ none := by
        rw [ne_eq, visible_eq_none, ← same]
        simpa using there
      obtain ⟨attempts, unlinked⟩ := @attempts_unlink name found
      refine ⟨attempts_after attempts, ?_⟩
      obtain ⟨fault, random, written⟩ := choice
      match fault with
      | none => exact ⟨unlinked, there⟩
      | some (.before _) => exact there
      | some (.after _) => exact there
  · match result with
    | .ok _ =>
      cases parent : path.parent with
      | none => exact after.2
      | some parent =>
        refine attempting_withContext (attempting_mono
          (syncDirectory_attempting (P := fun d => Settled name none d) fun found relied =>
            settled_unlinked ((relied.entries name (mem_region name)).trans after.1)) ?_)
        intro result d settled
        cases result with
        | ok _ => exact ⟨settled.visible, fun _ => settled⟩
        | error error => exact after.2
    | .error .notFound =>
      exact ⟨visible_eq_none.mpr after.1, fun there => absurd (visible_eq_none.mpr after.2) there⟩
    | .error .alreadyExists => exact after
    | .error (.other _) => exact after

end Programs

/-! ## Many files, many processes -/

inductive Call where
  | write (path : Path) (bytes : Bytes)
  | remove (path : Path)
deriving DecidableEq, Repr

def Call.path : Call → Path
  | .write path _ | .remove path => path

/-- What the file is to be. -/
def Call.value : Call → Option Bytes
  | .write _ bytes => some bytes
  | .remove _ => none

def Call.code : Call → Prog (Except String Unit)
  | .write path bytes => (Durable.write path bytes).run
  | .remove path => (Durable.remove path).run

/-- A file is changed by one call at a time, so that it names the thread of its changes. -/
def Changes (name : String) (call : Call) : Prop :=
  call.path.fileName = some name ∧ IsPlain name

def Relies (name : String) (d d' : Directory) : Prop :=
  IsPlain name → Disk.Spares (Region name) d d'

/-- The directory belongs to these processes. -/
def Nothing (_ _ : Directory) : Prop := False

def Guarantees (call : Call) (d d' : Directory) : Prop :=
  ∀ name, call.path.fileName = some name → Attempts name call.value d d'

/-- Whether success of the call means that the device has the change. -/
def Call.Brings (call : Call) (name : String) (start : Directory) : Prop :=
  call.value ≠ none ∨ start.visible name ≠ none

instance (call : Call) (name : String) (start : Directory) : Decidable (call.Brings name start) :=
  inferInstanceAs (Decidable (_ ∨ _))

def Ensures (call : Call) (start : Directory) (result : Except String Unit) (d : Directory) :
    Prop :=
  ∀ name, call.path.fileName = some name → Succeeds (fun _ d => d.visible name = call.value ∧
    (call.Brings name start → Settled name call.value d)) result d

/-- Every call does what it should beside calls for other files. -/
theorem durable_verified :
    Verified semantics (fun _ => True) Call.code Changes Nothing Relies Guarantees Ensures where
  refl _ d _ := .refl _ d
  trans _ _ _ _ first second plain := (first plain).trans (second plain)
  others name other call d d' differ changes guarantee plain :=
    (guarantee other changes.1).others.antitone (region_disjoint plain changes.2 (Ne.symm differ))
  moved _ _ _ moves := moves.elim
  verified name call start changes := by
    obtain ⟨named, plain⟩ := changes
    have only : ∀ other, call.path.fileName = some other → other = name := by
      intro other same
      exact Option.some_inj.mp (same.symm.trans named)
    have runs : Attempting name call.value call.code (Succeeds fun _ d =>
        d.visible name = call.value ∧ (call.Brings name start → Settled name call.value d))
        start := by
      cases call with
      | write path bytes =>
        refine attempting_mono (write_attempting named plain) fun result d settled => ?_
        cases result with
        | ok _ => exact ⟨settled.visible, fun _ => settled⟩
        | error error => exact trivial
      | remove path =>
        refine attempting_mono (remove_attempting named) fun result d gone => ?_
        cases result with
        | ok _ => exact ⟨gone.1, fun there => gone.2 (there.resolve_left fun some => some rfl)⟩
        | error error => exact trivial
    refine guarded_mono (guarded_weaken runs (fun _ _ relied => relied plain) ?_) ?_
    · intro d d' attempts other same
      exact only other same ▸ attempts
    · intro result d ensured other same
      exact only other same ▸ ensured

abbrev Processes := Pool Op Ans Directory String Call (Except String Unit)

abbrev Event := Happened Directory String Call (Except String Unit)

/-- One call of some process, the death of one, or a power loss. -/
abbrev Step : Processes → Event → Processes → Prop :=
  Pool.Step semantics (fun _ => True) Call.code Changes Nothing Disk.PowerLoss

/-- The values that were attempted for a file at or after the last change that the device
surely has. -/
def possible (name : String) (values : Set (Option Bytes)) : Event → Set (Option Bytes)
  | .began _ call => if call.path.fileName = some name then insert call.value values else values
  | .returned call start (.ok _) =>
      if call.path.fileName = some name ∧ call.Brings name start then {call.value} else values
  | _ => values

/-- The file has one of these values, and will have one after a power loss. -/
structure FileAmong (name : String) (values : Set (Option Bytes)) (d : Directory) : Prop where
  rooted : d.rooted = true
  visible : d.visible name ∈ values
  mayFind : ∀ found, d.MayFind name found → found ∈ values

/-- The same while a call is attempting one of them. -/
structure Among (name : String) (values : Set (Option Bytes)) (pool : Processes) : Prop where
  file : FileAmong name values pool.state
  running : ∀ running, pool.running name = some running → running.call.value ∈ values

section Among

variable {name : String} {values : Set (Option Bytes)} {pool pool' : Processes} {event : Event}
  {d d' : Directory}

theorem FileAmong.spared (file : FileAmong name values d)
    (spares : Disk.Spares (Region name) d d') : FileAmong name values d' where
  rooted := spares.rooted.trans file.rooted
  visible := (spares.visible (mem_region name)).symm ▸ file.visible
  mayFind found may := file.mayFind found (spares.mayFind (mem_region name) may)

theorem FileAmong.attempted {value : Option Bytes} (file : FileAmong name values d)
    (member : value ∈ values) (attempts : Attempts name value d d') : FileAmong name values d' where
  rooted := attempts.others.rooted.trans file.rooted
  visible := by
    rcases attempts.visible with same | new
    · exact same ▸ file.visible
    · exact new ▸ member
  mayFind := by
    intro found may
    rcases attempts.mayFind found may with old | rfl
    · exact file.mayFind found old
    · exact member

theorem lost_found {d d' : Directory} (loss : Disk.PowerLoss d d') (rooted : d.rooted = true) :
    d'.rooted = true ∧ ∀ found, d'.MayFind name found → found = d'.visible name := by
  cases loss with
  | @kept entries image content holds =>
    refine ⟨rfl, fun found may => ?_⟩
    rcases Disk.mayFind_iff.mp may with ⟨unrooted, _⟩ | ⟨held, rfl⟩ | ⟨file, data, held, hold, rfl⟩
    · cases unrooted
    · obtain ⟨after, settled, entry⟩ := held
      rw [image_nil.mp settled] at entry
      exact (congrArg (Option.map content) entry).symm
    · obtain ⟨after, settled, entry⟩ := held
      rw [image_nil.mp settled] at entry
      exact (congrArg some (hold _ rfl)).trans (congrArg (Option.map content) entry).symm
  | gone unrooted =>
    rw [rooted] at unrooted
    cases unrooted

theorem FileAmong.lost (file : FileAmong name values d) (loss : Disk.PowerLoss d d') :
    FileAmong name values d' := by
  obtain ⟨rooted, settled⟩ := @lost_found name d d' loss file.rooted
  have found : d'.visible name ∈ values := file.mayFind _ ⟨d', loss, rfl⟩
  refine ⟨rooted, found, ?_⟩
  intro other may
  rw [settled other may]
  exact found

theorem Settled.fileAmong {value : Option Bytes} (settled : Settled name value d)
    (rooted : d.rooted = true) : FileAmong name {value} d where
  rooted := rooted
  visible := settled.visible
  mayFind := by
    intro found may
    rcases settled.mayFind found may with same | ⟨unrooted, _⟩
    · exact same
    · rw [rooted] at unrooted
      cases unrooted

theorem Among.mono {more : Set (Option Bytes)} (among : Among name values pool)
    (sub : values ⊆ more) : Among name more pool where
  file := ⟨among.file.rooted, sub among.file.visible,
    fun found may => sub (among.file.mayFind found may)⟩
  running running turn := sub (among.running running turn)

/-- One thread goes on in a state where the file has one of the values. -/
theorem Among.update {thread : String} {state : Directory}
    {left : Option (Running Op Ans Directory Call (Except String Unit))}
    (among : Among name values pool) (file : FileAmong name values state)
    (mine : ∀ running, thread = name → left = some running → running.call.value ∈ values) :
    Among name values { state := state, running := Function.update pool.running thread left } := by
  refine ⟨file, fun running turn => ?_⟩
  by_cases same : thread = name
  · subst same
    exact mine running rfl ((Function.update_self thread left pool.running).symm.trans turn)
  · exact among.running running
      ((Function.update_of_ne (Ne.symm same) left pool.running).symm.trans turn)

theorem subset_possible_began {thread : String} {call : Call} :
    values ⊆ possible name values (.began thread call) := by
  simp only [possible]
  split
  · exact Set.subset_insert _ _
  · exact subset_rfl

theorem among_step (plain : IsPlain name) (among : Among name values pool)
    (taken : LawfulStep semantics (fun _ => True) Call.code Changes Nothing Disk.PowerLoss Relies
      Guarantees Ensures pool event pool') : Among name (possible name values event) pool' := by
  obtain ⟨step, lawful, sound⟩ := taken
  have idle : ∀ (thread : String) (running : Running Op Ans Directory Call (Except String Unit)),
      thread = name → none = some running → running.call.value ∈ values := by
    intro _ _ _ none
    cases none
  cases step with
  | @began thread call free allowed =>
    have more := among.mono (@subset_possible_began name values thread call)
    refine more.update more.file fun running same begun => ?_
    cases begun
    simp only [possible, if_pos (same ▸ allowed.1)]
    exact Set.mem_insert _ _
  | @called thread call start op next choice allowed turn =>
    obtain ⟨running, turn', mine, kept⟩ := lawful
    rw [turn] at turn'
    cases turn'
    have member : thread = name → call.value ∈ values := by
      intro same
      exact among.running _ (same ▸ turn)
    refine among.update ?_ fun running same left => ?_
    · by_cases same : thread = name
      · exact among.file.attempted (member same) (kept name (same ▸ mine.1))
      · exact among.file.spared
          ((kept thread mine.1).others.antitone (region_disjoint plain mine.2 (Ne.symm same)))
    · cases left
      exact member same
  | @returned thread call start value turn =>
    obtain ⟨_, thread', last, mine, ensured, relied⟩ := lawful
    have same := among.update among.file (idle thread)
    cases value with
    | error error => exact same
    | ok done =>
      simp only [possible]
      split
      · rename_i settles
        have owner : thread' = name := Option.some_inj.mp (mine.1.symm.trans settles.1)
        have busy : thread = name :=
          Option.some_inj.mp ((sound thread _ turn).1.1.symm.trans settles.1)
        subst owner
        have spares := relied plain
        have settled := (ensured thread' settles.1).2 settles.2
        have rooted : last.rooted = true := spares.rooted.symm.trans among.file.rooted
        refine ⟨(settled.fileAmong rooted).spared spares, fun running left => ?_⟩
        subst busy
        cases (Function.update_self thread none pool.running).symm.trans left
      · exact same
  | @killed thread => exact among.update among.file (idle thread)
  | moved moves => exact moves.elim
  | disaster lost =>
    refine ⟨among.file.lost lost, fun running turn => ?_⟩
    cases turn

end Among

/-- In every interleaving of calls for the files of one directory, with processes killed at any
call and power lost at any time, a power loss leaves of a file a value that was attempted at or
after the last change that was acknowledged. -/
theorem files_survive {start : Directory} {name : String} (plain : IsPlain name)
    {values : Set (Option Bytes)} (first : FileAmong name values start) {events : List Event}
    {pool : Processes} (run : Effects.Runs Step { state := start } events pool) :
    FileAmong name (events.foldl (possible name) values) pool.state := by
  have among : Among name (events.foldl (possible name) values) pool := by
    have lawful := (pool_lawful durable_verified run).1
    induction lawful with
    | refl =>
      refine ⟨first, fun running turn => ?_⟩
      cases turn
    | snoc before taken ih =>
      rw [List.foldl_append]
      exact among_step plain (ih (before.mono fun _ _ _ taken => taken.step)) taken
  exact among.file

/-- The calls of a running change attempt nothing else. -/
theorem foldl_possible_called {name thread : String} {values : Set (Option Bytes)}
    {events : List Event} (calls : ∀ event ∈ events, event = .called thread) :
    events.foldl (possible name) values = values := by
  induction events with
  | nil => rfl
  | cons event events ih =>
    rw [List.foldl_cons, calls event List.mem_cons_self]
    exact ih fun other member => calls other (List.mem_cons_of_mem _ member)

namespace Survival

def desired : Path := ⟨["var", "lib", "fwos", "desired.toml"]⟩

def first : Call := .write desired [1]

def second : Call := .write desired [2]

/-- The first write succeeds. -/
def written : Prog (Except String Unit) × Directory :=
  first.code.ahead semantics (List.replicate 7 {}) (Disk.empty [])

/-- The second write comes to the renaming of its temporary file. -/
def renamed : Prog (Except String Unit) × Directory :=
  second.code.ahead semantics (List.replicate 6 {}) written.2

/-- The device has not yet been brought the new name. -/
def lost : Directory :=
  renamed.2.settled renamed.2.stable ⟨[], List.nil_sublist _, rfl⟩
    fun file => (renamed.2.stored file).getD []

end Survival

theorem change_runs {pool : Processes} {name : String} {call : Call}
    (idle : pool.running name = none) (changes : Changes name call) (choices : List Choice) :
    ∃ events pool', Effects.Runs Step pool ([.began name call] ++ events) pool' ∧
      (∀ event ∈ events, event = .called name) ∧
      pool'.state = (call.code.ahead semantics choices pool.state).2 ∧
      pool'.running name =
        some ⟨call, pool.state, (call.code.ahead semantics choices pool.state).1⟩ := by
  let begun : Processes := { pool with
    running := Function.update pool.running name (some ⟨call, pool.state, call.code⟩) }
  have begins : Step pool (.began name call) begun := .began idle changes
  have turn : begun.running name = some ⟨call, pool.state, call.code⟩ := Function.update_self ..
  obtain ⟨events, pool', run, calls, state, rest⟩ :=
    runs_alone choices (fun _ _ => trivial) turn
  exact ⟨events, pool', (Effects.Runs.single begins).trans run, calls, state, rest⟩

open Survival in
/-- A power loss after an acknowledged write and within the next one. -/
theorem files_survive_lost :
    renamed.2.visible "desired.toml" = some [2] ∧ lost.visible "desired.toml" = some [1] ∧
      FileAmong "desired.toml" {some [2], some [1]} lost := by
  have fresh : FileAmong "desired.toml" {none} (Disk.empty []) :=
    ⟨rfl, rfl, fun _ may => Disk.mayFind_empty may⟩
  obtain ⟨calls, pool, run, called, state, turn⟩ :=
    @change_runs { state := Disk.empty [] } "desired.toml" first rfl ⟨rfl, by decide⟩
      (List.replicate 7 {})
  have finished : written.1 = .pure (.ok ()) :=
    Program.result?_eq_some.mp (by decide +kernel)
  rw [show first.code.ahead semantics (List.replicate 7 {}) (Disk.empty []) = written from rfl,
    finished] at turn
  let returned : Processes :=
    { pool with running := Function.update pool.running "desired.toml" none }
  have acknowledged : Step pool (.returned first (Disk.empty []) (.ok ())) returned :=
    .returned turn
  have idle : returned.running "desired.toml" = none :=
    Function.update_self "desired.toml" none pool.running
  obtain ⟨calls', pool', run', called', state', -⟩ :=
    @change_runs returned "desired.toml" second idle ⟨rfl, by decide⟩ (List.replicate 6 {})
  have loss : Disk.PowerLoss pool'.state lost := by
    rw [state', state]
    refine .kept _ fun file data stored => ?_
    rw [show renamed.2.stored file = some data from stored, Option.getD_some]
  have survives := files_survive (by decide) fresh
    (((run.snoc acknowledged).trans run').snoc (.disaster loss))
  have values : (([.began "desired.toml" first] ++ calls ++
      [.returned first (Disk.empty []) (.ok ())] ++
      ([.began "desired.toml" second] ++ calls') ++ [.disaster] : List Event)).foldl
        (possible "desired.toml") {none} = {some [2], some [1]} := by
    simp only [List.foldl_append, foldl_possible_called called, foldl_possible_called called']
    rfl
  rw [values] at survives
  exact ⟨by decide +kernel, by decide +kernel, survives⟩

/-! ## netd's operations on a file -/

section Netd

variable {file : File} {content : Content file} {w : World} {encode : Content file → Bytes}
  {name : String} {value : Option Bytes} {d d' : Directory} {path : Path}

/-- The directory holds netd's file. -/
def Shows (encode : Content file → Bytes) (name : String) (w : World) (d : Directory) : Prop :=
  d.visible name = (w.get file).map encode

theorem get_set {stored : Option (Content file)} : (w.set file stored).get file = stored := by
  cases file <;> cases stored <;> rfl

theorem shows_set {stored : Option (Content file)} (visible : d.visible name = stored.map encode) :
    Shows encode name (w.set file stored) d := by
  rw [Shows, get_set]
  exact visible

/-- netd's own removal. -/
theorem run_remove {choice : Fwos.Choice} :
    (durableRestore file none).run.run Fwos.semantics [choice] w =
      (fun answer => Outcome.done answer.1 answer.2 [])
        (if (w.get file).isSome then effect choice.fault w (w.set file none)
          else (.ok (), w)) := rfl

/-- A call that runs alone leaves what was there or the value. -/
theorem visible_attempts (h : Relation.ReflTransGen (Attempts name value) d d') :
    d'.visible name = d.visible name ∨ d'.visible name = value := by
  induction h with
  | refl => exact .inl rfl
  | tail _ last ih =>
    rcases last.visible with same | new
    · rw [same]
      exact ih
    · exact .inr new

theorem attempting_alone {program : Prog (Except String Unit)}
    {Q : Except String Unit → Directory → Prop} (h : Attempting name value program Q d)
    (choices : List Choice) :
    let outcome := program.run semantics choices d
    (outcome.state.visible name = d.visible name ∨ outcome.state.visible name = value) ∧
      ∀ result, outcome.value? = some result → Q result outcome.state := by
  intro outcome
  have alone := @guarded_run _ _ _ _ _ _ _ _ _ d program Q h (fun s => .refl _ s) choices
    fun _ _ => trivial
  exact ⟨visible_attempts alone.1, alone.2⟩

/-- A failure is one before or one after the effect, as the directory shows. -/
theorem effect_error {stored : Option (Content file)} (error : String)
    (shows : Shows encode name w d)
    (visible : d'.visible name = d.visible name ∨ d'.visible name = stored.map encode) :
    ∃ fault : Fault, (effect (some fault) w (w.set file stored)).1 = .error error ∧
      Shows encode name (effect (some fault) w (w.set file stored)).2 d' := by
  rcases visible with same | new
  · exact ⟨.before error, rfl, same.trans shows⟩
  · exact ⟨.after error, rfl, shows_set new⟩

end Netd

/-- netd's operations on a file are what a directory does: every result of `durable::write` and
`durable::remove` there is one that netd's own operation may have, and the directory then has the
file as this operation leaves it. Where the process is killed, the directory has the file as it was
or as it was to be. -/
theorem durable_refines {file : File} {encode : Content file → Bytes} {name : String}
    (plain : IsPlain name) {path : Path} (named : path.fileName = some name) {w : World}
    {d : Directory} (shows : Shows encode name w d) (stored : Option (Content file))
    (choices : List Choice) :
    match (restore path (stored.map encode)).run.run semantics choices d with
    | .done result d' _ => ∃ choice w', Shows encode name w' d' ∧
        (durableRestore file stored).run.run Fwos.semantics [choice] w = .done result w' []
    | .crashed d' => Shows encode name w d' ∨ Shows encode name (w.set file stored) d' := by
  have killed : ∀ {d' : Directory}, d'.visible name = d.visible name ∨
      d'.visible name = stored.map encode →
        Shows encode name w d' ∨ Shows encode name (w.set file stored) d' := by
    intro d' visible
    rcases visible with same | new
    · exact .inl (same.trans shows)
    · exact .inr (shows_set new)
  cases stored with
  | some content =>
    obtain ⟨visible, done⟩ :=
      attempting_alone (@write_attempting name d (encode content) path named plain) choices
    show match (Durable.write path (encode content)).run.run semantics choices d with
      | .done result d' _ => _
      | .crashed d' => _
    cases outcome : (Durable.write path (encode content)).run.run semantics choices d with
    | crashed d' =>
      rw [outcome] at visible
      exact killed visible
    | done result d' unused =>
      rw [outcome] at visible done
      cases result with
      | ok _ =>
        exact ⟨{}, w.set file (some content), shows_set (done _ rfl).visible, rfl⟩
      | error error =>
        obtain ⟨fault, failed, shown⟩ :=
          @effect_error file w encode name d d' (some content) error shows visible
        exact ⟨{ fault := some fault }, _, shown, congrArg (Outcome.done · _ []) failed⟩
  | none =>
    -- A removal succeeds where there is no file, and does nothing then.
    obtain ⟨visible, done⟩ := attempting_alone (remove_attempting (d := d) named) choices
    show match (Durable.remove path).run.run semantics choices d with
      | .done result d' _ => _
      | .crashed d' => _
    cases outcome : (Durable.remove path).run.run semantics choices d with
    | crashed d' =>
      rw [outcome] at visible
      exact killed visible
    | done result d' unused =>
      rw [outcome] at visible done
      have removed := done _ rfl
      cases there : w.get file with
      | none =>
        have absent : d.visible name = none := by
          rw [shows, there]
          rfl
        cases result with
        | ok _ =>
          refine ⟨{}, w, ?_, ?_⟩
          · rw [Shows, there]
            exact removed.1
          · rw [run_remove, there]
            rfl
        | error error => exact absurd absent removed
      | some content =>
        have present : (w.get file).isSome = true := by rw [there]; rfl
        cases result with
        | ok _ =>
          refine ⟨{}, w.set file none, shows_set removed.1, ?_⟩
          rw [run_remove, if_pos present]
          rfl
        | error error =>
          obtain ⟨fault, failed, shown⟩ :=
            @effect_error file w encode name d d' none error shows visible
          refine ⟨{ fault := some fault }, _, shown, ?_⟩
          rw [run_remove, if_pos present]
          exact congrArg (Outcome.done · _ []) failed

/-- The Bootstrap marker of a new appliance. -/
theorem durable_refines_marker :
    match (restore ⟨["var", "lib", "fwos", "bootstrapped"]⟩ (some [111, 107, 10])).run.run semantics
        (List.replicate 8 {}) (Disk.empty []) with
    | .done result d' _ => ∃ choice w',
        @Shows .bootstrapped (fun _ => [111, 107, 10]) "bootstrapped" w' d' ∧
          (durableRestore .bootstrapped (some ())).run.run Fwos.semantics [choice] {} =
            .done result w' []
    | .crashed d' => @Shows .bootstrapped (fun _ => [111, 107, 10]) "bootstrapped" {} d' ∨
        @Shows .bootstrapped (fun _ => [111, 107, 10]) "bootstrapped"
          (World.set {} .bootstrapped (some ())) d' :=
  @durable_refines .bootstrapped (fun _ => [111, 107, 10]) "bootstrapped" (by decide)
    ⟨["var", "lib", "fwos", "bootstrapped"]⟩ rfl {} (Disk.empty []) rfl (some ())
    (List.replicate 8 {})

end Fwos.Durable
