import Mathlib.Data.Set.Insert
import Mathlib.Logic.Function.Basic

/-!
# A directory across power losses

A `Disk` is one directory as its processes see it and as the device may hold it.
Changes of the directory reach the device when it is synchronised. Before that a
power loss keeps any selection of them, in their order, each whole. The device
surely holds the data of a file only as of its last synchronisation.

* `create`, `fill`, `syncFile`, `rename`, `unlink`, `syncDirectory`: the
  operations.
* `Disk.PowerLoss`: the disks a power loss may leave, and `MayFind`: what it may
  leave under a name.
* `Spares`: a change leaves these names as they were, for processes and for a
  power loss, and `Spares.mayFind`.
* `spares_create`, `spares_rename`, ...: the names that each operation spares.
-/

namespace Storage

variable {Name Data : Type} [DecidableEq Name]

/-! ## Updates of a directory -/

abbrev Entries (Name : Type) := Name → Option Nat

/-- One update of a directory. It reaches the device whole or not at all. -/
inductive Update (Name : Type) where
  | link (name : Name) (file : Nat)
  | unlink (name : Name)
  | move (source target : Name) (file : Nat)

/-- What an update does with a name, if anything. -/
def Update.sets (name : Name) : Update Name → Option (Option Nat)
  | .link linked file => if name = linked then some (some file) else none
  | .unlink gone => if name = gone then some none else none
  | .move source target file =>
      if name = target then some (some file) else if name = source then some none else none

def Update.apply (entries : Entries Name) (update : Update Name) : Entries Name :=
  fun name => (update.sets name).getD (entries name)

theorem apply_none {entries : Entries Name} {update : Update Name} {name : Name}
    (h : update.sets name = none) : update.apply entries name = entries name := by
  rw [Update.apply, h, Option.getD_none]

theorem apply_some {entries : Entries Name} {update : Update Name} {name : Name}
    {entry : Option Nat} (h : update.sets name = some entry) :
    update.apply entries name = entry := by
  rw [Update.apply, h, Option.getD_some]

def replay (updates : List (Update Name)) (entries : Entries Name) : Entries Name :=
  updates.foldl Update.apply entries

theorem replay_append {updates : List (Update Name)} {update : Update Name}
    {entries : Entries Name} :
    replay (updates ++ [update]) entries = update.apply (replay updates entries) := by
  simp [replay, List.foldl_append]

/-- The entries after a selection of the updates. -/
def Image (stable : Entries Name) (unsynced : List (Update Name)) (entries : Entries Name) : Prop :=
  ∃ kept : List (Update Name), kept.Sublist unsynced ∧ replay kept stable = entries

theorem image_all {stable : Entries Name} {unsynced : List (Update Name)} :
    Image stable unsynced (replay unsynced stable) :=
  ⟨unsynced, List.Sublist.refl _, rfl⟩

theorem image_nil {stable entries : Entries Name} : Image stable [] entries ↔ entries = stable := by
  constructor
  · intro ⟨kept, selected, replayed⟩
    rw [List.sublist_nil.mp selected] at replayed
    exact replayed.symm
  · intro same
    exact ⟨[], List.Sublist.refl _, same.symm⟩

/-- One more update is lost or comes last. -/
theorem image_push {stable entries : Entries Name} {unsynced : List (Update Name)}
    {update : Update Name} :
    Image stable (unsynced ++ [update]) entries ↔
      Image stable unsynced entries ∨
        ∃ before, Image stable unsynced before ∧ update.apply before = entries := by
  constructor
  · intro ⟨kept, selected, replayed⟩
    obtain ⟨first, last, rfl, ofFirst, ofLast⟩ := List.sublist_append_iff.mp selected
    cases ofLast with
    | cons _ none =>
      rw [List.sublist_nil.mp none, List.append_nil] at replayed
      exact .inl ⟨first, ofFirst, replayed⟩
    | cons_cons _ none =>
      rw [List.sublist_nil.mp none, replay_append] at replayed
      exact .inr ⟨_, ⟨first, ofFirst, rfl⟩, replayed⟩
  · intro image
    rcases image with ⟨kept, selected, replayed⟩ | ⟨_, ⟨kept, selected, rfl⟩, replayed⟩
    · exact ⟨kept, selected.trans (List.sublist_append_left _ _), replayed⟩
    · exact ⟨kept ++ [update], selected.append (List.Sublist.refl _), by rwa [replay_append]⟩

/-! ## Disks -/

structure Disk (Name Data : Type) [DecidableEq Name] where
  /-- Whether the device surely holds the directory itself. -/
  rooted : Bool
  /-- The entries on the device, and the updates that may not be there yet. -/
  stable : Entries Name
  unsynced : List (Update Name)
  /-- The data of each file as processes read it. -/
  content : Nat → Data
  /-- The data that the device surely holds of a file. -/
  stored : Nat → Option Data
  next : Nat
  fresh : ∀ entries, Image stable unsynced entries → ∀ name file,
    entries name = some file → file < next

namespace Disk

/-- A directory on the device with nothing in it. -/
def empty (data : Data) : Disk Name Data where
  rooted := true
  stable _ := none
  unsynced := []
  content _ := data
  stored _ := none
  next := 0
  fresh := by
    intro entries image name file h
    rw [image_nil.mp image] at h
    cases h

/-- The directory as processes see it. -/
def entries (d : Disk Name Data) : Entries Name := replay d.unsynced d.stable

def visible (d : Disk Name Data) (name : Name) : Option Data := (d.entries name).map d.content

theorem entries_lt {d : Disk Name Data} {name : Name} {file : Nat}
    (h : d.entries name = some file) : file < d.next :=
  d.fresh _ image_all name file h

/-- One more update, of files that exist. -/
def push (d : Disk Name Data) (update : Update Name)
    (exist : ∀ name file, update.sets name = some (some file) → file < d.next) : Disk Name Data :=
  { d with
    unsynced := d.unsynced ++ [update]
    fresh := by
      intro entries image name file h
      rcases image_push.mp image with image | ⟨before, earlier, rfl⟩
      · exact d.fresh entries image name file h
      · cases set : update.sets name with
        | none => exact d.fresh before earlier name file ((apply_none set).symm.trans h)
        | some entry =>
          exact exist name file (set.trans (congrArg some ((apply_some set).symm.trans h))) }

/-- Room for one more file, with the data it starts from. -/
def allocate (d : Disk Name Data) (data : Data) : Disk Name Data :=
  { d with
    content := Function.update d.content d.next data
    stored := Function.update d.stored d.next none
    next := d.next + 1
    fresh := fun entries image name file h =>
      Nat.lt_succ_of_lt (d.fresh entries image name file h) }

def create (d : Disk Name Data) (name : Name) (data : Data) : Disk Name Data :=
  (d.allocate data).push (.link name d.next) (by
    intro other file set
    simp only [Update.sets] at set
    split at set
    · cases set
      exact Nat.lt_succ_self d.next
    · cases set)

/-- New data of a file, of which the device holds anything until it is synchronised. -/
def fill (d : Disk Name Data) (file : Nat) (data : Data) : Disk Name Data :=
  { d with
    content := Function.update d.content file data
    stored := Function.update d.stored file none }

def syncFile (d : Disk Name Data) (file : Nat) : Disk Name Data :=
  { d with stored := Function.update d.stored file (some (d.content file)) }

theorem move_known {d : Disk Name Data} {source target : Name} {file : Nat}
    (h : d.entries source = some file) (name : Name) (moved : Nat)
    (set : (Update.move source target file).sets name = some (some moved)) : moved < d.next := by
  simp only [Update.sets] at set
  split at set
  · cases set
    exact entries_lt h
  · split at set <;> cases set

def rename (d : Disk Name Data) (source target : Name) : Disk Name Data :=
  match h : d.entries source with
  | none => d
  | some file => d.push (.move source target file) (move_known h)

def unlink (d : Disk Name Data) (name : Name) : Disk Name Data :=
  d.push (.unlink name) (by
    intro other file set
    simp only [Update.sets] at set
    split at set <;> cases set)

def syncDirectory (d : Disk Name Data) : Disk Name Data :=
  { d with
    stable := d.entries
    unsynced := []
    fresh := by
      intro entries image name file h
      rw [image_nil.mp image] at h
      exact entries_lt h }

/-! ## What a power loss may leave -/

/-- What some selection of the updates makes of a name. -/
def Held (d : Disk Name Data) (name : Name) (entry : Option Nat) : Prop :=
  ∃ entries, Image d.stable d.unsynced entries ∧ entries name = entry

/-- The directory as a new start finds it. -/
def settled (d : Disk Name Data) (entries : Entries Name)
    (image : Image d.stable d.unsynced entries) (content : Nat → Data) : Disk Name Data where
  rooted := true
  stable := entries
  unsynced := []
  content := content
  stored := fun file => some (content file)
  next := d.next
  fresh := by
    intro after settled name file h
    rw [image_nil.mp settled] at h
    exact d.fresh entries image name file h

/-- A directory that is gone with everything in it. -/
def gone (d : Disk Name Data) : Disk Name Data where
  rooted := false
  stable := fun _ => none
  unsynced := []
  content := d.content
  stored := d.stored
  next := d.next
  fresh := by
    intro after settled name file h
    rw [image_nil.mp settled] at h
    cases h

inductive PowerLoss (d : Disk Name Data) : Disk Name Data → Prop where
  | kept {entries : Entries Name} (image : Image d.stable d.unsynced entries) {content : Nat → Data}
      (holds : ∀ file data, d.stored file = some data → content file = data) :
      PowerLoss d (d.settled entries image content)
  | gone (unrooted : d.rooted = false) : PowerLoss d d.gone

/-- What a power loss may leave under a name. -/
def MayFind (d : Disk Name Data) (name : Name) (found : Option Data) : Prop :=
  ∃ d', PowerLoss d d' ∧ d'.visible name = found

theorem held_entries {d : Disk Name Data} {name : Name} : d.Held name (d.entries name) :=
  ⟨d.entries, image_all, rfl⟩

theorem held_lt {d : Disk Name Data} {name : Name} {file : Nat} (h : d.Held name (some file)) :
    file < d.next := by
  obtain ⟨entries, image, same⟩ := h
  exact d.fresh entries image name file same

/-- Data that the device may hold of a file. -/
def MayHold (d : Disk Name Data) (file : Nat) (data : Data) : Prop :=
  ∀ stored, d.stored file = some stored → data = stored

theorem mayFind_iff {d : Disk Name Data} {name : Name} {found : Option Data} :
    d.MayFind name found ↔
      (d.rooted = false ∧ found = none) ∨ (d.Held name none ∧ found = none) ∨
        ∃ file data, d.Held name (some file) ∧ d.MayHold file data ∧ found = some data := by
  constructor
  · intro ⟨d', loss, same⟩
    cases loss with
    | @kept entries image content holds =>
      have entry : (d.settled entries image content).entries name = entries name := rfl
      rw [visible, entry] at same
      cases held : entries name with
      | none =>
        rw [held] at same
        exact .inr (.inl ⟨⟨entries, image, held⟩, same.symm⟩)
      | some file =>
        rw [held] at same
        exact .inr (.inr ⟨file, content file, ⟨entries, image, held⟩, holds file, same.symm⟩)
    | gone unrooted => exact .inl ⟨unrooted, same.symm⟩
  · intro may
    rcases may with ⟨unrooted, rfl⟩ | ⟨⟨entries, image, none⟩, rfl⟩ |
      ⟨file, data, ⟨entries, image, held⟩, may, rfl⟩
    · exact ⟨d.gone, .gone unrooted, rfl⟩
    · refine ⟨d.settled entries image fun file => (d.stored file).getD (d.content file),
        .kept image ?_, ?_⟩
      · intro file data stored
        rw [stored, Option.getD_some]
      · exact congrArg (Option.map _) none
    · refine ⟨d.settled entries image fun file => (d.stored file).getD data, .kept image ?_, ?_⟩
      · intro other data stored
        rw [stored, Option.getD_some]
      · show (entries name).map (fun file => (d.stored file).getD data) = some data
        rw [held, Option.map_some]
        cases stored : d.stored file with
        | none => rfl
        | some found => exact congrArg some (may found stored).symm

theorem mayFind_empty {data : Data} {name : Name} {found : Option Data}
    (may : (empty data).MayFind name found) : found = none := by
  rcases mayFind_iff.mp may with ⟨_, none⟩ | ⟨_, none⟩ | ⟨file, _, held, _, _⟩
  · exact none
  · exact none
  · exact absurd (held_lt held) (Nat.not_lt_zero file)

/-! ## Operations on some of the names -/

/-- What a change of other names does to these: nothing that a process or a new start could see. -/
structure Spares (names : Set Name) (d d' : Disk Name Data) : Prop where
  rooted : d'.rooted = d.rooted
  next : d.next ≤ d'.next
  entries : ∀ name ∈ names, d'.entries name = d.entries name
  held : ∀ name ∈ names, ∀ entry, d'.Held name entry → d.Held name entry
  content : ∀ name ∈ names, ∀ file, d'.Held name (some file) → d'.content file = d.content file
  stored : ∀ name ∈ names, ∀ file, d'.Held name (some file) → ∀ data,
    d.stored file = some data → d'.stored file = some data
  /-- The other names do not take over a file of these. -/
  apart : ∀ other ∉ names, ∀ file < d.next, d'.Held other (some file) →
    ∃ name ∉ names, d.Held name (some file)

namespace Spares

variable {names : Set Name} {d d' d'' : Disk Name Data}

theorem refl (names : Set Name) (d : Disk Name Data) : Spares names d d where
  rooted := rfl
  next := le_refl _
  entries _ _ := rfl
  held _ _ _ h := h
  content _ _ _ _ := rfl
  stored _ _ _ _ _ h := h
  apart other outside _ _ h := ⟨other, outside, h⟩

theorem trans (first : Spares names d d') (second : Spares names d' d'') : Spares names d d'' where
  rooted := second.rooted.trans first.rooted
  next := first.next.trans second.next
  entries name inside := (second.entries name inside).trans (first.entries name inside)
  held name inside entry h := first.held name inside entry (second.held name inside entry h)
  content name inside file h :=
    (second.content name inside file h).trans
      (first.content name inside file (second.held name inside _ h))
  stored name inside file h data stored :=
    second.stored name inside file h data
      (first.stored name inside file (second.held name inside _ h) data stored)
  apart other outside file old h := by
    obtain ⟨name, away, held⟩ := second.apart other outside file (old.trans_le first.next) h
    exact first.apart name away file old held

/-- A change that spares these names spares any of them. -/
theorem antitone (spares : Spares names d d') {fewer : Set Name} (fewer_sub : fewer ⊆ names) :
    Spares fewer d d' where
  rooted := spares.rooted
  next := spares.next
  entries name inside := spares.entries name (fewer_sub inside)
  held name inside := spares.held name (fewer_sub inside)
  content name inside := spares.content name (fewer_sub inside)
  stored name inside := spares.stored name (fewer_sub inside)
  apart other outside file old h := by
    by_cases inside : other ∈ names
    · exact ⟨other, outside, spares.held other inside _ h⟩
    · obtain ⟨name, away, held⟩ := spares.apart other inside file old h
      exact ⟨name, fun member => away (fewer_sub member), held⟩

theorem visible (spares : Spares names d d') {name : Name} (inside : name ∈ names) :
    d'.visible name = d.visible name := by
  have same := spares.entries name inside
  unfold Disk.visible
  rw [same]
  cases entry : d.entries name with
  | none => rfl
  | some file =>
    have held : d'.Held name (some file) := (same.trans entry) ▸ held_entries
    exact congrArg some (spares.content name inside file held)

theorem mayFind (spares : Spares names d d') {name : Name} (inside : name ∈ names)
    {found : Option Data} (may : d'.MayFind name found) : d.MayFind name found := by
  rcases mayFind_iff.mp may with ⟨unrooted, none⟩ | ⟨held, none⟩ | ⟨file, data, held, hold, rfl⟩
  · exact mayFind_iff.mpr (.inl ⟨spares.rooted ▸ unrooted, none⟩)
  · exact mayFind_iff.mpr (.inr (.inl ⟨spares.held name inside _ held, none⟩))
  · refine mayFind_iff.mpr (.inr (.inr ⟨file, data, spares.held name inside _ held, ?_, rfl⟩))
    intro stored known
    exact hold stored (spares.stored name inside file held stored known)

end Spares

/-! ## The operations -/

section Operations

variable {d d' : Disk Name Data} {names : Set Name} {name source target : Name} {file : Nat}
  {update : Update Name}

theorem entries_pushed (stable : d'.stable = d.stable)
    (unsynced : d'.unsynced = d.unsynced ++ [update]) : d'.entries = update.apply d.entries := by
  unfold entries
  rw [stable, unsynced, replay_append]

theorem held_pushed {entry : Option Nat} (h : d'.Held name entry) (stable : d'.stable = d.stable)
    (unsynced : d'.unsynced = d.unsynced ++ [update]) :
    update.sets name = some entry ∨ d.Held name entry := by
  obtain ⟨entries, image, same⟩ := h
  rw [stable, unsynced] at image
  rcases image_push.mp image with image | ⟨before, earlier, rfl⟩
  · exact .inr ⟨entries, image, same⟩
  · cases set : update.sets name with
    | none => exact .inr ⟨before, earlier, (apply_none set).symm.trans same⟩
    | some taken => exact .inl (congrArg some ((apply_some set).symm.trans same))

theorem entries_push {exist : ∀ name file, update.sets name = some (some file) → file < d.next} :
    (d.push update exist).entries = update.apply d.entries :=
  entries_pushed (d := d) rfl rfl

theorem held_push {exist : ∀ name file, update.sets name = some (some file) → file < d.next}
    {entry : Option Nat} (h : (d.push update exist).Held name entry) :
    update.sets name = some entry ∨ d.Held name entry :=
  held_pushed (d := d) h rfl rfl

theorem entries_create {data : Data} :
    (d.create name data).entries = (Update.link name d.next).apply d.entries :=
  entries_pushed (d := d) rfl rfl

theorem held_create {data : Data} {created : Name} {entry : Option Nat}
    (h : (d.create created data).Held name entry) :
    (Update.link created d.next).sets name = some entry ∨ d.Held name entry :=
  held_pushed (d := d) h rfl rfl

/-- One more update spares the names that it does not set, if its files are new or already
were somewhere else. -/
theorem spares_pushed (rooted : d'.rooted = d.rooted) (next : d.next ≤ d'.next)
    (stable : d'.stable = d.stable) (unsynced : d'.unsynced = d.unsynced ++ [update])
    (content : ∀ file < d.next, d'.content file = d.content file)
    (stored : ∀ file < d.next, d'.stored file = d.stored file)
    (outside : ∀ name ∈ names, update.sets name = none)
    (files : ∀ name file, update.sets name = some (some file) → file < d.next →
      ∃ other ∉ names, d.Held other (some file)) : Spares names d d' := by
  have held : ∀ name ∈ names, ∀ entry, d'.Held name entry → d.Held name entry := by
    intro name inside entry h
    rcases held_pushed h stable unsynced with set | h
    · rw [outside name inside] at set
      cases set
    · exact h
  refine ⟨rooted, next, ?_, held, ?_, ?_, ?_⟩
  · intro name inside
    rw [entries_pushed stable unsynced, apply_none (outside name inside)]
  · intro name inside file h
    exact content file (held_lt (held name inside _ h))
  · intro name inside file h data known
    rw [stored file (held_lt (held name inside _ h))]
    exact known
  · intro other away file old h
    rcases held_pushed h stable unsynced with set | h
    · exact files other file set old
    · exact ⟨other, away, h⟩

theorem spares_create {data : Data} (outside : name ∉ names) :
    Spares names d (d.create name data) := by
  refine spares_pushed rfl (Nat.le_succ _) rfl rfl ?_ ?_ ?_ ?_
  · intro file old
    exact Function.update_of_ne (Nat.ne_of_lt old) _ _
  · intro file old
    exact Function.update_of_ne (Nat.ne_of_lt old) _ _
  · intro other inside
    have differs : other ≠ name := fun same => outside (same ▸ inside)
    exact if_neg differs
  · intro other file set old
    simp only [Update.sets] at set
    split at set
    · cases set
      exact absurd old (Nat.lt_irrefl _)
    · cases set

theorem spares_unlink (outside : name ∉ names) : Spares names d (d.unlink name) := by
  refine spares_pushed rfl (Nat.le_refl _) rfl rfl (fun _ _ => rfl) (fun _ _ => rfl) ?_ ?_
  · intro other inside
    have differs : other ≠ name := fun same => outside (same ▸ inside)
    exact if_neg differs
  · intro other file set
    simp only [Update.sets] at set
    split at set <;> cases set

theorem rename_eq (h : d.entries source = some file) :
    d.rename source target = d.push (.move source target file) (move_known h) := by
  unfold rename
  split
  · rename_i none
    rw [none] at h
    cases h
  · rename_i found same
    rw [same] at h
    cases h
    rfl

theorem spares_rename (fromOutside : source ∉ names) (toOutside : target ∉ names) :
    Spares names d (d.rename source target) := by
  cases entry : d.entries source with
  | none =>
    have same : d.rename source target = d := by
      unfold rename
      split
      · rfl
      · rename_i found
        rw [found] at entry
        cases entry
    rw [same]
    exact .refl names d
  | some file =>
    rw [rename_eq entry]
    refine spares_pushed rfl (Nat.le_refl _) rfl rfl (fun _ _ => rfl) (fun _ _ => rfl) ?_ ?_
    · intro other inside
      have notTarget : other ≠ target := fun same => toOutside (same ▸ inside)
      have notSource : other ≠ source := fun same => fromOutside (same ▸ inside)
      simp only [Update.sets, if_neg notTarget, if_neg notSource]
    · intro other moved set _
      simp only [Update.sets] at set
      split at set
      · cases set
        exact ⟨source, fromOutside, entry ▸ held_entries⟩
      · split at set <;> cases set

/-- A change of the data of a file that none of the names has. -/
theorem spares_fill {data : Data} (elsewhere : ∀ name ∈ names, ¬d.Held name (some file)) :
    Spares names d (d.fill file data) where
  rooted := rfl
  next := le_refl _
  entries _ _ := rfl
  held _ _ _ h := h
  content name inside other h := by
    have differs : other ≠ file := fun same => elsewhere name inside (same ▸ h)
    exact Function.update_of_ne differs _ _
  stored name inside other h data known := by
    have differs : other ≠ file := fun same => elsewhere name inside (same ▸ h)
    exact (Function.update_of_ne differs _ _).trans known
  apart other outside _ _ h := ⟨other, outside, h⟩

theorem spares_syncFile (elsewhere : ∀ name ∈ names, ¬d.Held name (some file)) :
    Spares names d (d.syncFile file) where
  rooted := rfl
  next := le_refl _
  entries _ _ := rfl
  held _ _ _ h := h
  content _ _ _ _ := rfl
  stored name inside other h data known := by
    have differs : other ≠ file := fun same => elsewhere name inside (same ▸ h)
    exact (Function.update_of_ne differs _ _).trans known
  apart other outside _ _ h := ⟨other, outside, h⟩

theorem held_synced {entry : Option Nat} (h : d.syncDirectory.Held name entry) :
    d.entries name = entry := by
  obtain ⟨entries, image, same⟩ := h
  rw [image_nil.mp image] at same
  exact same

theorem spares_syncDirectory : Spares names d d.syncDirectory where
  rooted := rfl
  next := le_refl _
  entries _ _ := rfl
  held _ _ _ h := held_synced h ▸ held_entries
  content _ _ _ _ := rfl
  stored _ _ _ _ _ known := known
  apart other outside _ _ h := ⟨other, outside, held_synced h ▸ held_entries⟩

end Operations

end Disk

end Storage
