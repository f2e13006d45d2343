import Fwos.Netd.Requests

/-!
# Specifications over the core

What a program of netd does to the files and the memory that decide the Accepted
network, whatever the rest of the world is and whatever fails.

* `Spec`: from a core, the program can only crash in cores that satisfy `I` and
  only finish in cores that satisfy `Q`. `Steps` is the same for a program that
  may end with an error.
* `Silent` operations leave the core as it is.
-/

namespace Fwos

open Effects

variable {α β ε : Type}

/-! ## Files of the core -/

def Core.set (c : Core) : (file : File) → Option (Content file) → Core
  | .desired, content => { c with desired := content }
  | .applyOperation, some content =>
      { c with applyOperation := some content, journalBoot := c.boot }
  | .applyOperation, none => { c with applyOperation := none }
  | .applyPrevious, content => { c with applyPrevious := content }
  | .applyAttribution, content => { c with applyAttribution := content }
  | .previousAccepted, content => { c with previousAccepted := content }
  | .preUpdateAccepted, content => { c with preUpdateAccepted := content }
  | .bootstrapped, content => { c with bootstrapped := content.isSome }
  | .restorePreUpdate, content => { c with restorePreUpdate := content.isSome }
  | _, _ => c

theorem toCore_set {w : World} {file : File} {content : Option (Content file)} :
    (w.set file content).toCore = w.toCore.set file content := by
  cases file <;> cases content <;> rfl

/-- The content of a file of the core. -/
def Core.get (c : Core) : (file : File) → Option (Content file)
  | .desired => c.desired
  | .applyOperation => c.applyOperation
  | .applyPrevious => c.applyPrevious
  | .applyAttribution => c.applyAttribution
  | .previousAccepted => c.previousAccepted
  | .preUpdateAccepted => c.preUpdateAccepted
  | .bootstrapped => marker c.bootstrapped
  | .restorePreUpdate => marker c.restorePreUpdate
  | _ => none

def File.inCore : File → Bool
  | .desired | .applyOperation | .applyPrevious | .applyAttribution | .previousAccepted
  | .preUpdateAccepted | .bootstrapped | .restorePreUpdate => true
  | _ => false

theorem set_none {c : Core} {file : File} (h : c.get file = none) : c.set file none = c := by
  cases c
  cases file <;> simp_all [Core.get, Core.set, marker]

theorem get_toCore {w : World} {file : File} (h : file.inCore = true) :
    w.get file = w.toCore.get file := by
  cases file <;> first | rfl | simp [File.inCore] at h

@[simp]
theorem marker_isSome {present : Bool} : (marker present).isSome = present := by
  cases present <;> rfl

/-! ## Programs -/

def Spec (I : Core → Prop) (program : Prog α) (c : Core) (Q : α → Core → Prop) : Prop :=
  ∀ w : World, w.toCore = c →
    program.wp semantics (fun _ => True) (fun w => I w.toCore) (fun value w => Q value w.toCore) w

/-- A result and the core it leaves, by the two ways a program may end. -/
def Ends (E : ε → Core → Prop) (Q : α → Core → Prop) : Except ε α → Core → Prop
  | .ok value, c => Q value c
  | .error error, c => E error c

/-- Programs that may end with an error. -/
def Steps (I : Core → Prop) (E : ε → Core → Prop) (program : ExceptT ε (Program Op Ans) α)
    (c : Core) (Q : α → Core → Prop) : Prop :=
  Spec I program.run c (Ends E Q)

section Rules

variable {I J : Core → Prop} {c : Core}

namespace Spec

variable {Q R : α → Core → Prop}

theorem pure {value : α} (h : Q value c) : Spec I (Pure.pure value : Prog α) c Q := by
  rintro w rfl
  exact h

theorem bind {program : Prog α} {next : α → Prog β} {Q : β → Core → Prop}
    (hp : Spec I program c R) (hn : ∀ value c', R value c' → Spec I (next value) c' Q) :
    Spec I (program >>= next) c Q :=
  fun w hw => wp_seq (hp w hw) fun value w' hr => hn value w'.toCore hr w' rfl

theorem weaken {program : Prog α} (hp : Spec J program c R) (hI : ∀ c, J c → I c)
    (hq : ∀ value c, R value c → Q value c) : Spec I program c Q :=
  fun w hw => wp_weaken (hp w hw) (fun w' => hI w'.toCore) fun value w' => hq value w'.toCore

theorem mono {program : Prog α} (hp : Spec I program c R)
    (hq : ∀ value c, R value c → Q value c) : Spec I program c Q := hp.weaken (fun _ => id) hq

theorem ask {op : Op} {Q : Ans op → Core → Prop} (hI : I c)
    (h : ∀ choice w, w.toCore = c → Q (exec op choice w).1 (exec op choice w).2.toCore) :
    Spec I (Fwos.ask op) c Q := by
  rintro w rfl
  exact ⟨hI, fun choice _ => h choice w rfl⟩

end Spec

namespace Steps

variable {E F : ε → Core → Prop} {Q R : α → Core → Prop}

theorem pure {value : α} (h : Q value c) :
    Steps I E (Pure.pure value : ExceptT ε (Program Op Ans) α) c Q := Spec.pure h

theorem throw {error : ε} (h : E error c) :
    Steps I E (MonadExcept.throw error : ExceptT ε (Program Op Ans) α) c Q := Spec.pure h

theorem bind {program : ExceptT ε (Program Op Ans) α} {next : α → ExceptT ε (Program Op Ans) β}
    {Q : β → Core → Prop} (hp : Steps I E program c R)
    (hn : ∀ value c', R value c' → Steps I E (next value) c' Q) :
    Steps I E (program >>= next) c Q := by
  refine Spec.bind hp fun result c' hr => ?_
  cases result with
  | ok value => exact hn value c' hr
  | error error => exact Spec.pure hr

theorem weaken {program : ExceptT ε (Program Op Ans) α} (hp : Steps J F program c R)
    (hI : ∀ c, J c → I c) (hE : ∀ error c, F error c → E error c)
    (hq : ∀ value c, R value c → Q value c) : Steps I E program c Q := by
  refine Spec.weaken hp hI fun result c' hr => ?_
  cases result with
  | ok value => exact hq value c' hr
  | error error => exact hE error c' hr

theorem mono {program : ExceptT ε (Program Op Ans) α} (hp : Steps I E program c R)
    (hq : ∀ value c, R value c → Q value c) : Steps I E program c Q :=
  hp.weaken (fun _ => id) (fun _ _ => id) hq

/-- A call with its own specification, and what follows it. -/
theorem seq {program : ExceptT ε (Program Op Ans) α} {next : α → ExceptT ε (Program Op Ans) β}
    {Q : β → Core → Prop} (hp : Steps J F program c R) (hI : ∀ c, J c → I c)
    (hE : ∀ error c, F error c → E error c)
    (hn : ∀ value c', R value c' → Steps I E (next value) c' Q) :
    Steps I E (program >>= next) c Q :=
  (hp.weaken hI hE fun _ _ => id).bind hn

theorem lift {program : Prog α} (hp : Spec I program c Q) :
    Steps I E (ExceptT.lift program : ExceptT ε (Program Op Ans) α) c Q := by
  refine Spec.bind hp fun value c' hq => ?_
  exact Spec.pure hq

theorem monadLift {program : Prog α} (hp : Spec I program c Q) :
    Steps I E (liftM program : ExceptT ε (Program Op Ans) α) c Q := lift hp

theorem run {program : ExceptT ε (Program Op Ans) α} (hp : Steps I E program c Q) :
    Spec I program.run c (Ends E Q) := hp

/-- A program whose errors are looked at. -/
theorem outcome {δ : Type} {program : ExceptT ε (Program Op Ans) α} {D : δ → Core → Prop}
    (hp : Steps I E program c Q) :
    Steps I D (ExceptT.lift program.run : ExceptT δ (Program Op Ans) (Except ε α)) c (Ends E Q) :=
  lift hp

end Steps

/-! ## Operations -/

/-- The operation leaves the core as it is. -/
def Silent (op : Op) : Prop := ∀ choice w, (exec op choice w).2.toCore = w.toCore

theorem Spec.silent {program : Prog α} {Q : α → Core → Prop} (hu : Uses Silent program)
    (hI : I c) (h : ∀ value, Q value c) : Spec I program c Q := by
  rintro w rfl
  refine wp_weaken (wp_of_uses (J := fun w' => w'.toCore = w.toCore) hu
    (fun op ho choice _ w' hw' => (ho choice w').trans hw') rfl) ?_ ?_
  · intro w' hw'
    rwa [hw']
  · intro value w' hw'
    rw [hw']
    exact h value

theorem Steps.silent {program : ExceptT ε (Program Op Ans) α} {E : ε → Core → Prop}
    {Q : α → Core → Prop} (hu : Uses Silent program.run) (hI : I c) (hE : ∀ error, E error c)
    (h : ∀ value, Q value c) : Steps I E program c Q := by
  refine Spec.silent hu hI fun result => ?_
  cases result with
  | ok value => exact h value
  | error error => exact hE error

theorem effect_toCore (fault : Option Fault) (w : World) {changed : World} :
    (effect fault w changed).2.toCore = w.toCore ∨
      (effect fault w changed).2.toCore = changed.toCore := by
  unfold effect
  split <;> simp

theorem silent_exists {file : File} : Silent (.exists file) := fun _ _ => rfl

theorem silent_read {file : File} : Silent (.read file) := by
  intro choice w
  simp only [exec]
  split <;> rfl

theorem silent_write {file : File} {content : Content file} (h : file.inCore = false) :
    Silent (.write file content) := by
  intro choice w
  have hset : (w.set file (some content)).toCore = w.toCore := by
    cases file <;> first | rfl | simp [File.inCore] at h
  rcases effect_toCore choice.fault w with he | he
  · exact he
  · exact he.trans hset

theorem silent_remove {file : File} (h : file.inCore = false) : Silent (.remove file) := by
  intro choice w
  have hset : (w.set file none).toCore = w.toCore := by
    cases file <;> first | rfl | simp [File.inCore] at h
  simp only [exec]
  split
  · rcases effect_toCore choice.fault w with he | he
    · exact he
    · exact he.trans hset
  · rfl

theorem silent_nftApply {script : List Nft.Command} : Silent (.nftApply script) := by
  intro choice w
  simp only [exec]
  split
  · exact (effect_toCore choice.nftFault _).elim id fun h => h
  · rfl

theorem silent_nftCheck {script : List Nft.Command} : Silent (.nftCheck script) := by
  intro choice w
  simp only [exec]
  split <;> rfl

theorem silent_loadRecovery : Silent .loadRecovery := fun _ _ => rfl

theorem silent_ifaceCidrs {nic : String} : Silent (.ifaceCidrs nic) := by
  intro choice w
  simp only [exec]
  split <;> rfl

theorem silent_captureFootprint {current proposed : DesiredState} :
    Silent (.captureFootprint current proposed) := fun _ _ => rfl

theorem silent_unixMs : Silent .unixMs := fun _ _ => rfl

theorem silent_randomToken : Silent .randomToken := by
  intro choice w
  simp only [exec]
  split <;> rfl

theorem silent_waitLanServices {generation : String} : Silent (.waitLanServices generation) :=
  fun _ _ => rfl

/-! ## Operations on the core -/

theorem Spec.pathExists {file : File} (h : file.inCore = true) (hI : I c) :
    Spec I (Fwos.pathExists file) c fun present c' => c = c' ∧ present = (c.get file).isSome := by
  refine Spec.ask hI fun choice w hw => ⟨hw.symm, ?_⟩
  subst hw
  exact congrArg Option.isSome (get_toCore h)

/-- A read of a file that is there may fail; one that is not there is told apart. -/
inductive ReadsAs {γ : Type} : Option γ → Except ReadError γ → Prop where
  | absent : ReadsAs none (.error .notFound)
  | content {content : γ} : ReadsAs (some content) (.ok content)
  | failed {content : γ} {error : String} : ReadsAs (some content) (.error (.failed error))

theorem exec_read {file : File} {choice : Choice} {w : World} :
    ReadsAs (w.get file) (exec (.read file) choice w).1 := by
  simp only [exec]
  split
  next h => rw [h]; exact .absent
  next h _ => rw [h]; exact .content
  next h _ => rw [h]; exact .failed

theorem Spec.fsRead {file : File} (h : file.inCore = true) (hI : I c) :
    Spec I (Fwos.fsRead file) c fun answer c' => c = c' ∧ ReadsAs (c.get file) answer := by
  refine Spec.ask hI fun choice w hw => ⟨((silent_read choice w).trans hw).symm, ?_⟩
  subst hw
  rw [← get_toCore h]
  exact exec_read

theorem Steps.durableWrite {file : File} {content : Content file} {E : String → Core → Prop}
    {Q : Unit → Core → Prop} (hI : I c) (hbefore : ∀ error, E error c)
    (hafter : ∀ error, E error (c.set file (some content)))
    (hq : Q () (c.set file (some content))) : Steps I E (Fwos.durableWrite file content) c Q := by
  refine Spec.ask hI fun choice w hw => ?_
  subst hw
  simp only [← toCore_set] at hafter hq
  simp only [exec, effect]
  rcases choice.fault with _ | (_ | _)
  · exact hq
  · exact hbefore _
  · exact hafter _

theorem Steps.durableRemove {file : File} {E : String → Core → Prop}
    {Q : Unit → Core → Prop} (hc : file.inCore = true) (hI : I c) (hbefore : ∀ error, E error c)
    (hafter : ∀ error, E error (c.set file none))
    (hq : Q () (c.set file none)) : Steps I E (Fwos.durableRemove file) c Q := by
  refine Spec.ask hI fun choice w hw => ?_
  subst hw
  simp only [exec]
  cases hg : w.get file with
  | some content =>
    simp only [← toCore_set] at hafter hq
    simp only [Option.isSome_some, if_true, effect]
    rcases choice.fault with _ | (_ | _)
    · exact hq
    · exact hbefore _
    · exact hafter _
  | none =>
    rw [get_toCore hc] at hg
    rw [set_none hg] at hq
    exact hq

theorem Steps.durableRestore {file : File} {content : Option (Content file)}
    {E : String → Core → Prop} {Q : Unit → Core → Prop} (hc : file.inCore = true) (hI : I c)
    (hbefore : ∀ error, E error c) (hafter : ∀ error, E error (c.set file content))
    (hq : Q () (c.set file content)) : Steps I E (Fwos.durableRestore file content) c Q := by
  cases content with
  | some content => exact Steps.durableWrite hI hbefore hafter hq
  | none => exact Steps.durableRemove hc hI hbefore hafter hq

theorem Spec.storeRecovery {required : Bool} {Q : Unit → Core → Prop} (hI : I c)
    (hq : Q () { c with recoveryRequired := required }) :
    Spec I (Fwos.ask (.storeRecovery required)) c Q := by
  refine Spec.ask hI fun choice w hw => ?_
  subst hw
  exact hq

theorem Spec.loadRecovery (hI : I c) :
    Spec I (Fwos.ask .loadRecovery) c fun required c' => c = c' ∧ required = c.recoveryRequired := by
  refine Spec.ask hI fun choice w hw => ?_
  subst hw
  exact ⟨rfl, rfl⟩

theorem Spec.captureIpv4 (hI : I c) :
    Spec I (Fwos.ask .captureIpv4) c fun live c' => c = c' ∧ live = c.live := by
  refine Spec.ask hI fun choice w hw => ?_
  subst hw
  exact ⟨rfl, rfl⟩

theorem Steps.network {task : Task} {E : String → Core → Prop} {Q : Unit → Core → Prop}
    (hI : I c) (hE : ∀ error live, E error { c with live := live })
    (hq : ∀ live, Q () { c with live := live }) : Steps I E (Fwos.network task) c Q := by
  refine Spec.ask hI fun choice w hw => ?_
  subst hw
  simp only [exec, Choice.result]
  cases choice.fault with
  | none => exact hq _
  | some fault => exact hE _ _

theorem Spec.removeTentativeState {current proposed : DesiredState}
    {Q : List String → Core → Prop} (hI : I c)
    (hq : ∀ failures live, Q failures { c with live := live }) :
    Spec I (Fwos.ask (.removeTentativeState current proposed)) c Q := by
  refine Spec.ask hI fun choice w hw => ?_
  subst hw
  exact hq _ _

theorem Steps.bootTimeNs {E : String → Core → Prop} {Q : Nat → Core → Prop} (hI : I c)
    (hE : ∀ error now, c.clock ≤ now → E error { c with clock := now })
    (hq : ∀ now, c.clock ≤ now → Q now { c with clock := now }) :
    Steps I E Fwos.bootTimeNs c Q := by
  refine Spec.ask hI fun choice w hw => ?_
  subst hw
  simp only [exec]
  cases choice.fault with
  | none => exact hq _ (Nat.le_add_right ..)
  | some fault => exact hE _ _ (Nat.le_add_right ..)

theorem uses_ask {allowed : Op → Prop} {op : Op} (h : allowed op) : Uses allowed (ask op) :=
  ⟨h, fun _ => trivial⟩

end Rules

end Fwos
