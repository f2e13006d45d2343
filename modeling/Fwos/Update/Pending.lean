import Fwos.Update.Controller

/-!
# The health-pending record

A staged deployment is health-checked on its boot if the health-pending record
names it. The record is written last and repaired at the start of the controller
only where it is empty, so that

* `staged_is_pending` holds of every run in which no call fails and no crash comes
  between `bootc switch` and the record, except where the record names the
  deployment already, or is empty before a crash;
* a failing write (`unrecorded_update_pending`) leaves a staged deployment that no
  record names.
-/

namespace Fwos.Update

open Rust

/-! ## Runs of the controller -/

inductive Controller where
  /-- It has crashed or was never started. -/
  | down
  | starting (activity : Activity)
  | idle
  | busy (activity : Activity)
deriving DecidableEq, Repr

structure System where
  host : Host := {}
  controller : Controller := .down
deriving DecidableEq, Repr

inductive Event where
  | start
  | stage (image : String)
  | rollback
  | step (choice : StepChoice)
  | crash
deriving DecidableEq, Repr

def Progress.controller (progress : Progress) (running : Activity → Controller) : Controller :=
  match progress with
  | .next activity => running activity
  | .finished _ => .idle

namespace System

/-- The next call of what the controller does. What starts or ends elsewhere
finds it idle. -/
def step (system : System) : Event → System
  | .start =>
      match system.controller with
      | .down => { system with controller := .starting .statusStaged }
      | _ => system
  | .stage image =>
      match system.controller with
      | .idle =>
          if validReference image then { system with controller := .busy (.resolvable image) }
          else system
      | _ => system
  | .rollback =>
      match system.controller with
      | .idle => { system with controller := .busy .rollbackStatus }
      | _ => system
  | .step choice =>
      match system.controller with
      | .starting activity =>
          let (host, progress) := system.host.step choice activity
          ⟨host, progress.controller .starting⟩
      | .busy activity =>
          let (host, progress) := system.host.step choice activity
          ⟨host, progress.controller .busy⟩
      | _ => system
  | .crash => { system with controller := .down }

def run (system : System) (events : List Event) : System := events.foldl step system

end System

/-! ## What the record names -/

namespace Host

/-- If a deployment is staged, the record names its image. -/
def Named (host : Host) : Prop :=
  host.deployments.staged.isEmpty = true ∨
    readPending host.pending = trim host.deployments.staged.image

/-- What the start of the controller puts right. -/
def Repairable (host : Host) : Prop := host.Named ∨ readPending host.pending = ""

instance {host : Host} : Decidable host.Named := inferInstanceAs (Decidable (_ ∨ _))

instance {host : Host} : Decidable host.Repairable := inferInstanceAs (Decidable (_ ∨ _))

/-- What holds before each call. -/
def Sound (host : Host) : Activity → Prop
  | .statusAfter _ _ => True
  | .writeUpdateRecord record => host.deployments.staged.image = record.update.image
  | .openPending image => host.deployments.staged.image = image
  | .writePending image => host.deployments.staged.image = image
  | .removePending => host.deployments.staged.isEmpty = true
  | .statusStaged => host.Repairable
  | _ => host.Named

end Host

/-- The call of a `bootc status`. -/
def Activity.isStatus : Activity → Bool
  | .statusBefore _ | .statusAfter _ _ | .statusStaged | .rollbackStatus => true
  | _ => false

/-- A failure of the call leaves no staged deployment whose record names another
image. -/
def Host.failsWell (host : Host) (choice : StepChoice) : Activity → Bool
  | .writeUpdateRecord _ | .openPending _ => decide host.Named
  | .writePending image => trim choice.left == trim image
  | _ => true

/-- What holds after a call. -/
def Progress.Sound (progress : Progress) (host : Host) : Prop :=
  match progress with
  | .next activity => host.Sound activity
  | .finished _ => host.Named

namespace System

/-- `bootc status` answers. -/
def answers (system : System) : Event → Bool
  | .step choice =>
      match system.controller with
      | .starting activity | .busy activity => !choice.fails || !activity.isStatus
      | _ => true
  | _ => true

/-- Neither a crash nor a failing call leaves a staged deployment whose record
names another image. A crash may also leave an empty record. -/
def harmless (system : System) : Event → Bool
  | .crash => decide system.host.Repairable
  | .step choice =>
      match system.controller with
      | .starting activity | .busy activity =>
          !choice.fails || system.host.failsWell choice activity
      | _ => true
  | _ => true

/-- Every event of a run satisfies a condition in the state in which it happens. -/
def always (condition : System → Event → Bool) (system : System) : List Event → Bool
  | [] => true
  | event :: rest => condition system event && (system.step event).always condition rest

/-- What holds between any two calls. -/
def Sound (system : System) : Prop :=
  match system.controller with
  | .down => system.host.Repairable
  | .starting activity | .busy activity => system.host.Sound activity
  | .idle => system.host.Named

end System

namespace Host

theorem named_of_no_staged {host : Host} (h : host.deployments.staged = {}) : host.Named :=
  .inl (by rw [h]; rfl)

theorem Named.of_eq {host host' : Host} (h : host.Named)
    (hd : host'.deployments = host.deployments) (hp : host'.pending = host.pending) :
    host'.Named := by
  unfold Named at h ⊢
  rwa [hd, hp]

theorem afterDurable_cases {host changed : Host} {choice : StepChoice} {P : Host → Prop}
    (h : P host) (hc : P changed) : P (host.afterDurable choice changed) := by
  unfold afterDurable
  split
  · exact h
  · exact hc

/-- What one call keeps. -/
theorem Sound.step {host : Host} {activity : Activity} {choice : StepChoice}
    (h : host.Sound activity)
    (ha : (!choice.fails || !activity.isStatus) = true)
    (hf : (!choice.fails || host.failsWell choice activity) = true) :
    (host.step choice activity).2.Sound (host.step choice activity).1 := by
  have ha (hfail : choice.fails = true) : activity.isStatus = false := by simpa [hfail] using ha
  have hf (hfail : choice.fails = true) : host.failsWell choice activity = true := by
    simpa [hfail] using hf
  cases activity with
  | resolvable image | preservePreUpdate image | statusBefore image =>
    simp only [Host.step]
    split_ifs <;> exact h
  | bootcSwitch image before =>
    simp only [Host.step]
    split_ifs
    · exact h
    · trivial
  | statusAfter image before =>
    simp only [Host.step]
    split_ifs with hfail hempty
    · cases ha hfail
    · exact .inl hempty
    · exact rfl
  | writeUpdateRecord record =>
    simp only [Host.step]
    split_ifs with hfail
    · have hn : host.Named := of_decide_eq_true (hf hfail)
      exact afterDurable_cases hn (Named.of_eq hn rfl rfl)
    · exact afterDurable_cases (P := fun host => host.Sound (.openPending _)) h h
  | openPending image =>
    simp only [Host.step]
    split_ifs with hfail
    · have hn : host.Named := of_decide_eq_true (hf hfail)
      exact hn
    · exact h
  | writePending image =>
    simp only [Host.step]
    have hs : host.deployments.staged.image = image := h
    split_ifs with hfail
    · exact .inr (by rw [hs]; exact eq_of_beq (hf hfail))
    · exact .inr (by rw [hs]; exact readPending_pendingText image)
  | statusStaged =>
    simp only [Host.step]
    split_ifs with hfail
    · cases ha hfail
    · unfold missingPendingRecord
      by_cases hm : (readPending host.pending).isEmpty && !host.deployments.staged.image.isEmpty
      · rw [if_pos hm]
        exact rfl
      · rw [if_neg hm]
        rcases h with h | h
        · exact h
        · refine .inl ?_
          simpa [h, DeploymentId.isEmpty] using hm
  | rollbackStatus =>
    cases hfail : choice.fails with
    | true => cases ha hfail
    | false =>
      simp only [Host.step, hfail, Bool.false_eq_true, if_false]
      generalize Update.manualRollback _ _ = kind
      cases kind with
      | error error => exact h
      | ok kind =>
        cases hq : host.deployments.rollbackQueued with
        | true =>
          cases host.manualRollback.isNone <;> exact h
        | false => exact h
  | cancelRollback =>
    simp only [Host.step]
    split_ifs
    · exact h
    · exact named_of_no_staged rfl
  | removeManualRollback =>
    exact afterDurable_cases h (Named.of_eq h rfl rfl)
  | removePending =>
    have hs : host.deployments.staged.isEmpty = true := h
    exact afterDurable_cases (P := Named) (.inl hs) (.inl hs)
  | withdrawManualRollback error =>
    exact afterDurable_cases h (Named.of_eq h rfl rfl)
  | writeManualRollback record kind =>
    simp only [Host.step]
    split_ifs
    · exact afterDurable_cases h (Named.of_eq h rfl rfl)
    · exact afterDurable_cases (P := fun host => host.Sound (.bootcRollback kind)) h
        (Named.of_eq h rfl rfl)
  | bootcRollback kind =>
    simp only [Host.step]
    split_ifs
    · exact h
    · cases kind
      · exact rfl
      · exact named_of_no_staged rfl

end Host

namespace System

theorem Sound.step {system : System} {event : Event} (h : system.Sound)
    (ha : system.answers event = true) (hf : system.harmless event = true) : (system.step event).Sound := by
  obtain ⟨host, controller⟩ := system
  cases event with
  | start =>
    cases controller with
    | down => exact h
    | starting | idle | busy => exact h
  | stage image =>
    cases controller with
    | idle =>
      simp only [System.step]
      split_ifs <;> exact h
    | down | starting | busy => exact h
  | rollback =>
    cases controller with
    | idle => exact h
    | down | starting | busy => exact h
  | step choice =>
    cases controller with
    | down | idle => exact h
    | starting activity | busy activity =>
      have hstep := Host.Sound.step h ha hf
      simp only [System.step]
      generalize host.step choice activity = result at hstep
      obtain ⟨host', progress⟩ := result
      cases progress <;> exact hstep
  | crash =>
    have hr : host.Repairable := of_decide_eq_true hf
    exact hr

theorem Sound.run {system : System} {events : List Event} (h : system.Sound)
    (ha : system.always answers events = true) (hf : system.always harmless events = true) :
    (system.run events).Sound := by
  induction events generalizing system with
  | nil => exact h
  | cons event rest ih =>
    simp only [always, Bool.and_eq_true] at ha hf
    exact ih (h.step ha.1 hf.1) ha.2 hf.2

/-- **Every staged update will be health-checked**, in every run whose steps are
harmless: whenever the controller has finished starting or finished an operation,
the record names the deployment that is staged. -/
theorem staged_is_pending {host : Host} {events : List Event}
    (hp : readPending host.pending = "") (ha : always answers ⟨host, .down⟩ events = true)
    (hf : always harmless ⟨host, .down⟩ events = true)
    (hi : (run ⟨host, .down⟩ events).controller = .idle) :
    (run ⟨host, .down⟩ events).host.Named := by
  have h : Sound ⟨host, .down⟩ := .inr hp
  have hend := h.run ha hf
  rwa [Sound, hi] at hend

/-- A start, and a stage whose write of the update record fails or not. -/
def stageNext (fails : Bool) : List Event :=
  [ .start, .step {}, .stage "reg/fwos:next", .step {}, .step {}, .step {},
    .step { staged := ⟨"reg/fwos:next", "sha256:b"⟩ }, .step {}, .step { fails := fails },
    .step {}, .step {} ]

theorem staged_is_pending_next :
    (run {} (stageNext false)).host.deployments.staged.image = "reg/fwos:next" ∧
      (run {} (stageNext false)).host.Named :=
  ⟨by decide +kernel, staged_is_pending (by decide +kernel) (by decide +kernel)
    (by decide +kernel) (by decide +kernel)⟩

/-- The stage ends with an error, and no record names what it has staged. -/
theorem unrecorded_update_pending :
    always answers {} (stageNext true) = true ∧
      (run {} (stageNext true)).controller = .idle ∧
      (run {} (stageNext true)).host.deployments.staged.image = "reg/fwos:next" ∧
      ¬ (run {} (stageNext true)).host.Named := by
  decide +kernel

end System

end Fwos.Update
