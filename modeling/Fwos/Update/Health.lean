import Fwos.Update.Controller

/-!
# Which boot is the update boot

The health-pending record holds the image reference of the staged deployment
without its digest. Both readers of the record, `run_health` and
`manual_rollback_step`, compare it with the reference of the booted deployment:

* `treated_iff`: they treat a boot as the undecided update boot exactly where the
  two references agree, transport and digest aside;
* `own_boot_iff`: so they do it only for the staged deployment's own boot unless
  that is another pull of the reference that is booted.
-/

namespace Fwos.Update

open Rust

/-- The polls of one boot of a deployment: `bootc status` reports it or fails. -/
def PollsOf (booted : DeploymentId) (polls : List Poll) : Prop :=
  ∀ poll ∈ polls, poll.deployments.booted = booted ∨ poll.deployments = {}

/-- What `run_health` does only to an update boot. -/
def HealthDecision.decides : HealthDecision → Bool
  | .accepted | .rolledBack _ | .cleared => true
  | .nothing | .undecided => false

/-- What a manual rollback does only on an undecided update boot: health owns the
rollback, or it returns from an unaccepted update. -/
def Progress.isUpdateBoot : Progress → Bool
  | .next (.writeManualRollback _ .image) => false
  | _ => true

/-- The boot of `booted` is treated as the update boot of the deployment whose
image was written to the health-pending record. -/
def TreatedAsUpdateBoot (staged booted : DeploymentId) : Prop :=
  (∃ polls, PollsOf booted polls ∧
    (runHealth (some (pendingText staged.image)) polls).decides = true) ∨
  (∃ (host : Host) (healthFinished : Bool), host.deployments.booted = booted ∧
    host.deployments.rollbackQueued = false ∧ host.pending = some (pendingText staged.image) ∧
    (host.step { healthFinished := healthFinished } .rollbackStatus).2.isUpdateBoot = true)

/-- The staged deployment is another pull of the reference that is booted. -/
def OtherPull (staged booted : DeploymentId) : Prop :=
  pendingIsThisBoot (trim staged.image) booted.image = true ∧ staged.digest ≠ booted.digest

instance {staged booted : DeploymentId} : Decidable (OtherPull staged booted) :=
  inferInstanceAs (Decidable (_ ∧ _))

theorem pendingIsThisBoot_none {pending : String} : pendingIsThisBoot pending "" = false := by
  have h : norm "" = "" := by decide
  simp [pendingIsThisBoot, h]

/-- On the boot of another reference the health loop decides nothing. -/
theorem healthLoop_of_other {pending : String} {booted : DeploymentId} {polls : List Poll}
    (h : pendingIsThisBoot pending booted.image = false) (hp : PollsOf booted polls) :
    (healthLoop pending polls).decides = false := by
  induction polls with
  | nil => rfl
  | cons poll rest ih =>
    have hrest := ih fun other ho => hp other (List.mem_cons_of_mem _ ho)
    have hthis : pendingIsThisBoot pending poll.deployments.booted.image = false := by
      rcases hp poll List.mem_cons_self with hb | hb
      · rw [hb]
        exact h
      · rw [hb]
        exact pendingIsThisBoot_none
    simp only [healthLoop, hthis, shouldAutoRollback, Bool.not_false, Bool.and_true,
      Bool.false_and, Bool.false_eq_true, if_false]
    split_ifs
    · rfl
    · rfl
    · exact hrest

/-- Both readers go by the references alone. -/
theorem treated_iff {staged booted : DeploymentId} :
    TreatedAsUpdateBoot staged booted ↔
      pendingIsThisBoot (trim staged.image) booted.image = true := by
  constructor
  · intro h
    by_contra hno
    rw [Bool.not_eq_true] at hno
    rcases h with ⟨polls, hp, hd⟩ | ⟨host, healthFinished, hb, hq, hpending, hd⟩
    · rw [runHealth, readPending_pendingText] at hd
      split_ifs at hd
      · cases hd
      · rw [healthLoop_of_other hno hp] at hd
        cases hd
    · simp [Host.step, hb, hq, hpending, readPending_pendingText, hno, manualRollback,
        Progress.isUpdateBoot] at hd
  · intro h
    refine .inr ⟨⟨{ booted := booted }, some (pendingText staged.image), none, none, none⟩, false,
      rfl, rfl, rfl, ?_⟩
    simp [Host.step, readPending_pendingText, h, manualRollback, Progress.isUpdateBoot]

/-- **Only the staged deployment's own boot is treated as its update boot**, unless
it is another pull of the reference that is booted. -/
theorem own_boot_iff {staged booted : DeploymentId} :
    (TreatedAsUpdateBoot staged booted → staged.digest = booted.digest) ↔
      ¬ OtherPull staged booted := by
  rw [treated_iff, OtherPull, not_and, not_not]

/-- A newer pull of the booted tag is staged, and the reset before its boot
discards it: the old pull's next boot is accepted as the update. -/
theorem newer_pull_accepted :
    let staged : DeploymentId := ⟨"reg/fwos:next", "sha256:c"⟩
    let booted : DeploymentId := ⟨"reg/fwos:next", "sha256:b"⟩
    TreatedAsUpdateBoot staged booted ∧ staged.digest ≠ booted.digest := by
  refine ⟨.inl ⟨[{ deployments := { booted := ⟨"reg/fwos:next", "sha256:b"⟩ }
                   checks := ⟨true, true, true, .restored, true⟩
                   deadlinePassed := false }], ?_, by decide +kernel⟩, by decide⟩
  simp [PollsOf]

end Fwos.Update
