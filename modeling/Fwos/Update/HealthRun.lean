import Fwos.Update.Health

/-!
# A run of the health check

`run_health` observes the boot of an update until the Appliance is healthy or its
time is up, and then accepts the update or queues the rollback. Each exit writes
records in `/var`; a file operation succeeds here, and `bootc rollback` may fail.

* `healthTurn`: what one observation leads to, none if the loop sleeps.
* `Consistent`: the decision, its record and the boot order agree.
* `consistent_iff`: the runs of which this holds.
-/

namespace Fwos.Update

open Rust

namespace Host

def writeOutcome (host : Host) (outcome : UpdateOutcome) : Host :=
  { host with outcome := some outcome }

def clearPending (host : Host) : Host := { host with pending := none }

/-- `accept_update`, as far as the records go. -/
def acceptUpdate (host : Host) (booted : String) : Host :=
  { host with updateRecord := none }.writeOutcome (.accepted booted)

def rollBack (host : Host) : Host := { host with deployments := host.deployments.rolledBack }

end Host

/-- How a run ends. -/
structure HealthRun where
  result : Except String Unit := .ok ()
  host : Host
  /-- The outcome that the run wrote. -/
  recorded : Option UpdateOutcome := none
  /-- The Host when it was asked to reboot. -/
  rebootAt : Option Host := none
deriving DecidableEq

/-- The rollback that is due: its outcome is written before the command. -/
def rollBackRun (rollback : Except String Unit) (host : Host) (outcome : UpdateOutcome) :
    HealthRun :=
  let host := host.writeOutcome outcome
  match rollback with
  | .error error => { result := .error error, host := host, recorded := some outcome }
  | .ok () =>
      let host := host.rollBack.clearPending
      { host := host, recorded := some outcome, rebootAt := some host }

/-- One turn of the loop, with the outcome of `bootc rollback` if it is run. -/
def healthTurn (pending : String) (rollback : Except String Unit) (host : Host) (poll : Poll) :
    Option HealthRun :=
  let booted := poll.deployments.booted.image
  if !booted.isEmpty && !pendingIsThisBoot pending booted then some { host := host }
  else
    let thisBoot := pendingIsThisBoot pending booted
    let hasRollback := !poll.deployments.rollback.isEmpty
    let health := assessHealth poll.checks
    if thisBoot && health == .ok then
      some {
        host := (host.acceptUpdate booted).clearPending
        recorded := some (.accepted booted) }
    else if poll.deadlinePassed then
      if shouldAutoRollback thisBoot hasRollback health then
        some (rollBackRun rollback host (.rolledBack booted health.describe))
      else if thisBoot then some { host := host.clearPending }
      else some { host := host }
    else none

/-- `run_health` on these observations; none while it goes on. -/
def healthRun (rollback : Except String Unit) (host : Host) (polls : List Poll) :
    Option HealthRun :=
  let pending := readPending host.pending
  if pending.isEmpty then some { host := host }
  else polls.findSome? (healthTurn pending rollback host)

/-! ## What is observed -/

def Poll.isUpdateBoot (pending : String) (poll : Poll) : Bool :=
  pendingIsThisBoot pending poll.deployments.booted.image

/-- The update's boot, and healthy. -/
def Poll.healthy (pending : String) (poll : Poll) : Bool :=
  poll.isUpdateBoot pending && assessHealth poll.checks == .ok

def Poll.otherBoot (pending : String) (poll : Poll) : Bool :=
  !poll.deployments.booted.image.isEmpty && !poll.isUpdateBoot pending

/-- The loop ends with such an observation. -/
def Poll.last (pending : String) (poll : Poll) : Bool :=
  poll.otherBoot pending || poll.healthy pending || poll.deadlinePassed

/-- The update's boot is still unhealthy at the deadline, and there is a deployment to
roll back to. -/
def Poll.rollbackDue (pending : String) (poll : Poll) : Bool :=
  poll.isUpdateBoot pending && !poll.healthy pending && poll.deadlinePassed &&
    !poll.deployments.rollback.isEmpty

/-- The observations that a run makes. -/
def observations (pending : String) : List Poll → List Poll
  | [] => []
  | poll :: rest => if poll.last pending then [poll] else poll :: observations pending rest

/-- The decision of a run, what it recorded and the boot order agree. -/
structure Consistent (host : Host) (polls : List Poll) (run : HealthRun) : Prop where
  written : ∀ outcome, run.recorded = some outcome → run.host.outcome = some outcome
  accepted : (∃ release, run.recorded = some (.accepted release) ∧ run.host.pending = none) ↔
    ∃ poll ∈ observations (readPending host.pending) polls, poll.healthy (readPending host.pending)
  atFirst : ∀ release, run.recorded = some (.accepted release) →
    ∃ front last, observations (readPending host.pending) polls = front ++ [last] ∧
      last.deployments.booted.image = release ∧ last.healthy (readPending host.pending) = true ∧
      ∀ poll ∈ front, poll.healthy (readPending host.pending) = false
  rolledBack : ∀ release reason, run.recorded = some (.rolledBack release reason) →
    run.host.deployments.rollbackQueued = true
  reboot : ∀ rebooting, run.rebootAt = some rebooting →
    rebooting.deployments.rollbackQueued = true ∧ rebooting.pending = none
  notBoth : ∀ release, run.recorded = some (.accepted release) → run.rebootAt = none
  otherBoot : (∀ poll ∈ observations (readPending host.pending) polls,
    poll.isUpdateBoot (readPending host.pending) = false) → run.host = host

/-- Where a rollback is due, the rollback deployment is the next boot after the
command: it succeeds and none was queued, or it fails and one was. -/
def RollbackQueues (rollback : Except String Unit) (host : Host) (polls : List Poll) : Prop :=
  ∀ last, (observations (readPending host.pending) polls).getLast? = some last →
    last.rollbackDue (readPending host.pending) = true →
    rollback.isOk = !host.deployments.rollbackQueued

/-! ## The exits -/

section Exits

variable {pending : String} {rollback : Except String Unit} {host : Host} {poll : Poll}

/-- What an observation leads to, by its kind. -/
theorem healthTurn_eq :
    healthTurn pending rollback host poll =
      if poll.otherBoot pending then some { host := host }
      else if poll.healthy pending then
        some {
          host := (host.acceptUpdate poll.deployments.booted.image).clearPending
          recorded := some (.accepted poll.deployments.booted.image) }
      else if poll.rollbackDue pending then
        some (rollBackRun rollback host
          (.rolledBack poll.deployments.booted.image (assessHealth poll.checks).describe))
      else if poll.deadlinePassed then
        some { host := if poll.isUpdateBoot pending then host.clearPending else host }
      else none := by
  unfold healthTurn
  cases boot : pendingIsThisBoot pending poll.deployments.booted.image <;>
    cases late : poll.deadlinePassed <;>
      cases target : poll.deployments.rollback.isEmpty <;>
        cases well : assessHealth poll.checks == .ok <;>
          simp [Poll.otherBoot, Poll.healthy, Poll.rollbackDue, Poll.isUpdateBoot,
            shouldAutoRollback, boot, late, target, well, bne]

theorem healthTurn_eq_none :
    healthTurn pending rollback host poll = none ↔ poll.last pending = false := by
  rw [healthTurn_eq, Poll.last]
  cases late : poll.deadlinePassed with
  | false =>
      have notDue : poll.rollbackDue pending = false := by simp [Poll.rollbackDue, late]
      cases poll.otherBoot pending <;> cases poll.healthy pending <;> simp [notDue]
  | true =>
      cases poll.otherBoot pending <;> cases poll.healthy pending <;>
        cases poll.rollbackDue pending <;> simp

/-- A run that has ended did so with the last observation that it made. -/
theorem exists_last {polls : List Poll} {run : HealthRun}
    (h : polls.findSome? (healthTurn pending rollback host) = some run) :
    ∃ front last, observations pending polls = front ++ [last] ∧
      (∀ poll ∈ front, poll.last pending = false) ∧
      healthTurn pending rollback host last = some run := by
  induction polls with
  | nil => cases h
  | cons poll rest ih =>
      rw [List.findSome?_cons] at h
      rw [observations]
      cases turn : healthTurn pending rollback host poll with
      | some ended =>
          rw [turn] at h
          cases h
          have last : poll.last pending = true := by
            rw [← Bool.not_eq_false, ← @healthTurn_eq_none pending rollback host, turn]
            simp
          rw [if_pos last]
          exact ⟨[], poll, rfl, by simp, turn⟩
      | none =>
          rw [turn] at h
          have goesOn := healthTurn_eq_none.mp turn
          obtain ⟨front, last, made, waits, turn⟩ := ih h
          rw [goesOn, if_neg (by simp), made]
          refine ⟨poll :: front, last, rfl, ?_, turn⟩
          intro other mem
          rcases List.mem_cons.mp mem with rfl | mem
          · exact goesOn
          · exact waits other mem

end Exits

/-! ## The decision, its record and the boot order -/

section Last

variable {rollback : Except String Unit} {host : Host} {polls front : List Poll} {last : Poll}
variable {run : HealthRun}

theorem unhealthy_of_waits {pending : String} (waits : ∀ poll ∈ front, poll.last pending = false) :
    ∀ poll ∈ front, poll.healthy pending = false := by
  intro poll mem
  have goesOn := waits poll mem
  simp only [Poll.last, Bool.or_eq_false_iff] at goesOn
  exact goesOn.1.2

/-- Only the last observation can show the update healthy. -/
theorem some_healthy_iff (made : observations (readPending host.pending) polls = front ++ [last])
    (waits : ∀ poll ∈ front, poll.last (readPending host.pending) = false) :
    (∃ poll ∈ observations (readPending host.pending) polls,
      poll.healthy (readPending host.pending) = true) ↔
      last.healthy (readPending host.pending) = true := by
  rw [made]
  constructor
  · rintro ⟨poll, mem, well⟩
    rcases List.mem_append.mp mem with early | late
    · rw [unhealthy_of_waits waits poll early] at well
      cases well
    · rwa [← List.mem_singleton.mp late]
  · intro well
    exact ⟨last, by simp, well⟩

/-- A run that records nothing. -/
theorem consistent_quiet (made : observations (readPending host.pending) polls = front ++ [last])
    (waits : ∀ poll ∈ front, poll.last (readPending host.pending) = false)
    (unwell : last.healthy (readPending host.pending) = false) {after : Host}
    (same : last.isUpdateBoot (readPending host.pending) = false → after = host) :
    Consistent host polls { host := after } where
  written := by simp
  accepted := by simp [some_healthy_iff made waits, unwell]
  atFirst := by simp
  rolledBack := by simp
  reboot := by simp
  notBoth := by simp
  otherBoot none := same (none last (by simp [made]))

theorem consistent_accepted
    (made : observations (readPending host.pending) polls = front ++ [last])
    (waits : ∀ poll ∈ front, poll.last (readPending host.pending) = false)
    (well : last.healthy (readPending host.pending) = true) :
    Consistent host polls {
      host := (host.acceptUpdate last.deployments.booted.image).clearPending
      recorded := some (.accepted last.deployments.booted.image) } where
  written := by simp [Host.acceptUpdate, Host.clearPending, Host.writeOutcome]
  accepted := by simp [some_healthy_iff made waits, well, Host.clearPending]
  atFirst := by
    intro release same
    cases same
    exact ⟨front, last, made, rfl, well, unhealthy_of_waits waits⟩
  rolledBack := by simp
  reboot := by simp
  notBoth := by simp
  otherBoot none := by
    have boot := none last (by simp [made])
    simp [Poll.healthy, boot] at well

theorem consistent_rolledBack_iff
    (made : observations (readPending host.pending) polls = front ++ [last])
    (waits : ∀ poll ∈ front, poll.last (readPending host.pending) = false)
    (due : last.rollbackDue (readPending host.pending) = true) {release reason : String} :
    Consistent host polls (rollBackRun rollback host (.rolledBack release reason)) ↔
      rollback.isOk = !host.deployments.rollbackQueued := by
  simp only [Poll.rollbackDue, Bool.and_eq_true, Bool.not_eq_true'] at due
  obtain ⟨⟨⟨boot, unwell⟩, -⟩, -⟩ := due
  constructor
  · intro consistent
    cases rollback with
    | error error =>
        have queued := consistent.rolledBack release reason rfl
        have stays : host.deployments.rollbackQueued = true := queued
        rw [stays]
        rfl
    | ok _ =>
        have queued := consistent.rolledBack release reason rfl
        exact Eq.symm queued
  · intro takes
    cases rollback with
    | error error =>
        have queued : host.deployments.rollbackQueued = true := by
          simpa [Except.isOk, Except.toBool] using takes
        exact {
          written := by simp [rollBackRun, Host.writeOutcome]
          accepted := by simp [rollBackRun, some_healthy_iff made waits, unwell]
          atFirst := by simp [rollBackRun]
          rolledBack := by simp [rollBackRun, Host.writeOutcome, queued]
          reboot := by simp [rollBackRun]
          notBoth := by simp [rollBackRun]
          otherBoot := fun none => by
            rw [none last (by simp [made])] at boot
            cases boot }
    | ok _ =>
        have unqueued : host.deployments.rollbackQueued = false := by
          cases queued : host.deployments.rollbackQueued with
          | false => rfl
          | true =>
              rw [queued] at takes
              cases takes
        exact {
          written := by simp [rollBackRun, Host.writeOutcome, Host.rollBack, Host.clearPending]
          accepted := by simp [rollBackRun, some_healthy_iff made waits, unwell]
          atFirst := by simp [rollBackRun]
          rolledBack := by
            simp [rollBackRun, Host.writeOutcome, Host.rollBack, Host.clearPending,
              Deployments.rolledBack, unqueued]
          reboot := by
            simp [rollBackRun, Host.writeOutcome, Host.rollBack, Host.clearPending,
              Deployments.rolledBack, unqueued]
          notBoth := by simp [rollBackRun]
          otherBoot := fun none => by
            rw [none last (by simp [made])] at boot
            cases boot }

/-- A run that made its last observation, by how it ended. -/
theorem consistent_of_last
    (made : observations (readPending host.pending) polls = front ++ [last])
    (waits : ∀ poll ∈ front, poll.last (readPending host.pending) = false)
    (turn : healthTurn (readPending host.pending) rollback host last = some run) :
    Consistent host polls run ↔
      (last.rollbackDue (readPending host.pending) = true →
        rollback.isOk = !host.deployments.rollbackQueued) := by
  rw [healthTurn_eq] at turn
  split at turn
  next other =>
    cases turn
    simp only [Poll.otherBoot, Bool.and_eq_true, Bool.not_eq_true'] at other
    have notDue : last.rollbackDue (readPending host.pending) = false := by
      simp [Poll.rollbackDue, other.2]
    have unwell : last.healthy (readPending host.pending) = false := by
      simp [Poll.healthy, other.2]
    simp [consistent_quiet made waits unwell fun _ => rfl, notDue]
  next =>
    split at turn
    next well =>
      cases turn
      have notDue : last.rollbackDue (readPending host.pending) = false := by
        simp [Poll.rollbackDue, well]
      simp [consistent_accepted made waits well, notDue]
    next unwell =>
      rw [Bool.not_eq_true] at unwell
      split at turn
      next due =>
        cases turn
        simp [consistent_rolledBack_iff made waits due, due]
      next notDue =>
        rw [Bool.not_eq_true] at notDue
        split at turn
        next =>
          cases turn
          refine iff_of_true (consistent_quiet made waits unwell fun notBoot => ?_) ?_
          · rw [notBoot, if_neg (by simp)]
          · simp [notDue]
        next => cases turn

end Last

/-- Without a pending record no boot is the update's. -/
theorem isUpdateBoot_of_none {pending : String} (nothing : pending.isEmpty = true) (poll : Poll) :
    poll.isUpdateBoot pending = false := by
  obtain rfl : pending = "" := by simpa using nothing
  have bare : norm "" = "" := by decide
  simp [Poll.isUpdateBoot, pendingIsThisBoot, bare]

/-- The record of a run agrees with what happened exactly if a rollback that is due
makes the rollback deployment the next boot. -/
theorem consistent_iff {rollback : Except String Unit} {host : Host} {polls : List Poll}
    {run : HealthRun} (h : healthRun rollback host polls = some run) :
    Consistent host polls run ↔ RollbackQueues rollback host polls := by
  unfold healthRun at h
  simp only at h
  split at h
  next nothing =>
    cases h
    have notBoot := isUpdateBoot_of_none nothing
    have unwell : ∀ poll : Poll, poll.healthy (readPending host.pending) = false := by
      intro poll
      simp [Poll.healthy, notBoot poll]
    refine iff_of_true ?_ ?_
    · exact {
        written := by simp
        accepted := by simp [unwell]
        atFirst := by simp
        rolledBack := by simp
        reboot := by simp
        notBoth := by simp
        otherBoot := fun _ => rfl }
    · intro last _ due
      simp [Poll.rollbackDue, notBoot last] at due
  next =>
    obtain ⟨front, last, made, waits, turn⟩ := exists_last h
    rw [consistent_of_last made waits turn, RollbackQueues, made]
    simp

/-! ## The run and its decision -/

/-- A run ends at its deadline at the latest. -/
theorem healthRun_ends {rollback : Except String Unit} {host : Host} {polls : List Poll}
    (deadline : ∃ poll ∈ polls, poll.deadlinePassed = true) :
    (healthRun rollback host polls).isSome = true := by
  unfold healthRun
  simp only
  split
  next => rfl
  next =>
    obtain ⟨poll, mem, late⟩ := deadline
    rw [List.findSome?_isSome_iff]
    refine ⟨poll, mem, ?_⟩
    rw [Option.isSome_iff_ne_none, Ne, healthTurn_eq_none]
    simp [Poll.last, late]

theorem healthLoop_cons {pending : String} {poll : Poll} {rest : List Poll} :
    healthLoop pending (poll :: rest) =
      if poll.otherBoot pending then .nothing
      else if poll.healthy pending then .accepted
      else if poll.rollbackDue pending then .rolledBack (assessHealth poll.checks).describe
      else if poll.deadlinePassed then (if poll.isUpdateBoot pending then .cleared else .nothing)
      else healthLoop pending rest := by
  rw [healthLoop]
  cases boot : pendingIsThisBoot pending poll.deployments.booted.image <;>
    cases late : poll.deadlinePassed <;>
      cases target : poll.deployments.rollback.isEmpty <;>
        cases well : assessHealth poll.checks == .ok <;>
          simp [Poll.otherBoot, Poll.healthy, Poll.rollbackDue, Poll.isUpdateBoot,
            shouldAutoRollback, boot, late, target, well, bne]

/-- Where the rollback command succeeds, a run on the boot of the Host does what was
decided. -/
theorem healthRun_refines {host : Host} {polls : List Poll} {run : HealthRun}
    (observed : PollsOf host.deployments.booted polls)
    (h : healthRun (.ok ()) host polls = some run) :
    run.host = host.afterHealth (runHealth host.pending polls) := by
  unfold healthRun at h
  unfold runHealth
  simp only at h ⊢
  split at h
  next nothing =>
    cases h
    rw [if_pos nothing]
    rfl
  next pending =>
    rw [if_neg pending]
    induction polls with
    | nil => cases h
    | cons poll rest ih =>
        have later := ih fun other mem => observed other (List.mem_cons_of_mem _ mem)
        have booted : pendingIsThisBoot (readPending host.pending)
            poll.deployments.booted.image = true → poll.deployments.booted = host.deployments.booted := by
          intro boot
          rcases observed poll List.mem_cons_self with same | failed
          · exact same
          · rw [failed] at boot
            rw [show ({} : Deployments).booted.image = "" from rfl, pendingIsThisBoot_none] at boot
            cases boot
        rw [List.findSome?_cons, healthTurn_eq] at h
        rw [healthLoop_cons]
        by_cases other : poll.otherBoot (readPending host.pending) = true
        · rw [if_pos other] at h ⊢
          cases h
          rfl
        rw [if_neg other] at h ⊢
        by_cases well : poll.healthy (readPending host.pending) = true
        · rw [if_pos well] at h ⊢
          cases h
          rw [booted (Bool.and_eq_true _ _ ▸ well).1]
          rfl
        rw [if_neg well] at h ⊢
        by_cases due : poll.rollbackDue (readPending host.pending) = true
        · rw [if_pos due] at h ⊢
          cases h
          simp only [Poll.rollbackDue, Bool.and_eq_true] at due
          rw [booted due.1.1.1]
          rfl
        rw [if_neg due] at h ⊢
        by_cases late : poll.deadlinePassed = true
        · rw [if_pos late] at h ⊢
          cases h
          split <;> rfl
        · rw [if_neg late] at h ⊢
          exact later h

/-! ## A rollback that fails -/

namespace HealthRun

/-- An update boot without its Forwarding netns, at the deadline. -/
def unhealthy : Poll := {
  deployments := {
    booted := ⟨"reg/fwos:2", "sha256:b"⟩
    rollback := ⟨"reg/fwos:1", "sha256:a"⟩ }
  checks := ⟨true, false, true, .restored, true⟩
  deadlinePassed := true
}

def updateBoot : Host := {
  deployments := unhealthy.deployments
  pending := some (pendingText "reg/fwos:2")
}

theorem rollback_consistent :
    Consistent updateBoot [unhealthy]
      (rollBackRun (.ok ()) updateBoot (.rolledBack "reg/fwos:2" "fwd missing")) :=
  (consistent_iff (by decide +kernel)).mpr fun _ _ _ =>
    show (Except.ok () : Except String Unit).isOk = _ from rfl

/-- The outcome says that the Host rolled back, and no rollback is queued. -/
theorem failed_rollback_recorded :
    healthRun (.error "bootc rollback failed") updateBoot [unhealthy] = some {
      result := .error "bootc rollback failed"
      host := updateBoot.writeOutcome (.rolledBack "reg/fwos:2" "fwd missing")
      recorded := some (.rolledBack "reg/fwos:2" "fwd missing") } ∧
    ¬ Consistent updateBoot [unhealthy] {
      result := .error "bootc rollback failed"
      host := updateBoot.writeOutcome (.rolledBack "reg/fwos:2" "fwd missing")
      recorded := some (.rolledBack "reg/fwos:2" "fwd missing") } := by
  refine ⟨by decide +kernel, fun consistent => ?_⟩
  have queued := consistent.rolledBack "reg/fwos:2" "fwd missing" rfl
  cases queued

end HealthRun

end Fwos.Update
