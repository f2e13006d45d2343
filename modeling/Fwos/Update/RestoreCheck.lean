import Fwos.Update.Controller

/-!
# Restoring the pre-update network

At boot, `run_restore_check` compares the record of the last stage with the booted
and the rollback deployment. Whether the staged deployment was ever booted is a
matter of history: here every deployment that a stage brings is an instance of its
own number, and `Staging` is the history of the last stage.

* `restore_after_update_boot`: in every run in which no staged deployment is
  discarded while the rollback deployment has its digest, and none is activated
  over a booted one of its digest, the pre-update network is restored only on the
  first boot of the previous Release after a boot of the update that was not accepted.
* `restaged_rollback_restored`: a stage of the rollback deployment's own image that
  a reset discards reverts the network although the staged deployment never booted.
-/

namespace Fwos.Update

open Rust

/-! ## Runs of an appliance -/

/-- What has become of the last stage. -/
structure Staging where
  previous : Nat
  update : Nat
  updateBooted : Bool := false
  /-- The boots of the previous deployment after a boot of the update. -/
  previousBoots : Nat := 0
  accepted : Bool := false
deriving DecidableEq, Repr

/-- The revisions of the Accepted and of the preserved network. -/
structure Network where
  accepted : Nat := 0
  preserved : Option Nat := none
deriving DecidableEq, Repr

structure Appliance where
  host : Host := {}
  booted : Nat := 0
  rollback : Nat := 1
  staged : Nat := 2
  nextInstance : Nat := 3
  staging : Option Staging := none
  network : Network := {}
  /-- The last event was a boot that asked netd to restore the pre-update network. -/
  restoring : Bool := false
deriving DecidableEq, Repr

inductive ApplianceEvent where
  /-- An empty deployment is a `bootc switch` that stages nothing new. -/
  | stage (image : String) (resolvable : Bool) (staged : DeploymentId)
  | apply
  /-- A boot, after a reboot request or without one. An unclean reset may discard
  the staged deployment. -/
  | boot (requested discards : Bool)
  /-- What each turn of the health loop finds, and whether its deadline has passed. -/
  | health (polls : List (HealthChecks × Bool))
  | rollback (healthFinished : Bool)
deriving DecidableEq, Repr

/-- The deployment that the next boot runs. -/
inductive BootKind where
  | activated
  | swapped
  | same
deriving DecidableEq, Repr

namespace Deployments

def bootKind (deployments : Deployments) (discards : Bool) : BootKind :=
  if !deployments.staged.isEmpty && !discards then .activated
  else if deployments.rollbackQueued && !deployments.rollback.isEmpty then .swapped
  else .same

def boot (deployments : Deployments) : BootKind → Deployments
  | .activated => { booted := deployments.staged, rollback := deployments.booted }
  | .swapped => { booted := deployments.rollback, rollback := deployments.booted }
  | .same => { booted := deployments.booted, rollback := deployments.rollback }

end Deployments

/-- A boot of an instance. -/
def Staging.boot (staging : Staging) (booted : Nat) : Staging :=
  if booted = staging.update then { staging with updateBooted := true }
  else if booted = staging.previous ∧ staging.updateBooted = true then
    { staging with previousBoots := staging.previousBoots + 1 }
  else staging

namespace Appliance

/-- `refresh_pre_update`. -/
def refreshPreUpdate (app : Appliance) (requested : Bool) : Network :=
  if requested && !app.host.deployments.staged.isEmpty then
    { app.network with preserved := some app.network.accepted }
  else app.network

/-- The boot itself, before `run_restore_check`. -/
def boots (app : Appliance) (requested discards : Bool) : Appliance :=
  let kind := app.host.deployments.bootKind discards
  let booted := match kind with
    | .activated => app.staged
    | .swapped => app.rollback
    | .same => app.booted
  { app with
    host := { app.host with deployments := app.host.deployments.boot kind }
    booted := booted
    rollback := if kind = .same then app.rollback else app.booted
    staging := app.staging.map (·.boot booted)
    network := app.refreshPreUpdate requested }

def step (app : Appliance) : ApplianceEvent → Appliance
  | .stage image resolvable staged =>
      let choice : StepChoice := {
        fails := !resolvable
        staged := if staged.isEmpty then app.host.deployments.staged else staged }
      match app.host.complete (List.replicate 8 choice) (.resolvable image) with
      | (host, some (.ok ())) =>
          { app with
            host := host, staged := app.nextInstance, nextInstance := app.nextInstance + 1
            staging := some { previous := app.booted, update := app.nextInstance }
            network := { app.network with preserved := some app.network.accepted }
            restoring := false }
      | (host, _) => { app with host := host, restoring := false }
  | .apply =>
      { app with
        network := { app.network with accepted := app.network.accepted + 1 }, restoring := false }
  | .boot requested discards =>
      let app := app.boots requested discards
      let (host, restoring) := app.host.restoreCheck
      { app with
        host := host, restoring := restoring
        network := if restoring then
            { app.network with accepted := app.network.preserved.getD app.network.accepted }
          else app.network }
  | .health polls =>
      let decision := runHealth app.host.pending (polls.map fun poll =>
        { deployments := app.host.deployments, checks := poll.1, deadlinePassed := poll.2 })
      { app with
        host := app.host.afterHealth decision
        staging := if decision = .accepted then
            app.staging.map fun staging =>
              if app.booted = staging.update then { staging with accepted := true } else staging
          else app.staging
        network := if decision = .accepted then { app.network with preserved := none }
          else app.network
        restoring := false }
  | .rollback healthFinished =>
      let choice : StepChoice := { healthFinished := healthFinished }
      { app with
        host := (app.host.complete (List.replicate 4 choice) .rollbackStatus).1
        restoring := false }

def run (app : Appliance) (events : List ApplianceEvent) : Appliance := events.foldl step app

end Appliance

/-! ## The condition -/

namespace Host

/-- The staged deployment, if there is one, has not the digest of the rollback
deployment. -/
def discardable (host : Host) : Bool :=
  host.deployments.staged.isEmpty ||
    host.deployments.staged.digest != host.deployments.rollback.digest

/-- The manual rollback is not refused. -/
def rollbackRuns (host : Host) (healthFinished : Bool) : Bool :=
  (Update.manualRollback
    (pendingIsThisBoot (readPending host.pending) host.deployments.booted.image)
    healthFinished).isOk &&
    !(host.deployments.rollbackQueued && host.manualRollback.isNone)

end Host

namespace Appliance

def decision (app : Appliance) (polls : List (HealthChecks × Bool)) : HealthDecision :=
  runHealth app.host.pending (polls.map fun poll =>
    { deployments := app.host.deployments, checks := poll.1, deadlinePassed := poll.2 })

/-- No staged deployment is discarded while the rollback deployment has its digest,
and none is activated over a booted deployment of its digest. -/
def harmless (app : Appliance) : ApplianceEvent → Bool
  | .boot _ discards =>
      if discards then app.host.discardable
      else app.host.deployments.staged.isEmpty ||
        app.host.deployments.staged.digest != app.host.deployments.booted.digest
  | .health polls =>
      match app.decision polls with
      | .rolledBack _ => app.host.discardable
      | _ => true
  | .rollback healthFinished => !app.host.rollbackRuns healthFinished || app.host.discardable
  | .stage _ _ _ | .apply => true

/-- `bootc status` reports a digest with every image. -/
def reports : ApplianceEvent → Bool
  | .stage _ _ staged => staged.isEmpty || !staged.digest.isEmpty
  | _ => true

/-- Every event of a run is harmless in the state in which it happens. -/
def harmlessRun (app : Appliance) : List ApplianceEvent → Bool
  | [] => true
  | event :: rest => app.harmless event && reports event && (app.step event).harmlessRun rest

end Appliance

/-! ## What holds between two events -/

/-- There is no deployment, or its digest is known. -/
def DeploymentId.Reported (id : DeploymentId) : Prop :=
  (id.image = "" ∧ id.digest = "") ∨ (id.image ≠ "" ∧ id.digest ≠ "")

/-- How far the update of a record has come. -/
inductive Phase (record : UpdateRecord) (staging : Staging) (app : Appliance) : Prop where
  | staged (hu : app.host.deployments.staged = record.update)
      (hp : app.host.deployments.booted = record.previous)
      (hui : app.staged = staging.update) (hpi : app.booted = staging.previous)
      (hb : staging.updateBooted = false) (hn : staging.previousBoots = 0)
  | discarded (other : DeploymentId) (hs : app.host.deployments.staged.isEmpty = true)
      (ho : record.update.digest ≠ other.digest)
      (hd : (app.host.deployments.booted = record.previous ∧
          app.host.deployments.rollback = other) ∨
        (app.host.deployments.booted = other ∧
          app.host.deployments.rollback = record.previous))
  | booted (hs : app.host.deployments.staged.isEmpty = true)
      (hne : record.update.digest ≠ record.previous.digest)
      (hu : app.host.deployments.booted = record.update)
      (hp : app.host.deployments.rollback = record.previous)
      (hui : app.booted = staging.update) (hpi : app.rollback = staging.previous)
      (hb : staging.updateBooted = true) (hn : staging.previousBoots = 0)

structure Appliance.Sound (app : Appliance) : Prop where
  booted : app.host.deployments.booted.image ≠ "" ∧ app.host.deployments.booted.digest ≠ ""
  rollback : app.host.deployments.rollback.Reported
  staged : app.host.deployments.staged.Reported
  fresh : app.booted < app.nextInstance ∧ app.rollback < app.nextInstance ∧
    app.staged < app.nextInstance
  record : ∀ record, app.host.updateRecord = some record →
    record.update.image ≠ "" ∧ record.update.digest ≠ "" ∧ record.previous.digest ≠ "" ∧
      ∃ staging, app.staging = some staging ∧ staging.accepted = false ∧
        staging.previous ≠ staging.update ∧ Phase record staging app

theorem isEmpty_iff {id : DeploymentId} : id.isEmpty = true ↔ id.image = "" := by
  simp [DeploymentId.isEmpty]

theorem DeploymentId.Reported.digest {id : DeploymentId} (h : id.Reported)
    (he : id.isEmpty = false) : id.image ≠ "" ∧ id.digest ≠ "" := by
  rcases h with ⟨hi, -⟩ | h
  · rw [isEmpty_iff.mpr hi] at he
    cases he
  · exact h

/-- Where both digests are known, they decide. -/
theorem matchesId_of_digest {a b : DeploymentId} (ha : a.digest ≠ "") (hb : b.Reported) :
    a.matchesId b = true ↔ b.image ≠ "" ∧ a.digest = b.digest := by
  unfold DeploymentId.matchesId
  rcases hb with ⟨hi, hd⟩ | ⟨hi, hd⟩
  · have hnone : pendingIsThisBoot a.image "" = false := by
      have h : norm "" = "" := by decide
      simp [pendingIsThisBoot, h]
    simp [hi, hd, hnone]
  · simp [ha, hd, hi]

/-! ## What each event does -/

namespace Host

section Complete

variable {host host' : Host} {choice : StepChoice} {rest : List StepChoice}
  {activity activity' : Activity} {image : String}

theorem complete_next (h : host.step choice activity = (host', .next activity')) :
    host.complete (choice :: rest) activity = host'.complete rest activity' := by
  rw [complete, h]

theorem complete_finished {result : Except String Unit}
    (h : host.step choice activity = (host', .finished result)) :
    host.complete (choice :: rest) activity = (host', some result) := by
  rw [complete, h]

theorem step_bootcSwitch {before : DeploymentId} (hf : choice.fails = false) :
    host.step choice (.bootcSwitch image before) =
      ({ host with deployments := { host.deployments with staged := choice.staged } },
        .next (.statusAfter image before)) := by
  simp only [step, hf, Bool.false_eq_true, if_false]

theorem step_statusAfter {before : DeploymentId} (hf : choice.fails = false) :
    host.step choice (.statusAfter image before) =
      if host.deployments.staged.isEmpty then
        (host, .finished (.error s!"no deployment was staged; {image} may already be active"))
      else (host, .next (.writeUpdateRecord ⟨before, host.deployments.staged⟩)) := by
  simp only [step, hf, Bool.false_eq_true, if_false]

theorem step_writeUpdateRecord {record : UpdateRecord} (hf : choice.fails = false) :
    host.step choice (.writeUpdateRecord record) =
      ({ host with updateRecord := some record }, .next (.openPending record.update.image)) := by
  simp only [step, hf, afterDurable, Bool.false_and, Bool.false_eq_true, if_false]

theorem step_openPending (hf : choice.fails = false) :
    host.step choice (.openPending image) =
      ({ host with pending := some "" }, .next (.writePending image)) := by
  simp only [step, hf, Bool.false_eq_true, if_false]

theorem step_writePending (hf : choice.fails = false) :
    host.step choice (.writePending image) =
      ({ host with pending := some (pendingText image) }, .finished (.ok ())) := by
  simp only [step, hf, Bool.false_eq_true, if_false]

/-- The calls of a stage before its `bootc switch`. -/
theorem complete_before_switch (hf : choice.fails = false) :
    host.complete (choice :: choice :: choice :: rest) (.resolvable image) =
      host.complete rest (.bootcSwitch image host.deployments.booted) := by
  have h1 : host.step choice (.resolvable image) = (host, .next (.preservePreUpdate image)) := by
    simp only [step, hf, Bool.false_eq_true, if_false]
  have h2 : host.step choice (.preservePreUpdate image) = (host, .next (.statusBefore image)) := by
    simp only [step, hf, Bool.false_eq_true, if_false]
  have h3 : host.step choice (.statusBefore image) =
      (host, .next (.bootcSwitch image host.deployments.booted)) := by
    simp only [step, hf, Bool.false_eq_true, if_false]
  rw [complete_next h1, complete_next h2, complete_next h3]

theorem complete_stage (hf : choice.fails = false) (hs : choice.staged.isEmpty = false) :
    host.complete (List.replicate 8 choice) (.resolvable image) =
      ({ host with
        deployments := { host.deployments with staged := choice.staged }
        updateRecord := some ⟨host.deployments.booted, choice.staged⟩
        pending := some (pendingText choice.staged.image) }, some (.ok ())) := by
  have hstaged : step { host with deployments := { host.deployments with staged := choice.staged } }
      choice (.statusAfter image host.deployments.booted) =
      ({ host with deployments := { host.deployments with staged := choice.staged } },
        .next (.writeUpdateRecord ⟨host.deployments.booted, choice.staged⟩)) := by
    rw [step_statusAfter hf]
    simp only [hs, Bool.false_eq_true, if_false]
  show host.complete (choice :: choice :: choice :: List.replicate 5 choice) _ = _
  rw [complete_before_switch hf]
  show host.complete (choice :: choice :: choice :: choice :: [choice]) _ = _
  rw [complete_next (step_bootcSwitch hf), complete_next hstaged,
    complete_next (step_writeUpdateRecord hf), complete_next (step_openPending hf),
    complete_finished (step_writePending hf)]

theorem complete_unresolvable (hf : choice.fails = true) :
    host.complete (List.replicate 8 choice) (.resolvable image) =
      (host, some (.error "no DNS resolver learned from any WAN")) := by
  have h : host.step choice (.resolvable image) =
      (host, .finished (.error "no DNS resolver learned from any WAN")) := by
    simp only [step, hf, if_true]
  exact complete_finished h

/-- A stage that stages nothing changes nothing. -/
theorem complete_stage_nothing (hf : choice.fails = false) (hs : choice.staged.isEmpty = true)
    (heq : choice.staged = host.deployments.staged) :
    host.complete (List.replicate 8 choice) (.resolvable image) =
      (host, some (.error s!"no deployment was staged; {image} may already be active")) := by
  have hsame : { host with deployments := { host.deployments with staged := choice.staged } } =
      host := by rw [heq]
  show host.complete (choice :: choice :: choice :: List.replicate 5 choice) _ = _
  rw [complete_before_switch hf]
  show host.complete (choice :: choice :: List.replicate 3 choice) _ = _
  have h : host.step choice (.statusAfter image host.deployments.booted) = _ := step_statusAfter hf
  rw [← heq, hs, if_pos rfl] at h
  rw [complete_next (step_bootcSwitch hf), hsame, complete_finished h]

/-- What a manual rollback without a failing call does to the deployments. -/
def RollsBack (host host' : Host) (healthFinished : Bool) : Prop :=
  host'.updateRecord = host.updateRecord ∧ (host'.deployments = host.deployments ∨
    (host'.deployments = host.deployments.rolledBack ∧ host.rollbackRuns healthFinished = true))

theorem complete_cancel (hf : choice.fails = false)
    (hr : host.rollbackRuns choice.healthFinished = true) :
    host.RollsBack (host.complete (choice :: choice :: rest) .cancelRollback).1
      choice.healthFinished := by
  cases he : host.deployments.rollback.isEmpty with
  | true =>
    have h : host.step choice .cancelRollback = (host, .finished (.error "bootc rollback failed")) := by
      simp only [step, hf, he, Bool.false_or, if_true]
    rw [complete_finished h]
    exact ⟨rfl, .inl rfl⟩
  | false =>
    have h : host.step choice .cancelRollback =
        ({ host with deployments := host.deployments.rolledBack }, .next .removeManualRollback) := by
      simp only [step, hf, he, Bool.false_or, Bool.false_eq_true, if_false]
    rw [complete_next h, complete_finished rfl]
    simp only [afterDurable, hf, Bool.false_and, Bool.false_eq_true, if_false]
    exact ⟨rfl, .inr ⟨rfl, hr⟩⟩

theorem complete_queue {record : ManualRollbackRecord} {kind : ManualRollback}
    (hf : choice.fails = false) (hr : host.rollbackRuns choice.healthFinished = true) :
    host.RollsBack (host.complete (choice :: choice :: choice :: rest)
      (.writeManualRollback record kind)).1 choice.healthFinished := by
  have hwrite : host.step choice (.writeManualRollback record kind) =
      ({ host with manualRollback := some record }, .next (.bootcRollback kind)) := by
    simp only [step, hf, afterDurable, Bool.false_and, Bool.false_eq_true, if_false]
  rw [complete_next hwrite]
  cases he : host.deployments.rollback.isEmpty with
  | true =>
    have h : step { host with manualRollback := some record } choice (.bootcRollback kind) =
        ({ host with manualRollback := some record },
          .next (.withdrawManualRollback "bootc rollback failed")) := by
      simp only [step, hf, he, Bool.false_or, if_true]
    rw [complete_next h, complete_finished rfl]
    simp only [afterDurable, hf, Bool.false_and, Bool.false_eq_true, if_false]
    exact ⟨rfl, .inl rfl⟩
  | false =>
    cases kind with
    | image =>
      have h : step { host with manualRollback := some record } choice (.bootcRollback .image) =
          ({ host with
            deployments := host.deployments.rolledBack, manualRollback := some record },
            .next .removePending) := by
        simp only [step, hf, he, Bool.false_or, Bool.false_eq_true, if_false]
      rw [complete_next h, complete_finished rfl]
      simp only [afterDurable, hf, Bool.false_and, Bool.false_eq_true, if_false]
      exact ⟨rfl, .inr ⟨rfl, hr⟩⟩
    | unacceptedUpdate =>
      have h : step { host with manualRollback := some record } choice
          (.bootcRollback .unacceptedUpdate) =
          ({ host with
            deployments := host.deployments.rolledBack, manualRollback := some record },
            .finished (.ok ())) := by
        simp only [step, hf, he, Bool.false_or, Bool.false_eq_true, if_false]
      rw [complete_finished h]
      exact ⟨rfl, .inr ⟨rfl, hr⟩⟩

theorem complete_rollback (hf : choice.fails = false) :
    host.RollsBack (host.complete (List.replicate 4 choice) .rollbackStatus).1
      choice.healthFinished := by
  show host.RollsBack (host.complete (choice :: choice :: choice :: choice :: []) _).1 _
  cases hk : Update.manualRollback
      (pendingIsThisBoot (readPending host.pending) host.deployments.booted.image)
      choice.healthFinished with
  | error error =>
    have h : host.step choice .rollbackStatus = (host, .finished (.error error)) := by
      simp only [step, hf, hk, Bool.false_eq_true, if_false]
    rw [complete_finished h]
    exact ⟨rfl, .inl rfl⟩
  | ok kind =>
    cases hq : host.deployments.rollbackQueued with
    | false =>
      have hr : host.rollbackRuns choice.healthFinished = true := by
        simp [rollbackRuns, hk, hq, Except.isOk, Except.toBool]
      have h : host.step choice .rollbackStatus = (host, .next (.writeManualRollback
          ⟨host.deployments.booted, host.deployments.rollback⟩ kind)) := by
        simp only [step, hf, hk, hq, Bool.false_eq_true, if_false]
      rw [complete_next h]
      exact complete_queue hf hr
    | true =>
      cases hm : host.manualRollback.isNone with
      | true =>
        have h : host.step choice .rollbackStatus =
            (host, .finished (.error ("the queued Host image rollback was not requested " ++
              "manually and cannot be cancelled"))) := by
          simp only [step, hf, hk, hq, hm, Bool.false_eq_true, if_false, if_true]
        rw [complete_finished h]
        exact ⟨rfl, .inl rfl⟩
      | false =>
        have hr : host.rollbackRuns choice.healthFinished = true := by
          simp [rollbackRuns, hk, hq, hm, Except.isOk, Except.toBool]
        have h : host.step choice .rollbackStatus = (host, .next .cancelRollback) := by
          simp only [step, hf, hk, hq, hm, Bool.false_eq_true, if_false, if_true]
        rw [complete_next h]
        exact complete_cancel hf hr

end Complete

end Host

namespace Appliance

theorem discardable_digest {host : Host} {update : DeploymentId} (h : host.discardable = true)
    (hu : host.deployments.staged = update) (hi : update.image ≠ "") :
    update.digest ≠ host.deployments.rollback.digest := by
  have hstaged : update.isEmpty = false := by
    rw [← Bool.not_eq_true, isEmpty_iff]
    exact hi
  simpa [Host.discardable, hu, hstaged] using h

/-- A changed host that has its deployments and its record keeps all of this. -/
theorem Sound.host {app app' : Appliance} (h : app.Sound)
    (hd : app'.host.deployments = app.host.deployments)
    (hr : ∀ record, app'.host.updateRecord = some record →
      app.host.updateRecord = some record ∧ app'.staging = app.staging)
    (hb : app'.booted = app.booted) (hrb : app'.rollback = app.rollback)
    (hs : app'.staged = app.staged) (hn : app'.nextInstance = app.nextInstance) : app'.Sound where
  booted := hd ▸ h.booted
  rollback := hd ▸ h.rollback
  staged := hd ▸ h.staged
  fresh := by rw [hb, hrb, hs, hn]; exact h.fresh
  record := by
    intro record he
    obtain ⟨he, hst⟩ := hr record he
    obtain ⟨hi, hud, hpd, staging, hsg, ha, hne, hphase⟩ := h.record record he
    refine ⟨hi, hud, hpd, staging, hst.trans hsg, ha, hne, ?_⟩
    cases hphase with
    | staged hu hp hui hpi hb' hn' =>
      exact .staged (hd ▸ hu) (hd ▸ hp) (hs.trans hui) (hb.trans hpi) hb' hn'
    | discarded other hs' ho hd' => exact .discarded other (hd ▸ hs') ho (hd ▸ hd')
    | booted hs' hne' hu hp hui hpi hb' hn' =>
      exact .booted (hd ▸ hs') hne' (hd ▸ hu) (hd ▸ hp) (hb.trans hui) (hrb.trans hpi) hb' hn'

/-- What a `bootc rollback` keeps, where it may discard the staged deployment. -/
theorem Sound.rolledBack {app app' : Appliance} (h : app.Sound)
    (hdis : app.host.discardable = true)
    (hd : app'.host.deployments = app.host.deployments.rolledBack)
    (hr : app'.host.updateRecord = app.host.updateRecord) (hst : app'.staging = app.staging)
    (hb : app'.booted = app.booted) (hrb : app'.rollback = app.rollback)
    (hs : app'.staged = app.staged) (hn : app'.nextInstance = app.nextInstance) : app'.Sound where
  booted := by rw [hd]; exact h.booted
  rollback := by rw [hd]; exact h.rollback
  staged := by rw [hd]; exact .inl ⟨rfl, rfl⟩
  fresh := by rw [hb, hrb, hs, hn]; exact h.fresh
  record := by
    intro record he
    obtain ⟨hi, hud, hpd, staging, hsg, ha, hne, hphase⟩ := h.record record (hr ▸ he)
    refine ⟨hi, hud, hpd, staging, hst.trans hsg, ha, hne, ?_⟩
    cases hphase with
    | staged hu hp hui hpi hb' hn' =>
      have hdis := discardable_digest hdis hu hi
      exact .discarded app.host.deployments.rollback (by rw [hd]; rfl) hdis
        (.inl ⟨by rw [hd]; exact hp, by rw [hd]; rfl⟩)
    | discarded other hs' ho hd' => exact .discarded other (by rw [hd]; rfl) ho (by rw [hd]; exact hd')
    | booted hs' hne' hu hp hui hpi hb' hn' =>
      exact .booted (by rw [hd]; rfl) hne' (by rw [hd]; exact hu) (by rw [hd]; exact hp)
        (hb.trans hui) (hrb.trans hpi) hb' hn'

/-! ## Boots -/

theorem bootKind_cases (deployments : Deployments) (discards : Bool) :
    (deployments.bootKind discards = .activated ∧ deployments.staged.isEmpty = false ∧
      discards = false) ∨
    ((deployments.staged.isEmpty = true ∨ discards = true) ∧
      ((deployments.bootKind discards = .swapped ∧ deployments.rollback.isEmpty = false) ∨
        deployments.bootKind discards = .same)) := by
  unfold Deployments.bootKind
  cases hs : deployments.staged.isEmpty <;> cases discards <;>
    cases hq : deployments.rollbackQueued <;> cases hr : deployments.rollback.isEmpty <;> simp

theorem Staging.boot_accepted {staging : Staging} {booted : Nat} :
    (staging.boot booted).accepted = staging.accepted ∧
      (staging.boot booted).previous = staging.previous ∧
      (staging.boot booted).update = staging.update := by
  unfold Update.Staging.boot
  split_ifs <;> exact ⟨rfl, rfl, rfl⟩

theorem Staging.boot_update (staging : Staging) :
    staging.boot staging.update = { staging with updateBooted := true } := by
  simp [Update.Staging.boot]

theorem not_returned_discarded {record : UpdateRecord} {deployments : Deployments}
    {other : DeploymentId} (hud : record.update.digest ≠ "") (hpd : record.previous.digest ≠ "")
    (ho : record.update.digest ≠ other.digest)
    (hb : deployments.booted.Reported) (hr : deployments.rollback.Reported)
    (hd : (deployments.booted = record.previous ∧ deployments.rollback = other) ∨
      (deployments.booted = other ∧ deployments.rollback = record.previous)) :
    returnedFromUpdate record deployments = false := by
  rw [← Bool.not_eq_true, returnedFromUpdate, Bool.and_eq_true, matchesId_of_digest hpd hb,
    matchesId_of_digest hud hr]
  rintro ⟨⟨-, h1⟩, -, h2⟩
  rcases hd with ⟨hbo, hro⟩ | ⟨hbo, hro⟩
  · exact ho (hro ▸ h2)
  · rw [hbo] at h1
    rw [hro] at h2
    exact ho (h2.trans h1)

/-- What a record leads to at a boot. -/
def BootResult (record : UpdateRecord) (staging : Staging) (app : Appliance) : Prop :=
  staging.accepted = false ∧ staging.previous ≠ staging.update ∧
    ((returnedFromUpdate record app.host.deployments = false ∧ Phase record staging app) ∨
      (returnedFromUpdate record app.host.deployments = true ∧ staging.updateBooted = true ∧
        staging.previousBoots = 1 ∧ app.booted = staging.previous))

/-- What a boot makes of the deployments. -/
theorem Sound.boots_deployments {app : Appliance} (h : app.Sound) (requested discards : Bool) :
    let after := app.boots requested discards
    (after.host.deployments.booted.image ≠ "" ∧ after.host.deployments.booted.digest ≠ "") ∧
      after.host.deployments.rollback.Reported ∧ after.host.deployments.staged = {} ∧
      after.booted < after.nextInstance ∧ after.rollback < after.nextInstance ∧
      after.staged < after.nextInstance := by
  obtain ⟨hb, hr, hs⟩ := h.fresh
  simp only [boots]
  rcases bootKind_cases app.host.deployments discards with
    ⟨hk, he, -⟩ | ⟨-, ⟨hk, he⟩ | hk⟩ <;> rw [hk]
  · exact ⟨h.staged.digest he, .inr h.booted, rfl, hs, hb, hs⟩
  · exact ⟨h.rollback.digest he, .inr h.booted, rfl, hr, hb, hs⟩
  · exact ⟨h.booted, h.rollback, rfl, hb, hr, hs⟩

/-- What a boot makes of a record whose update waits for it, is discarded, or runs. -/
theorem Sound.boots_record {app : Appliance} (h : app.Sound) {requested discards : Bool}
    (hf : app.harmless (.boot requested discards) = true) {record : UpdateRecord}
    (hrec : app.host.updateRecord = some record) :
    ∃ staging, (app.boots requested discards).staging = some staging ∧
      BootResult record staging (app.boots requested discards) := by
  obtain ⟨hi, hud, hpd, staging, hsg, ha, hne, hphase⟩ := h.record record hrec
  obtain ⟨hbooted, hrollback, -⟩ := h.boots_deployments requested discards
  have hupdate : record.update.isEmpty = false := by
    rw [← Bool.not_eq_true, isEmpty_iff]
    exact hi
  have hstaging : (app.boots requested discards).staging =
      some (staging.boot (app.boots requested discards).booted) := by
    simp [boots, hsg]
  refine ⟨_, hstaging, Staging.boot_accepted.1.trans ha, ?_, ?_⟩
  · rw [Staging.boot_accepted.2.1, Staging.boot_accepted.2.2]
    exact hne
  -- A discarded update stays discarded, whichever of the two deployments boots.
  have hdiscarded (other : DeploymentId) (ho : record.update.digest ≠ other.digest)
      (hd : ((app.boots requested discards).host.deployments.booted = record.previous ∧
          (app.boots requested discards).host.deployments.rollback = other) ∨
        ((app.boots requested discards).host.deployments.booted = other ∧
          (app.boots requested discards).host.deployments.rollback = record.previous))
      (hs : (app.boots requested discards).host.deployments.staged.isEmpty = true) :
      (returnedFromUpdate record (app.boots requested discards).host.deployments = false ∧
        Phase record (staging.boot (app.boots requested discards).booted)
          (app.boots requested discards)) :=
    ⟨not_returned_discarded hud hpd ho (.inr hbooted) hrollback hd, .discarded other hs ho hd⟩
  -- The boot of the update is not a return from it.
  have hrunning (hdu : record.update.digest ≠ record.previous.digest)
      (hu : (app.boots requested discards).host.deployments.booted = record.update) :
      returnedFromUpdate record (app.boots requested discards).host.deployments = false := by
    rw [← Bool.not_eq_true, returnedFromUpdate, Bool.and_eq_true,
      matchesId_of_digest hpd (.inr hbooted), hu]
    rintro ⟨⟨-, he⟩, -⟩
    exact hdu he.symm
  cases hphase with
  | staged hu hp hui hpi hb hn =>
    rcases bootKind_cases app.host.deployments discards with ⟨hk, -, rfl⟩ | ⟨hdis, hk⟩
    · have hdu : record.update.digest ≠ record.previous.digest := by
        simpa [harmless, hu, hp, hupdate] using hf
      have hto : (app.boots requested false).host.deployments.booted = record.update := by
        simp [boots, hk, Deployments.boot, hu]
      refine .inl ⟨hrunning hdu hto, ?_⟩
      have hbi : (app.boots requested false).booted = staging.update := by simp [boots, hk, hui]
      rw [hbi, Staging.boot_update]
      exact .booted (by simp [boots, hk, Deployments.boot, DeploymentId.isEmpty]) hdu hto
        (by simp [boots, hk, Deployments.boot, hp]) hbi (by simp [boots, hk, hpi]) rfl hn
    · have hdis : discards = true := by
        rcases hdis with he | hdis
        · rw [hu, hupdate] at he
          cases he
        · exact hdis
      subst hdis
      have ho := discardable_digest (show app.host.discardable = true by
        simpa [harmless] using hf) hu hi
      refine .inl (hdiscarded app.host.deployments.rollback ho ?_ ?_)
      · rcases hk with ⟨hk, -⟩ | hk
        · exact .inr (by simp [boots, hk, Deployments.boot, hp])
        · exact .inl (by simp [boots, hk, Deployments.boot, hp])
      · rcases hk with ⟨hk, -⟩ | hk <;> simp [boots, hk, Deployments.boot, DeploymentId.isEmpty]
  | discarded other hs ho hd =>
    rcases bootKind_cases app.host.deployments discards with ⟨-, he, -⟩ | ⟨-, hk⟩
    · rw [hs] at he
      cases he
    · refine .inl (hdiscarded other ho ?_ ?_)
      · rcases hk with ⟨hk, -⟩ | hk
        · rcases hd with ⟨hb, hr⟩ | ⟨hb, hr⟩
          · exact .inr (by simp [boots, hk, Deployments.boot, hb, hr])
          · exact .inl (by simp [boots, hk, Deployments.boot, hb, hr])
        · rcases hd with ⟨hb, hr⟩ | ⟨hb, hr⟩
          · exact .inl (by simp [boots, hk, Deployments.boot, hb, hr])
          · exact .inr (by simp [boots, hk, Deployments.boot, hb, hr])
      · rcases hk with ⟨hk, -⟩ | hk <;> simp [boots, hk, Deployments.boot, DeploymentId.isEmpty]
  | booted hs hdu hu hp hui hpi hb hn =>
    rcases bootKind_cases app.host.deployments discards with ⟨-, he, -⟩ | ⟨-, ⟨hk, -⟩ | hk⟩
    · rw [hs] at he
      cases he
    · have hbi : (app.boots requested discards).booted = staging.previous := by
        simp [boots, hk, hpi]
      have hto : (app.boots requested discards).host.deployments.booted = record.previous := by
        simp [boots, hk, Deployments.boot, hp]
      have hback : (app.boots requested discards).host.deployments.rollback = record.update := by
        simp [boots, hk, Deployments.boot, hu]
      have hret : returnedFromUpdate record (app.boots requested discards).host.deployments =
          true := by
        rw [returnedFromUpdate, Bool.and_eq_true, matchesId_of_digest hpd (.inr hbooted),
          matchesId_of_digest hud hrollback, hto, hback]
        exact ⟨⟨hto ▸ hbooted.1, rfl⟩, hi, rfl⟩
      refine .inr ⟨hret, ?_⟩
      rw [hbi]
      simp [Update.Staging.boot, hne, hb, hn]
    · have hto : (app.boots requested discards).host.deployments.booted = record.update := by
        simp [boots, hk, Deployments.boot, hu]
      refine .inl ⟨hrunning hdu hto, ?_⟩
      have hbi : (app.boots requested discards).booted = staging.update := by
        simp [boots, hk, hui]
      rw [hbi, Staging.boot_update]
      exact .booted (by simp [boots, hk, Deployments.boot, DeploymentId.isEmpty]) hdu hto
        (by simp [boots, hk, Deployments.boot, hp]) hbi (by simp [boots, hk, hpi]) rfl hn

/-- The pre-update network is restored on the first boot of the previous Release
after a boot of its update, which was not accepted. -/
def RestoresRightly (app : Appliance) : Prop :=
  ∃ staging, app.staging = some staging ∧ staging.updateBooted = true ∧
    staging.previousBoots = 1 ∧ staging.accepted = false ∧ app.booted = staging.previous

theorem restoreCheck_deployments (host : Host) :
    host.restoreCheck.1.deployments = host.deployments := rfl

/-- A boot keeps what holds, and restores the network only rightly. -/
theorem Sound.step_boot {app : Appliance} (h : app.Sound) {requested discards : Bool}
    (hf : app.harmless (.boot requested discards) = true) :
    (app.step (.boot requested discards)).Sound ∧
      ((app.step (.boot requested discards)).restoring = true →
        (app.step (.boot requested discards)).RestoresRightly) := by
  obtain ⟨hb, hr, hs, hfb, hfr, hfs⟩ := h.boots_deployments requested discards
  have hrec := fun {record} (he : app.host.updateRecord = some record) => h.boots_record hf he
  have hsame : (app.boots requested discards).host.updateRecord = app.host.updateRecord := rfl
  simp only [Appliance.step]
  generalize app.boots requested discards = after at *
  refine ⟨⟨hb, hr, .inl ⟨by simp [restoreCheck_deployments, hs], by
    simp [restoreCheck_deployments, hs]⟩, ⟨hfb, hfr, hfs⟩, ?_⟩, ?_⟩
  · intro record he
    simp only [Host.restoreCheck] at he
    split_ifs at he with hret
    rw [hsame] at he
    obtain ⟨hi, hud, hpd, -⟩ := h.record record he
    obtain ⟨staging, hsg, ha, hne, hres⟩ := hrec he
    have hno : returnedFromUpdate record after.host.deployments = false := by
      simpa [Host.returned, hsame, he] using hret
    refine ⟨hi, hud, hpd, staging, hsg, ha, hne, ?_⟩
    rcases hres with ⟨-, hphase⟩ | ⟨hback, -⟩
    · cases hphase with
      | staged hu hp hui hpi hb' hn' => exact .staged hu hp hui hpi hb' hn'
      | discarded other hs' ho hd' => exact .discarded other hs' ho hd'
      | booted hs' hne' hu hp hui hpi hb' hn' => exact .booted hs' hne' hu hp hui hpi hb' hn'
    · rw [hno] at hback
      cases hback
  · intro hreq
    have hret : after.host.returned = true := hreq
    rw [Host.returned, hsame] at hret
    split at hret
    next record he =>
      obtain ⟨staging, hsg, ha, hne, hres⟩ := hrec he
      rcases hres with ⟨hno, -⟩ | ⟨-, hub, hn, hbi⟩
      · rw [hno] at hret
        cases hret
      · exact ⟨staging, hsg, hub, hn, ha, hbi⟩
    · cases hret

theorem Sound.step_stage {app : Appliance} (h : app.Sound) {image : String} {resolvable : Bool}
    {staged : DeploymentId} (hr : reports (.stage image resolvable staged) = true) :
    (app.step (.stage image resolvable staged)).Sound := by
  simp only [Appliance.step]
  cases hres : resolvable with
  | false =>
    rw [Host.complete_unresolvable rfl]
    exact h.host rfl (fun _ he => ⟨he, rfl⟩) rfl rfl rfl rfl
  | true =>
    cases he : (if staged.isEmpty then app.host.deployments.staged else staged).isEmpty with
    | true =>
      have heq : (if staged.isEmpty then app.host.deployments.staged else staged) =
          app.host.deployments.staged := by
        by_cases hs : staged.isEmpty = true
        · rw [if_pos hs]
        · rw [if_neg hs] at he
          exact absurd he hs
      rw [Host.complete_stage_nothing rfl he heq]
      exact h.host rfl (fun _ he => ⟨he, rfl⟩) rfl rfl rfl rfl
    | false =>
      have hrep : (if staged.isEmpty then app.host.deployments.staged else staged).image ≠ "" ∧
          (if staged.isEmpty then app.host.deployments.staged else staged).digest ≠ "" := by
        by_cases hs : staged.isEmpty = true
        · rw [if_pos hs] at he ⊢
          exact h.staged.digest he
        · rw [if_neg hs]
          simp only [reports, Bool.or_eq_true, Bool.not_eq_true',
            String.isEmpty_eq_false_iff] at hr
          exact ⟨fun hi => hs (isEmpty_iff.mpr hi), hr.resolve_left hs⟩
      rw [Host.complete_stage rfl he]
      obtain ⟨hb, hrb, hs⟩ := h.fresh
      refine ⟨h.booted, h.rollback, .inr hrep, ⟨by dsimp only; omega, by dsimp only; omega,
        by dsimp only; omega⟩, ?_⟩
      rintro _ ⟨rfl⟩
      exact ⟨hrep.1, hrep.2, h.booted.2, _, rfl, rfl, by dsimp only; omega,
        .staged rfl rfl rfl rfl rfl rfl⟩

theorem Sound.step {app : Appliance} {event : ApplianceEvent} (h : app.Sound)
    (hf : app.harmless event = true) (hr : reports event = true) :
    (app.step event).Sound ∧
      ((app.step event).restoring = true → (app.step event).RestoresRightly) := by
  cases event with
  | boot requested discards => exact h.step_boot hf
  | stage image resolvable staged =>
    refine ⟨h.step_stage hr, fun hreq => ?_⟩
    simp only [Appliance.step] at hreq
    split at hreq <;> cases hreq
  | apply => exact ⟨h.host rfl (fun _ he => ⟨he, rfl⟩) rfl rfl rfl rfl, by simp [Appliance.step]⟩
  | health polls =>
    refine ⟨?_, by simp [Appliance.step]⟩
    have hdec : runHealth app.host.pending (polls.map fun poll =>
        { deployments := app.host.deployments, checks := poll.1, deadlinePassed := poll.2 }) =
        app.decision polls := rfl
    simp only [Appliance.step, hdec]
    simp only [harmless] at hf
    cases hd : app.decision polls with
    | nothing | undecided | cleared =>
      exact h.host rfl (fun _ he => ⟨he, by simp⟩) rfl rfl rfl rfl
    | accepted =>
      exact h.host rfl (fun _ he => by simp [Host.afterHealth, Host.accept] at he) rfl rfl rfl rfl
    | rolledBack reason =>
      rw [hd] at hf
      exact h.rolledBack hf rfl rfl (by simp) rfl rfl rfl rfl
  | rollback healthFinished =>
    refine ⟨?_, by simp [Appliance.step]⟩
    have hc := @Host.complete_rollback app.host { healthFinished := healthFinished } rfl
    simp only [Appliance.step]
    generalize (app.host.complete (List.replicate 4 { healthFinished := healthFinished })
      .rollbackStatus).1 = host' at hc
    obtain ⟨hrec, hsame | ⟨hrolled, hruns⟩⟩ := hc
    · exact h.host hsame (fun _ he => ⟨hrec ▸ he, rfl⟩) rfl rfl rfl rfl
    · have hdis : app.host.discardable = true := by
        simpa [harmless, hruns] using hf
      exact h.rolledBack hdis hrolled hrec rfl rfl rfl rfl rfl

/-- An appliance without any record of an update. -/
def installed (booted rollback : DeploymentId) : Appliance :=
  { host := { deployments := { booted := booted, rollback := rollback } } }

theorem Sound.installed {booted rollback : DeploymentId}
    (hb : booted.image ≠ "" ∧ booted.digest ≠ "") (hr : rollback.Reported) :
    (installed booted rollback).Sound where
  booted := hb
  rollback := hr
  staged := .inl ⟨rfl, rfl⟩
  fresh := show 0 < 3 ∧ 1 < 3 ∧ 2 < 3 by decide
  record := by simp [Appliance.installed]

theorem Sound.run {app : Appliance} {events : List ApplianceEvent} (h : app.Sound)
    (hf : app.harmlessRun events = true) : (app.run events).Sound := by
  induction events generalizing app with
  | nil => exact h
  | cons event rest ih =>
    simp only [harmlessRun, Bool.and_eq_true] at hf
    exact ih (h.step hf.1.1 hf.1.2).1 hf.2

theorem harmlessRun_append {app : Appliance} {before after : List ApplianceEvent} :
    app.harmlessRun (before ++ after) =
      (app.harmlessRun before && (app.run before).harmlessRun after) := by
  induction before generalizing app with
  | nil => simp [harmlessRun, run]
  | cons event rest ih =>
    simp only [List.cons_append, harmlessRun, ih, Bool.and_assoc]
    rfl

theorem accepted_of_not_restoring {app : Appliance} {requested discards : Bool}
    (h : (app.step (.boot requested discards)).network.accepted ≠ app.network.accepted) :
    (app.step (.boot requested discards)).restoring = true := by
  have hkeep : (app.boots requested discards).network.accepted = app.network.accepted := by
    simp only [boots, refreshPreUpdate]
    split_ifs <;> rfl
  simp only [Appliance.step] at h ⊢
  split_ifs at h with hreq
  · exact hreq
  · exact absurd hkeep h

/-- **The pre-update network is restored only after an update really booted and was
not accepted**, in every run whose steps are harmless: a boot that asks netd for it,
or that changes the Accepted revision, is the first boot of the previous Release
after a boot of the deployment that the last stage brought, which was not accepted. -/
theorem restore_after_update_boot {booted rollback : DeploymentId} {events : List ApplianceEvent}
    {requested discards : Bool} (hb : booted.image ≠ "" ∧ booted.digest ≠ "")
    (hr : rollback.Reported)
    (hf : (installed booted rollback).harmlessRun (events ++ [.boot requested discards]) = true)
    (hreq : (((installed booted rollback).run events).step
        (.boot requested discards)).restoring = true ∨
      (((installed booted rollback).run events).step
          (.boot requested discards)).network.accepted ≠
        ((installed booted rollback).run events).network.accepted) :
    (((installed booted rollback).run events).step (.boot requested discards)).RestoresRightly := by
  rw [harmlessRun_append, Bool.and_eq_true] at hf
  obtain ⟨hbefore, hlast⟩ := hf
  simp only [harmlessRun, Bool.and_eq_true] at hlast
  have h := (Sound.installed hb hr).run hbefore
  exact (h.step hlast.1.1 hlast.1.2).2 (hreq.elim id accepted_of_not_restoring)

def devRelease : DeploymentId := ⟨"localhost/fwos:dev", "sha256:a"⟩

def nextRelease : DeploymentId := ⟨"reg/fwos:next", "sha256:b"⟩

/-- An update that boots and is rolled back by hand after its health check. -/
def rejectedUpdate : List ApplianceEvent :=
  [ .apply, .stage "reg/fwos:next" true nextRelease, .apply, .boot true false, .apply,
    .rollback true ]

theorem restore_rejected_update :
    (((installed devRelease {}).run rejectedUpdate).step (.boot false false)).restoring = true ∧
      (((installed devRelease {}).run rejectedUpdate).step (.boot false false)).RestoresRightly :=
  ⟨by decide +kernel, restore_after_update_boot (by decide) (.inl (by decide))
    (by decide +kernel) (.inl (by decide +kernel))⟩

/-- An accepted update, from which the administrator returns, is staged again, and
a reset discards it. -/
def restagedRollback : List ApplianceEvent :=
  [ .stage "reg/fwos:next" true nextRelease, .boot true false,
    .health [(⟨true, true, true, .restored, true⟩, false)], .rollback true, .boot true false,
    .stage "reg/fwos:next" true nextRelease, .apply ]

/-- The second staged deployment never booted, and the network that was accepted
since its stage is reverted. -/
theorem restaged_rollback_restored :
    let before := (installed devRelease {}).run restagedRollback
    let after := before.step (.boot false true)
    after.restoring = true ∧ before.network.accepted = 1 ∧ after.network.accepted = 0 ∧
      ∃ staging, after.staging = some staging ∧ staging.updateBooted = false := by
  refine ⟨by decide +kernel, by decide +kernel, by decide +kernel, _, rfl, by decide +kernel⟩

end Appliance

end Fwos.Update
