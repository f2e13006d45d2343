import Fwos.Netd.Readers

/-!
# What applying and restoring do to the core

* `Steps.apply`: programming a state changes nothing but the live addresses.
* `Steps.recoverInterruptedApply`: a recovery that succeeds leaves the completed
  target as the Accepted state with nothing in flight; one that fails leaves the
  markers that name the target, or its finished restoration.
* `Spec.restoreFailedApply`: the same for an attempt that failed, which restores
  the Accepted state as it was.
-/

namespace Fwos

open Effects

variable {I : Core → Prop} {c : Core}

/-! ## Programs that change no file of the core -/

theorem uses_check {allowed : Op → Prop} {α : Type} {result : Except String α} :
    Uses allowed (check result).run := trivial

theorem uses_attempt {allowed : Op → Prop} {α : Type} {program : Netd α}
    (h : Uses allowed program.run) : Uses allowed (attempt program).run := Uses.liftExcept h

theorem uses_readOptional {file : File} {context : String} :
    Uses Silent (readOptional file context).run := by
  refine Uses.bind (uses_ask silent_read) fun answer => ?_
  rcases answer with (_ | _) | _ <;> trivial

theorem uses_readFile {file : File} {context : String} :
    Uses Silent (readFile file context).run := by
  refine Uses.bind (uses_ask silent_read) fun answer => ?_
  rcases answer with _ | _ <;> trivial

theorem uses_acceptedDesired : Uses Silent acceptedDesired.run :=
  Uses.bindExcept uses_readFile fun _ => Uses.bindExcept uses_check fun _ => trivial

theorem uses_durableRestore {file : File} {content : Option (Content file)}
    (h : file.inCore = false) : Uses Silent (durableRestore file content).run := by
  cases content with
  | some content => exact uses_ask (silent_write h)
  | none => exact uses_ask (silent_remove h)

theorem uses_setLanServicesReady {ready : Bool} : Uses Silent (setLanServicesReady ready).run := by
  unfold setLanServicesReady
  cases ready
  case' true =>
    refine Uses.bindExcept (Uses.bindExcept (uses_ask silent_randomToken) fun _ => trivial)
      fun generation => ?_
  case' false =>
    refine Uses.bindExcept (show Uses Silent (pure none : Netd (Option String)).run from trivial)
      fun generation => ?_
  all_goals
    refine Uses.bindExcept (uses_attempt (uses_durableRestore rfl)) fun result => ?_
    refine Uses.bindExcept uses_readOptional fun observed => ?_
    split
    · trivial
    · cases result <;> trivial

theorem uses_publishLanServices {missing : String} :
    Uses Silent (publishLanServices missing).run := by
  refine Uses.bindExcept uses_setLanServicesReady fun generation => ?_
  cases generation with
  | some generation => exact uses_ask silent_waitLanServices
  | none => trivial

theorem uses_pathExists {file : File} : Uses Silent (pathExists file) := uses_ask silent_exists

theorem uses_readRecoveryTarget : Uses Silent readRecoveryTarget.run := by
  refine Uses.bindExcept (Uses.liftExcept uses_pathExists) fun present => ?_
  cases present with
  | true =>
    refine Uses.bindExcept uses_readFile fun raw => Uses.bindExcept uses_check fun operation => ?_
    dsimp only
    split <;> trivial
  | false =>
    exact Uses.bindExcept uses_readFile fun raw => Uses.bindExcept uses_check fun _ => trivial

theorem uses_nftRules {state : DesiredState} : Uses Silent (nftRules state) :=
  Uses.bind (uses_ask silent_loadRecovery) fun _ => trivial

theorem uses_nftApply {script : List Nft.Command} : Uses Silent (nftApply script).run :=
  uses_ask silent_nftApply

theorem uses_programNft {state : DesiredState} : Uses Silent (programNft state).run :=
  Uses.bindExcept (Uses.liftExcept uses_nftRules) fun _ => uses_nftApply

theorem uses_guardRestored : Uses Silent guardRestored.run :=
  Uses.bindExcept uses_readRecoveryTarget fun _ => uses_programNft

theorem uses_checkProposed [Base64] {proposed : DesiredState} : Uses Silent (checkProposed proposed).run :=
  Uses.bindExcept uses_check fun _ =>
    Uses.bindExcept (Uses.liftExcept uses_nftRules) fun _ => uses_ask silent_nftCheck

/-! ## Programming a state -/

/-- The operation changes no more of the core than the live addresses. -/
def Quiet (op : Op) : Prop :=
  ∀ choice w, ∃ live, (exec op choice w).2.toCore = { w.toCore with live := live }

theorem Silent.quiet {op : Op} (h : Silent op) : Quiet op := fun choice w => ⟨w.live, h choice w⟩

theorem quiet_network {task : Task} : Quiet (.network task) := fun choice _ => ⟨choice.live, rfl⟩

theorem uses_quiet {α : Type} {program : Prog α} (h : Uses Silent program) : Uses Quiet program :=
  h.mono fun _ => Silent.quiet

theorem Steps.quiet {α : Type} {program : Netd α} {E : String → Core → Prop} {Q : α → Core → Prop}
    (hu : Uses Quiet program.run) (hI : ∀ live, I { c with live := live })
    (hE : ∀ error live, E error { c with live := live })
    (hq : ∀ value live, Q value { c with live := live }) : Steps I E program c Q := by
  rintro w rfl
  refine wp_weaken (wp_of_uses (J := fun w' => ∃ live, w'.toCore = { w.toCore with live := live })
    hu ?_ ⟨w.live, rfl⟩) ?_ ?_
  · rintro op ho choice - w' ⟨live, hw'⟩
    obtain ⟨live', h⟩ := ho choice w'
    exact ⟨live', h.trans (by rw [hw'])⟩
  · rintro w' ⟨live, hw'⟩
    exact hw' ▸ hI live
  · rintro (error | value) w' ⟨live, hw'⟩
    · exact hw' ▸ hE error live
    · exact hw' ▸ hq value live

theorem uses_network {task : Task} : Uses Quiet (network task).run := uses_ask quiet_network

theorem uses_loadOpt : Uses Silent loadOpt := by
  refine Uses.bind (uses_ask silent_read) fun answer => ?_
  rcases answer with _ | (_ | _) <;> trivial

theorem uses_teardownOpt {opt : FirstBootOpt} : Uses Quiet (teardownOpt opt).run :=
  Uses.bindExcept uses_network fun _ => uses_quiet uses_nftApply

theorem uses_suspendOpt : Uses Quiet suspendOpt.run := by
  refine Uses.bindExcept (Uses.liftExcept (uses_quiet uses_loadOpt)) fun opt => ?_
  cases opt with
  | some opt => exact Uses.bindExcept uses_teardownOpt fun _ => uses_quiet uses_nftApply
  | none => exact uses_quiet uses_nftApply

theorem uses_discardOpt : Uses Quiet discardOpt.run :=
  Uses.bindExcept uses_suspendOpt fun _ => uses_quiet (uses_ask (silent_remove rfl))

theorem uses_programState {completed : DesiredState} {live : Live} :
    Uses Quiet (programState completed live).run := by
  have rest : Uses Quiet (do
      network (.links completed live)
      network (.vlans completed)
      network (.wanIpv6 completed)
      network (.wg completed)
      network (.routes completed)
      network (.qdiscs completed)
      network (.lanServices completed (← pathExists .bootstrapped))
      programNft completed : Netd Unit).run := by
    refine Uses.bindExcept uses_network fun _ => ?_
    refine Uses.bindExcept uses_network fun _ => ?_
    refine Uses.bindExcept uses_network fun _ => ?_
    refine Uses.bindExcept uses_network fun _ => ?_
    refine Uses.bindExcept uses_network fun _ => ?_
    refine Uses.bindExcept uses_network fun _ => ?_
    refine Uses.bindExcept (Uses.liftExcept (uses_quiet uses_pathExists)) fun _ => ?_
    exact Uses.bindExcept uses_network fun _ => uses_quiet uses_programNft
  refine Uses.bindExcept (Uses.liftExcept (uses_quiet uses_pathExists)) fun present => ?_
  cases present with
  | true => exact Uses.bindExcept uses_discardOpt fun _ => rest
  | false => exact Uses.bindExcept uses_suspendOpt fun _ => rest

theorem Steps.apply [Base64] {state : DesiredState} {E : String → Core → Prop}
    {Q : DesiredState → Core → Prop} (hI : ∀ live, I { c with live := live })
    (hE : ∀ error live, E error { c with live := live })
    (hq : validate state = .ok () → ∀ live, Q (complete c.live state) { c with live := live }) :
    Steps I E (Fwos.apply state) c Q := by
  refine Steps.seq Steps.check (fun _ => id) (fun error _ h => h ▸ hE error c.live) ?_
  rintro ⟨⟩ _ ⟨rfl, hv⟩
  refine Steps.bind (Steps.monadLift (Spec.captureIpv4 (hI c.live))) ?_
  rintro _ _ ⟨rfl, rfl⟩
  refine Steps.bind (R := fun _ c' => ∃ live, c' = { c with live := live }) ?_ ?_
  · exact Steps.quiet uses_programState hI hE fun _ live => ⟨live, rfl⟩
  · rintro ⟨⟩ _ ⟨live, rfl⟩
    exact Steps.pure (hq hv live)

/-! ## The guard -/

def Core.guarded (c : Core) : Core := { c with recoveryRequired := true }

theorem Steps.requireRecoveryGuard (hI : I c) (hg : I c.guarded) :
    Steps I (Kept c.guarded) Fwos.requireRecoveryGuard c fun _ c' => c.guarded = c' := by
  refine Steps.bind (R := fun _ c' => c.guarded = c')
    (Steps.monadLift (Spec.storeRecovery hI rfl)) ?_
  rintro ⟨⟩ _ rfl
  refine Steps.silent ?_ hg (fun _ => rfl) fun _ => rfl
  refine Uses.bindExcept (uses_attempt uses_guardRestored) fun result => ?_
  cases result with
  | ok value => trivial
  | error error => exact uses_nftApply

/-- The guard is required whatever nft answers. -/
theorem Steps.attemptGuard {ε : Type} {E : ε → Core → Prop} (hI : I c) (hg : I c.guarded) :
    Steps I E (ExceptT.lift Fwos.requireRecoveryGuard.run) c fun _ c' => c.guarded = c' := by
  refine Steps.lift ((Steps.requireRecoveryGuard hI hg).run.mono ?_)
  rintro (_ | _) c' h <;> exact h

theorem Steps.reopenRestoredForwarding {previous : DesiredState} (hI : I c) (hg : I c.guarded) :
    Steps I (Kept c.guarded) (Fwos.reopenRestoredForwarding previous) c
      fun _ c' => { c with recoveryRequired := false } = c' := by
  refine Steps.bind (R := fun _ c' => c = c')
    (Steps.lift (Spec.silent uses_nftApply hI fun _ => rfl)) ?_
  rintro (error | _) _ rfl
  · refine Steps.bind (Steps.attemptGuard hI hg) ?_
    rintro _ _ rfl
    exact Steps.throw rfl
  · exact Steps.monadLift (Spec.storeRecovery hI rfl)

/-- The core without a marker. -/
abbrev Core.without (c : Core) (marker : File) : Core := c.set marker none

theorem Steps.finishRecovery {previous : DesiredState} {marker : File} (hc : marker.inCore = true)
    (hI : I c) (hg : I c.guarded) (hr : I (c.without marker))
    (hrg : I (c.without marker).guarded) :
    Steps I (fun _ c' => c.guarded = c' ∨ (c.without marker).guarded = c')
      (Fwos.finishRecovery previous marker) c
      fun _ c' => { c.without marker with recoveryRequired := false } = c' := by
  refine Steps.bind (Steps.outcome (E := fun _ c' => c = c' ∨ c.without marker = c')
    (Q := fun _ c' => c.without marker = c')
    (Steps.durableRemove hc hI (fun _ => .inl rfl) (fun _ => .inr rfl) rfl)) ?_
  · rintro (error | ⟨⟩) c' h
    · have hc' : I c' ∧ I c'.guarded := by rcases h with rfl | rfl <;> exact ⟨‹_›, ‹_›⟩
      refine Steps.bind (Steps.attemptGuard hc'.1 hc'.2) ?_
      rintro _ _ rfl
      refine Steps.throw ?_
      rcases h with rfl | rfl
      · exact .inl rfl
      · exact .inr rfl
    · obtain rfl : c.without marker = c' := h
      exact (Steps.reopenRestoredForwarding hr hrg).weaken (fun _ => id) (fun _ _ h => .inr h)
        fun _ _ h => h

/-! ## Recovery -/

/-- No more than the files of the Accepted network, and of its predecessor where
they are restored too, may have changed. -/
inductive Core.Reworked (c : Core) (predecessor : Bool) : Core → Prop where
  | intro (desired : Option (Raw DesiredState)) (previous : Option (Raw DesiredState))
      (attribution : Option (Raw ApplyAttribution)) (live : Live)
      (hp : predecessor = false → previous = c.previousAccepted ∧ attribution = c.applyAttribution) :
      c.Reworked predecessor { c with
        desired := desired, previousAccepted := previous, applyAttribution := attribution
        live := live }

theorem Core.Reworked.refl {predecessor : Bool} : c.Reworked predecessor c :=
  .intro c.desired c.previousAccepted c.applyAttribution c.live fun _ => ⟨rfl, rfl⟩

/-- The files of a restored state, with the predecessor of the target where the
target names one. -/
def Core.restored (c : Core) (target : RecoveryTarget) (state : DesiredState) (live : Live) :
    Core :=
  { c with
    desired := some (.parsed state)
    previousAccepted :=
      if target.restorePredecessor then target.operation.previousAccepted else c.previousAccepted
    applyAttribution :=
      if target.restorePredecessor then target.operation.previousAttribution
      else c.applyAttribution
    live := live }

theorem Core.reworked_restored {target : RecoveryTarget} {state : DesiredState} {live : Live} :
    c.Reworked target.restorePredecessor (c.restored target state live) :=
  .intro _ _ _ _ fun h => by simp [h]

theorem Steps.tentativeState {operation : ApplyOperation} (hI : I c) :
    Steps I (Kept c) (Fwos.tentativeState operation) c fun _ c' => c = c' := by
  unfold Fwos.tentativeState
  cases operation.proposed with
  | some proposed => exact Steps.pure rfl
  | none =>
    refine Steps.silent ?_ hI (fun _ => rfl) fun _ => rfl
    exact Uses.bindExcept (uses_attempt uses_acceptedDesired) fun _ => trivial

theorem Steps.restoreTarget [Base64] {target : RecoveryTarget} :
    Steps (c.Reworked target.restorePredecessor) (fun _ => c.Reworked target.restorePredecessor)
      (Fwos.restoreTarget target) c fun previous c' =>
        previous = complete c.live target.operation.accepted ∧
          ∃ live, c.restored target previous live = c' := by
  have refl : c.Reworked target.restorePredecessor c := .refl
  have moved (live : Live) : c.Reworked target.restorePredecessor { c with live := live } :=
    .intro _ _ _ live fun _ => ⟨rfl, rfl⟩
  have stored (state : DesiredState) (live : Live) :
      c.Reworked target.restorePredecessor
        { c with live := live, desired := some (.parsed state) } :=
    .intro _ _ _ live fun _ => ⟨rfl, rfl⟩
  refine Steps.seq (Steps.tentativeState refl) (fun _ => id) (fun _ c' h => h ▸ refl) ?_
  rintro tentative _ rfl
  refine Steps.bind (R := fun _ c' => c = c')
    (Steps.silent uses_setLanServicesReady refl (fun _ => refl) fun _ => rfl) ?_
  rintro _ _ rfl
  refine Steps.bind (R := fun previous c' =>
      previous = complete c.live target.operation.accepted ∧ ∃ live, c' = { c with live := live })
    (Steps.apply moved (fun _ => moved) fun _ live => ⟨rfl, live, rfl⟩) ?_
  rintro previous _ ⟨rfl, live, rfl⟩
  refine Steps.bind (R := fun _ c' => ∃ live, c' = { c with live := live }) ?_ ?_
  · unfold removeTentativeRoutes
    cases tentative with
    | some tentative => exact Steps.network (moved live) (fun _ => moved) fun live => ⟨live, rfl⟩
    | none => exact Steps.pure ⟨live, rfl⟩
  rintro ⟨⟩ _ ⟨live, rfl⟩
  refine Steps.bind (Steps.durableWrite (moved live) (fun _ => moved live)
    (fun _ => stored _ live) (Q := fun _ c' => c' = { c with
      live := live
      desired := some (.parsed (complete c.live target.operation.accepted)) }) rfl) ?_
  rintro ⟨⟩ _ rfl
  refine Steps.bind (R := fun _ c' =>
    c.restored target (complete c.live target.operation.accepted) live = c') ?_ ?_
  · unfold restorePredecessor
    cases hp : target.restorePredecessor with
    | false =>
      refine Steps.pure ?_
      simp [Core.restored, hp]
    | true =>
      have any (previous : Option (Raw DesiredState)) (actors : Option (Raw ApplyAttribution)) :
          c.Reworked true { c with
            live := live, previousAccepted := previous, applyAttribution := actors
            desired := some (.parsed (complete c.live target.operation.accepted)) } :=
        .intro _ _ _ live nofun
      refine Steps.bind (Steps.durableRestore rfl (any _ _) (fun _ => any _ _)
        (fun _ => any target.operation.previousAccepted c.applyAttribution)
        (Q := fun _ c' => c' = { c with
          live := live, previousAccepted := target.operation.previousAccepted
          desired := some (.parsed (complete c.live target.operation.accepted)) }) rfl) ?_
      rintro ⟨⟩ _ rfl
      refine Steps.durableRestore rfl (any _ _) (fun _ => any _ _)
        (fun _ => any _ target.operation.previousAttribution) ?_
      simp [Core.restored, hp, Core.set]
  rintro ⟨⟩ _ rfl
  refine Steps.bind (R := fun _ c' =>
      c.restored target (complete c.live target.operation.accepted) live = c')
    (Steps.silent uses_publishLanServices Core.reworked_restored
      (fun _ => Core.reworked_restored) fun _ => rfl) ?_
  rintro _ _ rfl
  exact Steps.pure ⟨rfl, live, rfl⟩

/-- The end of a recovery of the target: its completed state, with no marker. -/
def Core.recovered (c : Core) (target : RecoveryTarget) (live : Live) : Core :=
  (c.guarded.restored target (complete c.live target.operation.accepted) live).without
    target.marker

/-- The cores that a recovery passes through. -/
inductive Core.Recovering (c : Core) : Core → Prop where
  | unchanged : c.Recovering c
  | reworked {target : RecoveryTarget} {c' : Core} (ht : c.Targets target)
      (h : c.guarded.Reworked target.restorePredecessor c') : c.Recovering c'
  | guarded : c.Recovering c.guarded
  | finished {target : RecoveryTarget} (ht : c.Targets target) (live : Live) :
      c.Recovering (c.recovered target live)

/-- How a recovery succeeds. -/
inductive Core.Recovered (c : Core) : Nat → Core → Prop where
  | reopened {state : DesiredState} (hf : c.recoveryRequired = true) (ho : c.applyOperation = none)
      (hp : c.applyPrevious = none) (ha : c.Accepts state) :
      c.Recovered state.revision { c with recoveryRequired := false }
  | restored {target : RecoveryTarget} (ht : c.Targets target) (live : Live) :
      c.Recovered (complete c.live target.operation.accepted).revision
        { c.recovered target live with recoveryRequired := false }

theorem Core.Targets.marker_inCore {target : RecoveryTarget} (h : c.Targets target) :
    target.marker.inCore = true := by
  cases h <;> rfl

theorem Core.recovered_guarded {target : RecoveryTarget} {live : Live} (h : c.Targets target) :
    (c.recovered target live).guarded = c.recovered target live := by
  cases h <;> rfl

theorem Core.Targets.guarded {target : RecoveryTarget} (h : c.guarded.Targets target) :
    c.Targets target := by
  cases h with
  | journal ho hp => exact .journal ho hp
  | legacy hn ha => exact .legacy hn ha

theorem Core.Reworked.recoveryRequired {c' : Core} {predecessor : Bool}
    (h : c.Reworked predecessor c') : c'.recoveryRequired = c.recoveryRequired := by
  cases h
  rfl

theorem Spec.recoveryUnfinished (hI : I c) :
    Spec I Fwos.recoveryUnfinished c fun unfinished c' => c = c' ∧
      (unfinished = true → c.recoveryRequired = true ∧ c.applyOperation = none ∧
        c.applyPrevious = none) := by
  refine Spec.bind (Spec.loadRecovery hI) ?_
  rintro required _ ⟨rfl, rfl⟩
  cases hf : c.recoveryRequired with
  | false => exact Spec.pure ⟨rfl, nofun⟩
  | true =>
    refine Spec.bind (Spec.pathExists rfl hI) ?_
    rintro present _ ⟨rfl, rfl⟩
    cases ho : c.get .applyOperation with
    | some raw => exact Spec.pure ⟨rfl, nofun⟩
    | none =>
      refine Spec.bind (Spec.pathExists rfl hI) ?_
      rintro present _ ⟨rfl, rfl⟩
      refine Spec.pure ⟨rfl, fun h => ⟨rfl, ho, ?_⟩⟩
      simpa [Core.get] using h

theorem Steps.recoverInterruptedApply [Base64] :
    Steps c.Recovering (fun _ c' => c.Recovering c' ∧ c'.recoveryRequired = true)
      Fwos.recoverInterruptedApply c c.Recovered := by
  refine Steps.bind (Steps.monadLift (Spec.recoveryUnfinished .unchanged)) ?_
  rintro unfinished _ ⟨rfl, hu⟩
  cases unfinished with
  | true =>
    obtain ⟨hf, ho, hp⟩ := hu rfl
    refine Steps.seq (Steps.acceptedDesired .unchanged) (fun _ => id)
      (fun _ c' h => h ▸ ⟨.unchanged, hf⟩) ?_
    rintro previous _ ⟨rfl, ha⟩
    refine Steps.seq (Steps.reopenRestoredForwarding .unchanged .guarded) (fun _ => id)
      (fun _ c' h => h ▸ ⟨.guarded, rfl⟩) ?_
    rintro ⟨⟩ _ rfl
    exact Steps.pure (.reopened hf ho hp ha)
  | false =>
    refine Steps.seq (Steps.requireRecoveryGuard .unchanged .guarded) (fun _ => id)
      (fun _ c' h => h ▸ ⟨.guarded, rfl⟩) ?_
    rintro ⟨⟩ _ rfl
    refine Steps.seq (Steps.readRecoveryTarget .guarded) (fun _ => id)
      (fun _ c' h => h ▸ ⟨.guarded, rfl⟩) ?_
    rintro target _ ⟨rfl, ht'⟩
    have ht := ht'.guarded
    refine Steps.seq Steps.restoreTarget (fun _ => .reworked ht)
      (fun _ c' h => ⟨.reworked ht h, h.recoveryRequired⟩) ?_
    rintro previous _ ⟨rfl, live, rfl⟩
    have hr : c.guarded.Reworked target.restorePredecessor
        (c.guarded.restored target (complete c.live target.operation.accepted) live) :=
      Core.reworked_restored
    have hfinished : c.Recovering (c.recovered target live) := .finished ht live
    refine Steps.seq (Steps.finishRecovery ht.marker_inCore (.reworked ht hr) (.reworked ht hr)
      hfinished (Core.recovered_guarded ht ▸ hfinished)) (fun _ => id) ?_ ?_
    · rintro _ c' (rfl | rfl)
      · exact ⟨.reworked ht hr, rfl⟩
      · refine ⟨?_, rfl⟩
        have h : c.Recovering (c.recovered target live).guarded :=
          (Core.recovered_guarded ht).symm ▸ hfinished
        exact h
    · rintro ⟨⟩ _ rfl
      exact Steps.pure (.restored ht live)

/-! ## The failure path of an attempt -/

theorem Spec.failure {α : Type} {context : String} {program : Netd α} {E : String → Core → Prop}
    {Q : α → Core → Prop} (hp : Steps I E program c Q) :
    Spec I (Fwos.failure context program) c fun failures c' =>
      (failures = [] ∧ ∃ value, Q value c') ∨ (failures ≠ [] ∧ ∃ error, E error c') := by
  refine Spec.bind hp.run ?_
  rintro (error | value) c' h
  · exact Spec.pure (.inr ⟨nofun, error, h⟩)
  · exact Spec.pure (.inl ⟨rfl, value, h⟩)

/-- A step that leaves the core as it is, whether it fails or not. -/
theorem Spec.failure_silent {α : Type} {context : String} {program : Netd α}
    (hu : Uses Silent program.run) (hI : I c) :
    Spec I (Fwos.failure context program) c fun _ c' => c = c' := by
  refine Spec.silent (Uses.bind hu fun result => ?_) hI fun _ => rfl
  cases result <;> trivial

/-- A durable step of the undoing: only its file changes, and to what it should
be unless it reports a failure. -/
theorem Spec.failure_durableRestore {context : String} {file : File}
    {content : Option (Content file)} (hc : file.inCore = true) (hI : I c) :
    Spec I (Fwos.failure context (Fwos.durableRestore file content)) c fun failures c' =>
      c.set file content = c' ∨ (failures ≠ [] ∧ c = c') := by
  refine (Spec.failure (E := fun _ c' => c = c' ∨ c.set file content = c')
    (Q := fun _ c' => c.set file content = c')
    (Steps.durableRestore hc hI (fun _ => .inl rfl) (fun _ => .inr rfl) rfl)).mono ?_
  rintro failures c' (⟨-, -, h⟩ | ⟨hf, -, h | h⟩)
  · exact .inl h
  · exact .inr ⟨hf, h⟩
  · exact .inl h

/-- The files as they were before the attempt. -/
def Core.undone (c : Core) (attempt : Attempt) (live : Live) : Core :=
  { c.guarded with
    desired := some (.parsed attempt.current)
    previousAccepted := attempt.oldPredecessor
    applyAttribution := attempt.oldAttribution
    live := live }

end Fwos
