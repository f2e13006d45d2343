import Fwos.Netd.Attempts

/-!
# Turns of netd

The main loop takes one turn at a time: a request of its socket, or what it does
between them. A start runs after the memory of the process is lost; every file
is still there.

* `Turn.Writes`: the turns that may change the Accepted network or its records.
  `Spec.turn_other`: any other turn of a bootstrapped netd changes no more than
  the live addresses and what is preserved for a Host update.
* `Spec.startup`: a start without a Host update's request recovers what was in
  flight, or stores the Accepted network as it was completed.
-/

namespace Fwos

open Effects

variable {I : Core → Prop} {c : Core}

/-! ## Turns and restarts -/

inductive Turn where
  | request (request : Request)
  | expire
  | refreshExposure
  | followIpv6 (prefixChanged : Bool)

def Turn.program [Base64] : Turn → Prog Unit
  | .request cmd => do
      let _ ← handleCmd cmd
      return ()
  | .expire => expirePendingConfirmation
  | .refreshExposure => do
      let _ ← refreshBootstrapExposure.run
      return ()
  | .followIpv6 prefixChanged => do
      let _ ← (refreshIpv6 prefixChanged).run
      return ()

/-- The next process, on the same boot or after another, finds every file. -/
structure World.Restarted (w w' : World) : Prop where
  files : ∀ file, w'.get file = w.get file
  recoveryRequired : w'.recoveryRequired = false

/-- The turn may change the Accepted network or its records. -/
def Turn.Writes : Turn → Prop
  | .request (.confirmApply ..) | .request (.restorePrevious ..) | .request (.applyDesired ..)
  | .expire => True
  | _ => False

/-! ## The other turns -/

/-- No more than the live addresses and the preserved network may have changed. -/
def Core.Aside (c c' : Core) : Prop :=
  ∃ live preserved, c' = { c with live := live, preUpdateAccepted := preserved }

theorem Core.Aside.refl : c.Aside c := ⟨c.live, c.preUpdateAccepted, rfl⟩

theorem Core.aside_live {live : Live} : c.Aside { c with live := live } :=
  ⟨live, c.preUpdateAccepted, rfl⟩

namespace TurnsLemmas

theorem Spec.aside_silent {α : Type} {program : Prog α} (hu : Uses Silent program) :
    Spec c.Aside program c fun _ => c.Aside :=
  Spec.silent hu .refl fun _ => .refl

theorem uses_operationRequiresRecovery : Uses Silent operationRequiresRecovery := by
  refine Uses.bind uses_pathExists fun present => ?_
  cases present with
  | false => trivial
  | true =>
    refine Uses.bind (uses_ask silent_read) fun answer => ?_
    rcases answer with _ | (_ | _) <;> trivial

theorem uses_recoveryPending : Uses Silent recoveryPending := by
  refine Uses.bind (uses_ask silent_loadRecovery) fun required => ?_
  cases required with
  | true => trivial
  | false =>
    refine Uses.bind uses_operationRequiresRecovery fun required => ?_
    cases required with
    | true => trivial
    | false => exact uses_pathExists

theorem uses_pendingOperation : Uses Silent pendingOperation.run := by
  refine Uses.bindExcept uses_readOptional fun content => ?_
  cases content with
  | none => trivial
  | some raw => exact Uses.bindExcept uses_check fun _ => trivial

theorem uses_acceptedAttribution {revision : Nat} : Uses Silent (acceptedAttribution revision) := by
  refine Uses.bind (uses_ask silent_read) fun answer => ?_
  rcases answer with _ | (_ | _) <;> trivial

theorem uses_getDesired : Uses Silent getDesired.run := by
  refine Uses.bindExcept (Uses.liftExcept uses_recoveryPending) fun pending => ?_
  cases pending with
  | true => trivial
  | false => exact uses_acceptedDesired

theorem uses_applyConfirmationStatus : Uses Silent applyConfirmationStatus.run := by
  refine Uses.bindExcept uses_acceptedDesired fun accepted => ?_
  refine Uses.bindExcept uses_pendingOperation fun pending => ?_
  have last (status : Option PendingStatus) : Uses Silent (do
      let lastAccepted ← acceptedAttribution accepted.revision
      return {
        enabled := accepted.applyConfirmation, acceptedRevision := accepted.revision
        pending := status, lastAccepted := lastAccepted } : Netd ConfirmationStatus).run :=
    Uses.bindExcept (Uses.liftExcept uses_acceptedAttribution) fun _ => trivial
  cases pending with
  | none => exact last none
  | some operation =>
    exact Uses.bindExcept (Uses.bindExcept uses_check fun _ => trivial) fun status => last status

theorem uses_restorationStatus : Uses Silent restorationStatus.run := by
  refine Uses.bindExcept (Uses.liftExcept (uses_ask silent_read)) fun ready => ?_
  refine Uses.bindExcept (Uses.liftExcept (uses_ask silent_read)) fun result => ?_
  refine Uses.bindExcept (Uses.liftExcept uses_pathExists) fun bootstrapped => ?_
  refine Uses.bindExcept (Uses.liftExcept uses_recoveryPending) fun pending => ?_
  refine Uses.bindExcept uses_check fun _ => ?_
  exact Uses.bindExcept uses_acceptedDesired fun _ => trivial

theorem uses_validateDesiredRequest [Base64] {input : Except String DesiredState} :
    Uses Silent (validateDesiredRequest input).run :=
  Uses.bindExcept uses_check fun _ => uses_checkProposed

theorem uses_wasDraftAccepted {revision : Option Nat} {draftVersion : Option String}
    {owner : Option Principal} : Uses Silent (wasDraftAccepted revision draftVersion owner).run := by
  refine Uses.bindExcept (Uses.liftExcept uses_recoveryPending) fun pending => ?_
  cases pending with
  | true => trivial
  | false =>
    refine Uses.bindExcept uses_check fun revision => Uses.bindExcept uses_check fun version => ?_
    refine Uses.bindExcept uses_check fun owner => Uses.bindExcept uses_acceptedDesired
      fun accepted => ?_
    split
    · trivial
    · refine Uses.bindExcept (Uses.liftExcept uses_acceptedAttribution) fun record => ?_
      cases record <;> trivial

/-! ## Requests -/

/-- A request that is refused, or that only looks. -/
theorem Spec.aside_of_silent {α β : Type} {program : Prog α} {answer : α → β}
    (hu : Uses Silent program) :
    Spec c.Aside (do return answer (← program) : Prog β) c fun _ => c.Aside :=
  Spec.aside_silent (Uses.bind hu fun _ => trivial)

theorem Spec.preservePreUpdate :
    Spec c.Aside Fwos.preservePreUpdate c fun _ => c.Aside := by
  refine (Spec.handlerReply (E := fun _ => c.Aside) (Q := fun _ => c.Aside) ?_).mono
    fun _ _ h => h.elim id id
  refine Steps.bind (R := fun present c' => c = c')
    (Steps.monadLift (Spec.silent uses_pathExists .refl fun _ => rfl)) ?_
  rintro present _ rfl
  cases present with
  | false => exact Steps.throw .refl
  | true =>
    refine Steps.bind (R := fun _ c' => c = c')
      (Steps.monadLift (Spec.silent uses_recoveryPending .refl fun _ => rfl)) ?_
    rintro pending _ rfl
    cases pending with
    | true => exact Steps.throw .refl
    | false =>
      refine Steps.bind (Steps.orReply (F := fun _ => c.Aside) (Q := fun _ => c.Aside) ?_
        fun _ _ => id) fun _ _ h => Steps.pure h
      refine Steps.seq (Steps.acceptedDesired .refl) (fun _ => id) (fun _ _ h => h ▸ .refl) ?_
      rintro accepted _ ⟨rfl, -⟩
      have kept (preserved : Option (Raw DesiredState)) :
          c.Aside { c with preUpdateAccepted := preserved } := ⟨c.live, preserved, rfl⟩
      refine Steps.bind (Steps.durableWrite .refl (fun _ => .refl) (fun _ => kept _)
        (Q := fun _ => c.Aside) (kept _)) ?_
      rintro ⟨⟩ c₁ h
      refine Steps.bind (R := fun _ => c.Aside)
        (Steps.silent (uses_ask (silent_remove rfl)) h (fun _ => h) fun _ => h) ?_
      exact fun _ _ h => Steps.pure h

theorem Spec.discardPreUpdate : Spec c.Aside Fwos.discardPreUpdate c fun _ => c.Aside := by
  refine (Spec.handlerReply (E := fun _ => c.Aside) (Q := fun _ => c.Aside) ?_).mono
    fun _ _ h => h.elim id id
  have dropped : c.Aside (c.set .preUpdateAccepted none) := ⟨c.live, none, rfl⟩
  refine Steps.bind (Steps.orReply (F := fun _ => c.Aside) (Q := fun _ => c.Aside)
    (Steps.durableRemove rfl .refl (fun _ => .refl) (fun _ => dropped) dropped) fun _ _ => id) ?_
  exact fun _ _ h => Steps.pure h

/-- The marker of a bootstrapped netd is there whenever it is looked for. -/
theorem Spec.bootstrapped (hb : c.bootstrapped = true) (hI : I c) :
    Spec I (Fwos.pathExists .bootstrapped) c fun present c' => present = true ∧ c = c' := by
  refine (Spec.pathExists rfl hI).mono ?_
  rintro present _ ⟨rfl, rfl⟩
  simp [Core.get, hb]

theorem Spec.optRefused {selection : Except String FirstBootOpt} (hb : c.bootstrapped = true) :
    Spec c.Aside (do applyAndPersistOpt (← check selection) : Netd Unit).run c
      fun _ => c.Aside := by
  refine (Steps.run (E := fun _ => c.Aside) (Q := fun _ => c.Aside) ?_).mono ?_
  · refine Steps.seq Steps.check (fun _ => id) (fun _ _ h => h ▸ .refl) ?_
    rintro opt _ ⟨rfl, -⟩
    refine Steps.bind (Steps.monadLift (Spec.bootstrapped hb .refl)) ?_
    rintro _ _ ⟨rfl, rfl⟩
    exact Steps.throw .refl
  · rintro (_ | _) c' h <;> exact h

theorem Spec.bootstrapRefused [Base64] {adminSubject : Option String}
    {desired : Option (Except String DesiredState)} (hb : c.bootstrapped = true) :
    Spec c.Aside (bootstrapApply adminSubject desired).run c fun _ => c.Aside := by
  refine (Steps.run (E := fun _ => c.Aside) (Q := fun _ => c.Aside) ?_).mono ?_
  · refine Steps.bind (Steps.monadLift (Spec.bootstrapped hb .refl)) ?_
    rintro _ _ ⟨rfl, rfl⟩
    exact Steps.throw .refl
  · rintro (_ | _) c' h <;> exact h

theorem Spec.refreshRefused (hb : c.bootstrapped = true) :
    Spec c.Aside refreshBootstrapExposure.run c fun _ => c.Aside := by
  refine (Steps.run (E := fun _ => c.Aside) (Q := fun _ => c.Aside) ?_).mono ?_
  · refine Steps.bind (R := fun _ c' => c = c')
      (Steps.monadLift (Spec.silent uses_pathExists .refl fun _ => rfl)) ?_
    rintro present _ rfl
    cases present with
    | true => exact Steps.pure .refl
    | false =>
      refine Steps.bind (Steps.monadLift (Spec.bootstrapped hb .refl)) ?_
      rintro _ _ ⟨rfl, rfl⟩
      exact Steps.pure .refl
  · rintro (_ | _) c' h <;> exact h

theorem uses_refreshIpv6 {prefixChanged : Bool} : Uses Quiet (refreshIpv6 prefixChanged).run := by
  refine Uses.bindExcept (Uses.liftExcept (uses_quiet uses_pathExists)) fun present => ?_
  cases present with
  | false => trivial
  | true =>
    refine Uses.bindExcept (Uses.liftExcept (uses_quiet uses_recoveryPending)) fun pending => ?_
    cases pending with
    | true => trivial
    | false =>
      refine Uses.bindExcept (Uses.bindExcept (uses_quiet uses_pendingOperation) fun operation => ?_)
        fun state => ?_
      · cases operation with
        | some operation => trivial
        | none => exact Uses.bindExcept (uses_quiet uses_acceptedDesired) fun _ => trivial
      · cases state with
        | none => trivial
        | some state =>
          refine Uses.bindExcept uses_network fun _ => ?_
          cases prefixChanged with
          | false => trivial
          | true =>
            refine Uses.bindExcept uses_network fun _ => ?_
            exact Uses.bindExcept (uses_quiet uses_setLanServicesReady) fun _ => trivial

theorem Spec.followIpv6 {prefixChanged : Bool} :
    Spec c.Aside (refreshIpv6 prefixChanged).run c fun _ => c.Aside := by
  refine (Steps.run (Steps.quiet uses_refreshIpv6 (fun _ => Core.aside_live)
    (E := fun _ => c.Aside) (Q := fun _ => c.Aside) (fun _ _ => Core.aside_live)
    fun _ _ => Core.aside_live)).mono ?_
  rintro (_ | _) c' h <;> exact h

theorem Spec.handleCmd_other [Base64] {cmd : Request} (hb : c.bootstrapped = true)
    (hw : ¬ (Turn.request cmd).Writes) : Spec c.Aside (handleCmd cmd) c fun _ => c.Aside := by
  cases cmd with
  | inspect => exact Spec.pure .refl
  | opt selection => exact Spec.bind (Spec.optRefused hb) fun _ _ h => Spec.pure h
  | bootstrapApply adminSubject desired =>
    exact Spec.bind (Spec.bootstrapRefused hb) fun _ _ h => Spec.pure h
  | getDesired => exact Spec.aside_of_silent uses_getDesired
  | getApplyConfirmation => exact Spec.aside_of_silent uses_applyConfirmationStatus
  | restorationStatus => exact Spec.aside_of_silent uses_restorationStatus
  | preservePreUpdate => exact Spec.bind Spec.preservePreUpdate fun _ _ h => Spec.pure h
  | discardPreUpdate => exact Spec.bind Spec.discardPreUpdate fun _ _ h => Spec.pure h
  | validateDesired desired => exact Spec.aside_of_silent uses_validateDesiredRequest
  | wasDraftAccepted revision draftVersion owner =>
    exact Spec.aside_of_silent uses_wasDraftAccepted
  | confirmApply revision confirmationId confirming => exact absurd trivial hw
  | restorePrevious applying => exact absurd trivial hw
  | applyDesired desired baseRevision applying draftVersion => exact absurd trivial hw

end TurnsLemmas

open TurnsLemmas

theorem Spec.turn_other [Base64] {turn : Turn} (hb : c.bootstrapped = true) (hw : ¬ turn.Writes) :
    Spec c.Aside turn.program c fun _ => c.Aside := by
  cases turn with
  | request cmd => exact Spec.bind (Spec.handleCmd_other hb hw) fun _ _ h => Spec.pure h
  | expire => exact absurd trivial hw
  | refreshExposure => exact Spec.bind (Spec.refreshRefused hb) fun _ _ h => Spec.pure h
  | followIpv6 prefixChanged => exact Spec.bind Spec.followIpv6 fun _ _ h => Spec.pure h

/-! ## A start -/

section Start

variable [Base64]

/-- The parts of `startup`: the preserved network is staged, the stored one is brought up, and
the preserved one restored. -/
def stageRequested (restore : Bool) : Netd Bool :=
  if restore then liftM stageUnreadableAcceptedRestoration else pure false

def bringBack (interrupted : Bool) : Netd Unit := do
  if interrupted then
    let _ ← attempt recoverInterruptedApply
  else if ← pathExists .desired then resumeAccepted
  else firstBoot

def bringUp : Netd Unit := do
  let interrupted ← applyInterrupted
  if interrupted then requireRecoveryGuard
  programHostPull
  if !(← pathExists .bootstrapped) then recoverIncompleteBootstrap
  bringBack interrupted

def finishRequested (restore restoredAtRecovery : Bool) : Netd Unit :=
  if restore then liftM (finishPreUpdateRestoration restoredAtRecovery) else pure ()


theorem bringUp_bind {next : Netd Unit} : (do bringUp; next) = (do
    let interrupted ← applyInterrupted
    if interrupted then requireRecoveryGuard
    programHostPull
    if !(← pathExists .bootstrapped) then recoverIncompleteBootstrap
    bringBack interrupted
    next) := by
  unfold bringUp
  simp only [bind_assoc]
  congr 1
  funext interrupted
  have rest (interrupted present : Bool) : (do
      if !present then recoverIncompleteBootstrap
      bringBack interrupted : Netd Unit) >>= (fun _ => next) = (do
        if !present then recoverIncompleteBootstrap
        bringBack interrupted
        next) := by
    cases present <;>
      simp only [Bool.not_true, Bool.not_false, Bool.false_eq_true, if_false, if_true, bind_assoc]
  cases interrupted <;> simp only [Bool.false_eq_true, if_false, if_true, bind_assoc, rest]

theorem bringBack_bind {next : Netd Unit} {interrupted : Bool} : (do bringBack interrupted; next) = (do
    if interrupted then
      let _ ← attempt recoverInterruptedApply
    else if ← pathExists .desired then resumeAccepted
    else firstBoot
    next) := by
  unfold bringBack
  cases interrupted
  · simp only [Bool.false_eq_true, if_false, bind_assoc]
    congr! 2 with present
    cases present <;> simp only [Bool.false_eq_true, if_false, if_true]
  · simp only [if_true, bind_assoc, pure_bind]

theorem startup_eq : startup = (do
    let restore ← restorePreUpdateRequested
    let restoredAtRecovery ← stageRequested restore
    bringUp
    finishRequested restore restoredAtRecovery : Netd Unit) := by
  simp only [bringUp_bind, bringBack_bind]
  unfold startup
  congr 1
  funext restore
  cases restore
  · rfl
  · rfl

end Start

/-- What a start without an apply in flight stores. -/
structure Core.Resumed (c c' : Core) : Prop extends Core.Frame c c' where
  desired : c'.desired = c.desired ∨ ∃ raw, c.desired = some (.parsed raw) ∧
    c'.desired = some (.parsed (complete c.live raw))
  previousAccepted : c'.previousAccepted = c.previousAccepted
  applyAttribution : c'.applyAttribution = c.applyAttribution
  journal : c'.applyOperation = none ∨ c'.applyOperation = c.applyOperation
  recoveryRequired : c'.recoveryRequired = c.recoveryRequired

theorem Core.Resumed.live {live : Live} : c.Resumed { c with live := live } :=
  ⟨⟨rfl, rfl, rfl, rfl, rfl⟩, .inl rfl, rfl, rfl, .inr rfl, rfl⟩

/-- The cores that a start passes through. -/
inductive Core.Starting (c : Core) : Core → Prop where
  | unchanged : c.Starting c
  | recovering {c' : Core} (h : c.guarded.Recovering c') : c.Starting c'
  | resuming {c' : Core} (hi : c.Idle) (h : c.Resumed c') : c.Starting c'

/-- How a start ends that comes to its socket. -/
inductive Core.Started (c : Core) : Core → Prop where
  | recovered {revision : Nat} {c' : Core} (h : c.guarded.Recovered revision c') : c.Started c'
  | guarded {c' : Core} (h : c.guarded.Recovering c') (hf : c'.recoveryRequired = true) :
      c.Started c'
  | resumed {c' : Core} (hi : c.Idle) (h : c.Resumed c') : c.Started c'

namespace TurnsLemmas

theorem Spec.applyInterrupted (hb : c.bootstrapped = true) (hI : I c) :
    Spec I Fwos.applyInterrupted c fun interrupted c' => c = c' ∧
      (interrupted = false → c.recoveryRequired = false → c.Idle) := by
  refine Spec.bind (Spec.bootstrapped hb hI) ?_
  rintro _ _ ⟨rfl, rfl⟩
  refine Spec.bind (Spec.operationRequiresRecovery hI) ?_
  rintro required _ ⟨rfl, hn, -⟩
  cases required with
  | true => exact Spec.pure ⟨rfl, nofun⟩
  | false =>
    refine Spec.bind (Spec.confirmationPending hI) ?_
    rintro pending _ ⟨rfl, hp⟩
    cases pending with
    | true => exact Spec.pure ⟨rfl, nofun⟩
    | false =>
      refine (Spec.pathExists rfl hI).mono ?_
      rintro present _ ⟨rfl, rfl⟩
      refine ⟨rfl, fun hpresent hf => ?_⟩
      have clear : c.Clear := ⟨hf, hn rfl, by simpa [Core.get] using hpresent⟩
      exact clear.idle (hp rfl)

theorem uses_programHostPull : Uses Silent programHostPull.run :=
  Uses.bindExcept uses_nftApply fun _ => uses_nftApply

theorem Steps.resumeAccepted [Base64] (hi : c.Idle) :
    Steps c.Starting (fun _ => c.Starting) Fwos.resumeAccepted c fun _ => c.Resumed := by
  have moved (live : Live) : c.Starting { c with live := live } := .resuming hi .live
  refine Steps.seq (Steps.readFile rfl .unchanged) (fun _ => id)
    (fun _ _ h => h ▸ .unchanged) ?_
  rintro content _ ⟨rfl, hd⟩
  refine Steps.seq Steps.parse (fun _ => id) (fun _ _ h => h ▸ .unchanged) ?_
  rintro raw _ ⟨rfl, rfl⟩
  refine Steps.bind (R := fun state c' => state = complete c.live raw ∧
      ∃ live, c' = { c with live := live })
    (Steps.apply moved (fun _ => moved) fun _ live => ⟨rfl, live, rfl⟩) ?_
  rintro _ _ ⟨rfl, live, rfl⟩
  have stored (journal : Option (Raw ApplyOperation))
      (hj : journal = none ∨ journal = c.applyOperation) : c.Resumed { c with
        live := live, desired := some (.parsed (complete c.live raw))
        applyOperation := journal } :=
    ⟨⟨rfl, rfl, rfl, rfl, rfl⟩, .inr ⟨raw, hd, rfl⟩, rfl, rfl, hj, rfl⟩
  have kept : c.Resumed { c with
      live := live, desired := some (.parsed (complete c.live raw)) } := stored _ (.inr rfl)
  refine Steps.bind (Steps.durableWrite (moved live) (fun _ => moved live)
    (fun _ => .resuming hi kept) (Q := fun _ c' => c' = { c with
      live := live, desired := some (.parsed (complete c.live raw)) }) rfl) ?_
  rintro ⟨⟩ _ rfl
  dsimp only
  have finish : Steps c.Starting (fun _ => c.Starting) (do
      if ← pathExists .applyOperation then
        if !(← operationRequiresRecovery) then
          let _ ← attempt (durableRemove .applyOperation) : Netd Unit)
      { c with live := live, desired := some (.parsed (complete c.live raw)) }
      fun _ => c.Resumed := by
    refine Steps.bind (R := fun _ => Eq { c with
        live := live, desired := some (.parsed (complete c.live raw)) })
      (Steps.monadLift (Spec.silent uses_pathExists (.resuming hi kept) fun _ => rfl)) ?_
    rintro present _ rfl
    cases present with
    | false => exact Steps.pure kept
    | true =>
      refine Steps.bind (R := fun _ => Eq { c with
          live := live, desired := some (.parsed (complete c.live raw)) })
        (Steps.monadLift (Spec.silent uses_operationRequiresRecovery (.resuming hi kept)
          fun _ => rfl)) ?_
      rintro required _ rfl
      cases required with
      | true => exact Steps.pure kept
      | false =>
        refine Steps.bind (Steps.outcome (E := fun _ => c.Resumed) (Q := fun _ => c.Resumed)
          (Steps.durableRemove rfl (.resuming hi kept) (fun _ => kept)
            (fun _ => stored none (.inl rfl)) (stored none (.inl rfl)))) ?_
        rintro (error | ⟨⟩) c' h <;> exact Steps.pure h
  refine Steps.bind (R := fun _ => Eq { c with
      live := live, desired := some (.parsed (complete c.live raw)) })
    (Steps.monadLift (Spec.silent uses_pathExists (.resuming hi kept) fun _ => rfl)) ?_
  rintro present _ rfl
  cases present with
  | false => exact finish
  | true =>
    refine Steps.bind (R := fun _ => Eq { c with
        live := live, desired := some (.parsed (complete c.live raw)) })
      (Steps.monadLift (Spec.silent uses_recoveryPending (.resuming hi kept) fun _ => rfl)) ?_
    rintro pending _ rfl
    cases pending with
    | true => exact finish
    | false =>
      refine Steps.bind (R := fun _ => Eq { c with
          live := live, desired := some (.parsed (complete c.live raw)) })
        (Steps.silent uses_setLanServicesReady (.resuming hi kept) (fun _ => .resuming hi kept)
          fun _ => rfl) ?_
      rintro generation _ rfl
      exact finish

theorem uses_programFirstBootNft {nic : String} {cidrs : List String} :
    Uses Silent (programFirstBootNft nic cidrs).run := uses_nftApply

theorem uses_applyOpt {opt : FirstBootOpt} : Uses Quiet (applyOpt opt).run := by
  have select : Uses Quiet (do
      network (.selectOpt opt)
      let addrs ← ExceptT.mk (ask (.ifaceCidrs opt.nic))
      programFirstBootNft opt.nic addrs : Netd Unit).run := by
    refine Uses.bindExcept uses_network fun _ => ?_
    exact Uses.bindExcept (uses_quiet (uses_ask silent_ifaceCidrs)) fun _ =>
      uses_quiet uses_programFirstBootNft
  refine Uses.bindExcept uses_network fun _ => ?_
  refine Uses.bindExcept (Uses.liftExcept (uses_quiet uses_loadOpt)) fun prev => ?_
  cases prev with
  | none => exact select
  | some prev =>
    dsimp only
    split
    · exact Uses.bindExcept uses_teardownOpt fun _ => select
    · exact select

theorem uses_firstBoot : Uses Quiet firstBoot.run := by
  refine Uses.bindExcept (uses_quiet uses_programFirstBootNft) fun _ => ?_
  refine Uses.bindExcept (Uses.liftExcept (uses_quiet uses_loadOpt)) fun opt => ?_
  cases opt with
  | none => trivial
  | some opt => exact uses_applyOpt

theorem Steps.bringBack_recovering [Base64] :
    Steps c.Starting (fun _ => c.Starting) (bringBack true) c.guarded fun _ => c.Started := by
  refine Steps.bind (Steps.outcome (Steps.recoverInterruptedApply.weaken
    (fun _ => .recovering) (fun _ _ => id) fun _ _ => id)) ?_
  rintro (error | revision) c' h
  · exact Steps.pure (.guarded h.1 h.2)
  · exact Steps.pure (.recovered h)

theorem Steps.bringBack_idle [Base64] (hi : c.Idle) :
    Steps c.Starting (fun _ => c.Starting) (bringBack false) c fun _ => c.Started := by
  refine Steps.bind (R := fun _ c' => c = c')
    (Steps.monadLift (Spec.silent uses_pathExists .unchanged fun _ => rfl)) ?_
  rintro present _ rfl
  cases present with
  | true =>
    exact (Steps.resumeAccepted hi).mono fun _ _ h => .resumed hi h
  | false =>
    have moved (live : Live) : c.Starting { c with live := live } := .resuming hi .live
    exact Steps.quiet uses_firstBoot moved (fun _ => moved) fun _ _ => .resumed hi .live

/-- Past the guard, a start of a bootstrapped netd goes on without it only if nothing is in
flight. -/
theorem Steps.bringUp_rest [Base64] {interrupted : Bool} (hb : c.bootstrapped = true)
    (hi : interrupted = false → c.Idle) :
    Steps c.Starting (fun _ => c.Starting) (do
      programHostPull
      if !(← pathExists .bootstrapped) then recoverIncompleteBootstrap
      bringBack interrupted) (if interrupted then c.guarded else c) fun _ => c.Started := by
  have passed : c.Starting (if interrupted then c.guarded else c) := by
    cases interrupted with
    | true => exact .recovering .unchanged
    | false => exact .unchanged
  have hb' : (if interrupted then c.guarded else c).bootstrapped = true := by
    cases interrupted <;> exact hb
  refine Steps.bind (R := fun _ => Eq (if interrupted then c.guarded else c))
    (Steps.silent uses_programHostPull passed (fun _ => passed) fun _ => rfl) ?_
  rintro ⟨⟩ _ rfl
  refine Steps.bind (Steps.monadLift (Spec.bootstrapped hb' passed)) ?_
  rintro _ _ ⟨rfl, rfl⟩
  cases interrupted with
  | true => exact Steps.bringBack_recovering
  | false => exact Steps.bringBack_idle (hi rfl)

theorem Steps.bringUp [Base64] (hb : c.bootstrapped = true) (hf : c.recoveryRequired = false) :
    Steps c.Starting (fun _ => c.Starting) Fwos.bringUp c fun _ => c.Started := by
  refine Steps.bind (Steps.monadLift (Spec.applyInterrupted hb .unchanged)) ?_
  rintro interrupted _ ⟨rfl, hi⟩
  have rest := Steps.bringUp_rest hb fun h : interrupted = false => hi h hf
  cases interrupted with
  | false => exact rest
  | true =>
    refine Steps.seq (Steps.requireRecoveryGuard .unchanged (.recovering .unchanged)) (fun _ => id)
      (fun _ _ h => h ▸ .recovering .unchanged) ?_
    rintro ⟨⟩ _ rfl
    exact rest

end TurnsLemmas

/-- A start of a bootstrapped netd that no Host update asks to restore an earlier network. -/
theorem Steps.startup [Base64] (hb : c.bootstrapped = true) (hr : c.restorePreUpdate = false)
    (hf : c.recoveryRequired = false) :
    Steps c.Starting (fun _ => c.Starting) Fwos.startup c fun _ => c.Started := by
  rw [startup_eq]
  refine Steps.bind (R := fun restore c' => restore = false ∧ c = c') (Steps.monadLift ?_) ?_
  · refine Spec.bind (Spec.bootstrapped hb .unchanged) ?_
    rintro _ _ ⟨rfl, rfl⟩
    refine (Spec.pathExists rfl .unchanged).mono ?_
    rintro present _ ⟨rfl, rfl⟩
    simp [Core.get, hr]
  rintro _ _ ⟨rfl, rfl⟩
  refine Steps.bind (R := fun _ c' => c = c') (Steps.pure rfl) ?_
  rintro restoredAtRecovery _ rfl
  exact Steps.bind (Steps.bringUp hb hf) fun _ _ h => Steps.pure h

end Fwos
