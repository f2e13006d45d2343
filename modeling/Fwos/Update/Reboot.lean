import Fwos.Update.Controller

/-!
# Reboot requests and staging

Every request of a client is served by a thread of its own. A thread's step is one
call, or one use of the operation lock; the steps of the threads interleave in any
order.

* `no_stage_at_reboot`: in every run in which no stage claims the operation between
  a reboot request's release of the lock and its call of `systemctl reboot`, the
  reboot finds no stage running and none begun since the request preserved the
  Accepted network, and what was staged before is recorded.
* `stage_at_reboot`: the lock is released before the reply and the reboot, so that
  a stage can begin there.
-/

namespace Fwos.Update

open Rust

/-! ## Threads -/

/-- What a stage has done so far. -/
structure StageLog where
  switchBegun : Bool := false
  recorded : Bool := false
  pendingWritten : Bool := false
deriving DecidableEq, Repr

/-- Where the thread of a request is. A number is the count of the stages that had
begun when the Accepted network was preserved. -/
inductive Thread where
  | rebootRequested
  /-- It holds the operation lock. -/
  | rebootLocked
  | rebootPreserved (begun : Nat)
  /-- The lock is released; the reply comes next. -/
  | rebootUnlocked (begun : Nat)
  /-- The reply is on the socket; `systemctl reboot` comes next. -/
  | rebootAnswered (begun : Nat)
  | stageRequested (image : String)
  /-- It holds the operation lock. -/
  | stageClaiming (image : String)
  | staging (image : String) (activity : Activity) (log : StageLog)
  | stageFinishing (image : String) (result : Except String Unit) (log : StageLog)
  | staged (result : Except String Unit) (log : StageLog)
  | rollbackRequested
  /-- It holds the operation lock. -/
  | rollbackRunning (activity : Activity)
  | statusRequested
  | ended

namespace Thread

def stages : Thread → Bool
  | .staging _ _ _ | .stageFinishing _ _ _ => true
  | _ => false

/-- Between the release of the lock and the reboot. -/
def rebootGranted : Thread → Bool
  | .rebootUnlocked _ | .rebootAnswered _ => true
  | _ => false

end Thread

inductive ClientRequest where
  | startStage (image : String)
  | reboot
  | rollback
  | status
deriving DecidableEq, Repr

def ClientRequest.thread : ClientRequest → Thread
  | .startStage image => .stageRequested image
  | .reboot => .rebootRequested
  | .rollback => .rollbackRequested
  | .status => .statusRequested

structure Server where
  host : Host := {}
  operation : Operation := .idle
  /-- The thread that holds the operation lock. -/
  lock : Option Nat := none
  /-- How many stages have begun. -/
  begun : Nat := 0
  threads : List Thread := []

structure ThreadChoice where
  bootstrapped : Bool := true
  call : StepChoice := {}

inductive ServerEvent where
  | request (request : ClientRequest)
  | step (thread : Nat) (choice : ThreadChoice)

namespace StageLog

def after (log : StageLog) (choice : StepChoice) : Activity → StageLog
  | .bootcSwitch _ _ => { log with switchBegun := true }
  | .writeUpdateRecord _ => { log with recorded := !choice.fails }
  | .writePending _ => { log with pendingWritten := !choice.fails }
  | _ => log

end StageLog

namespace Server

def become (server : Server) (i : Nat) (thread : Thread) : Server :=
  { server with threads := server.threads.set i thread }

/-- One step of a thread. A thread that waits for the lock does nothing while
another holds it. -/
def stepThread (server : Server) (i : Nat) (choice : ThreadChoice) : Thread → Server
  | .rebootRequested =>
      if !choice.bootstrapped then server.become i .ended
      else if server.lock.isSome then server
      else { server with lock := some i }.become i .rebootLocked
  | .rebootLocked =>
      -- Where it is idle, `refresh_pre_update` preserves the Accepted network.
      match server.operation.checkIdle with
      | .error _ => { server with lock := none }.become i .ended
      | .ok () => server.become i (.rebootPreserved server.begun)
  | .rebootPreserved begun => { server with lock := none }.become i (.rebootUnlocked begun)
  | .rebootUnlocked begun =>
      if choice.call.fails then server.become i .ended
      else server.become i (.rebootAnswered begun)
  | .rebootAnswered _ => server.become i .ended
  | .stageRequested image =>
      if !choice.bootstrapped || !validReference image then server.become i .ended
      else if server.lock.isSome then server
      else { server with lock := some i }.become i (.stageClaiming image)
  | .stageClaiming image =>
      match beginStaging server.operation image
          (if choice.call.fails then {} else server.host.deployments) with
      | .error _ => { server with lock := none }.become i .ended
      | .ok operation =>
          { server with operation := operation, lock := none, begun := server.begun + 1 }.become i
            (.staging image (.resolvable image) {})
  | .staging image activity log =>
      let (host, progress) := server.host.step choice.call activity
      { server with host := host }.become i (match progress with
        | .next activity' => .staging image activity' (log.after choice.call activity)
        | .finished result => .stageFinishing image result (log.after choice.call activity))
  | .stageFinishing image result log =>
      if server.lock.isSome then server
      else { server with operation := finishStaging image result }.become i (.staged result log)
  | .staged _ _ => server
  | .rollbackRequested =>
      if !choice.bootstrapped then server.become i .ended
      else if server.lock.isSome then server
      else match server.operation.checkIdle with
        | .error _ => server.become i .ended
        | .ok () => { server with lock := some i }.become i (.rollbackRunning .rollbackStatus)
  | .rollbackRunning activity =>
      let (host, progress) := server.host.step choice.call activity
      match progress with
      | .next activity' => { server with host := host }.become i (.rollbackRunning activity')
      | .finished _ => { server with host := host, lock := none }.become i .ended
  | .statusRequested => if server.lock.isSome then server else server.become i .ended
  | .ended => server

def step (server : Server) : ServerEvent → Server
  | .request request => { server with threads := server.threads ++ [request.thread] }
  | .step i choice =>
      match server.threads[i]? with
      | some thread => server.stepThread i choice thread
      | none => server

def run (server : Server) (events : List ServerEvent) : Server := events.foldl step server

/-- No stage claims the operation while a reboot is granted. -/
def harmless (server : Server) : ServerEvent → Bool
  | .step i _ =>
      match server.threads[i]? with
      | some (.stageClaiming _) => !server.threads.any (·.rebootGranted)
      | _ => true
  | .request _ => true

/-- Every step of a run is harmless in the state in which it happens. -/
def harmlessRun (server : Server) : List ServerEvent → Bool
  | [] => true
  | event :: rest => server.harmless event && (server.step event).harmlessRun rest

end Server

/-! ## What holds of every thread -/

/-- What a stage has written when a call comes next. -/
def StageLog.Sound (log : StageLog) : Activity → Prop
  | .resolvable _ | .preservePreUpdate _ | .statusBefore _ | .bootcSwitch _ _
  | .statusAfter _ _ | .writeUpdateRecord _ => True
  | .openPending _ | .writePending _ => log.recorded = true
  | _ => False

/-- A stage that returns no error has written both records. -/
def StageLog.Complete (log : StageLog) (result : Except String Unit) : Prop :=
  result = .ok () → log.recorded = true ∧ log.pendingWritten = true

/-- What one step of a stage keeps of its log. -/
theorem StageLog.Sound.step {log : StageLog} {activity : Activity} (h : log.Sound activity)
    (host : Host) (choice : StepChoice) :
    match (host.step choice activity).2 with
    | .next activity' => (log.after choice activity).Sound activity'
    | .finished result => (log.after choice activity).Complete result := by
  cases activity with
  | resolvable image | preservePreUpdate image | statusBefore image =>
    simp only [Host.step]
    cases choice.fails <;> simp [StageLog.Sound, Complete, after]
  | bootcSwitch image before =>
    simp only [Host.step]
    cases choice.fails <;> simp [StageLog.Sound, Complete]
  | statusAfter image before =>
    simp only [Host.step]
    cases choice.fails <;> cases host.deployments.staged.isEmpty <;>
      simp [StageLog.Sound, Complete]
  | writeUpdateRecord record =>
    simp only [Host.step, after]
    cases choice.fails <;> simp [StageLog.Sound, Complete]
  | openPending image =>
    simp only [Host.step, after]
    cases choice.fails
    · exact h
    · simp [Complete]
  | writePending image =>
    simp only [Host.step, after]
    cases choice.fails
    · exact fun _ => ⟨h, rfl⟩
    · simp [Complete]
  | statusStaged | rollbackStatus | cancelRollback | removeManualRollback
  | writeManualRollback | bootcRollback | withdrawManualRollback | removePending =>
    exact h.elim

namespace Server

/-- What holds of the thread of a number. -/
def ThreadSound (server : Server) (i : Nat) : Thread → Prop
  | .rebootLocked | .stageClaiming _ | .rollbackRunning _ => server.lock = some i
  | .rebootPreserved begun =>
      server.lock = some i ∧ server.operation.isStaging = false ∧ server.begun = begun
  | .rebootUnlocked begun | .rebootAnswered begun =>
      server.operation.isStaging = false ∧ server.begun = begun
  | .staging _ activity log => server.operation.isStaging = true ∧ log.Sound activity
  | .stageFinishing _ result log => server.operation.isStaging = true ∧ log.Complete result
  | .staged result log => log.Complete result
  | _ => True

structure Sound (server : Server) : Prop where
  threads : ∀ i thread, server.threads[i]? = some thread → server.ThreadSound i thread
  oneStage : ∀ (i j : Nat) (a b : Thread), server.threads[i]? = some a →
    server.threads[j]? = some b → a.stages = true → b.stages = true → i = j

theorem ThreadSound.isStaging {server : Server} {i : Nat} {thread : Thread}
    (h : server.ThreadSound i thread) (hs : thread.stages = true) :
    server.operation.isStaging = true := by
  cases thread with
  | staging | stageFinishing => exact h.1
  | _ => cases hs

/-- What a step of another thread must leave alone. -/
theorem ThreadSound.frame {server server' : Server} {i : Nat} {thread : Thread}
    (h : server.ThreadSound i thread)
    (hlock : server.lock = some i → server'.lock = some i)
    (hop : thread.stages = true ∨ thread.rebootGranted = true ∨ server.lock = some i →
      server'.operation.isStaging = server.operation.isStaging)
    (hbegun : thread.rebootGranted = true ∨ server.lock = some i →
      server'.begun = server.begun) : server'.ThreadSound i thread := by
  cases thread with
  | rebootLocked | stageClaiming | rollbackRunning => exact hlock h
  | rebootPreserved begun =>
    obtain ⟨hl, hs, hb⟩ := h
    exact ⟨hlock hl, (hop (.inr (.inr hl))).trans hs, (hbegun (.inr hl)).trans hb⟩
  | rebootUnlocked begun | rebootAnswered begun =>
    exact ⟨(hop (.inr (.inl rfl))).trans h.1, (hbegun (.inl rfl)).trans h.2⟩
  | staging | stageFinishing => exact ⟨(hop (.inl rfl)).trans h.1, h.2⟩
  | staged => exact h
  | rebootRequested | stageRequested | rollbackRequested | statusRequested | ended => trivial

/-- A thread moves on: it is sound in the new state, and no other one is disturbed. -/
theorem Sound.become {server server' : Server} {i : Nat} {thread thread' : Thread}
    (h : server.Sound) (hi : server.threads[i]? = some thread)
    (ht : server'.threads = server.threads) (hnew : server'.ThreadSound i thread')
    (hframe : ∀ j other, j ≠ i → server.threads[j]? = some other → server.ThreadSound j other →
      server'.ThreadSound j other)
    (hstage : thread'.stages = true → thread.stages = true ∨ server.operation.isStaging = false) :
    (server'.become i thread').Sound := by
  have hget (j : Nat) (other : Thread) (hj : (server'.become i thread').threads[j]? = some other) :
      (j = i ∧ other = thread') ∨ (j ≠ i ∧ server.threads[j]? = some other) := by
    simp only [Server.become, ht, List.getElem?_set] at hj
    split_ifs at hj with hij hlen
    · exact .inl ⟨hij.symm, (Option.some.inj hj).symm⟩
    · exact .inr ⟨Ne.symm hij, hj⟩
  have hother (j : Nat) (other : Thread) (hj : server.threads[j]? = some other)
      (hne : j ≠ i) (hs : thread'.stages = true) (ho : other.stages = true) : False := by
    rcases hstage hs with ha | hb
    · exact hne (h.oneStage j i other thread hj hi ho ha)
    · rw [(h.threads j other hj).isStaging ho] at hb
      cases hb
  constructor
  · intro j other hj
    rcases hget j other hj with ⟨rfl, rfl⟩ | ⟨hne, hj⟩
    · exact hnew
    · exact hframe j other hne hj (h.threads j other hj)
  · intro j k a b hj hk ha hb
    rcases hget j a hj with ⟨rfl, rfl⟩ | ⟨hnej, hj'⟩ <;>
      rcases hget k b hk with ⟨rfl, rfl⟩ | ⟨hnek, hk'⟩
    · rfl
    · exact (hother k b hk' hnek ha hb).elim
    · exact (hother j a hj' hnej hb ha).elim
    · exact h.oneStage j k a b hj' hk' ha hb

/-- The thread takes the free lock. -/
theorem Sound.lock {server : Server} {i : Nat} {thread thread' : Thread} (h : server.Sound)
    (hi : server.threads[i]? = some thread) (hl : ¬ server.lock.isSome = true)
    (hnew : ThreadSound { server with lock := some i } i thread')
    (hstage : thread'.stages = false) :
    ({ server with lock := some i }.become i thread').Sound := by
  have hl : server.lock = none := by simpa using hl
  refine h.become hi rfl hnew (fun j other _ _ ho => ho.frame ?_ (fun _ => rfl) fun _ => rfl) ?_
  · intro hj
    rw [hl] at hj
    cases hj
  · simp [hstage]

/-- The thread that holds the lock releases it. -/
theorem Sound.unlock {server : Server} {host : Host} {i : Nat} {thread thread' : Thread}
    (h : server.Sound) (hi : server.threads[i]? = some thread) (hl : server.lock = some i)
    (hnew : ThreadSound { server with lock := none, host := host } i thread')
    (hstage : thread'.stages = false) :
    ({ server with lock := none, host := host }.become i thread').Sound := by
  refine h.become hi rfl hnew (fun j other hne _ ho => ho.frame ?_ (fun _ => rfl) fun _ => rfl) ?_
  · intro hj
    exact absurd (Option.some.inj (hj.symm.trans hl)) hne
  · simp [hstage]

/-- The thread moves on and leaves the lock and the operation alone. -/
theorem Sound.move {server : Server} {host : Host} {i : Nat} {thread thread' : Thread}
    (h : server.Sound) (hi : server.threads[i]? = some thread)
    (hnew : ThreadSound { server with host := host } i thread')
    (hstage : thread'.stages = true → thread.stages = true) :
    ({ server with host := host }.become i thread').Sound :=
  h.become hi rfl hnew (fun _ _ _ _ ho => ho.frame id (fun _ => rfl) fun _ => rfl)
    fun hs => .inl (hstage hs)

theorem checkIdle_iff {operation : Operation} :
    operation.checkIdle = .ok () ↔ operation.isStaging = false := by
  cases operation <;> simp [Operation.checkIdle, Operation.isStaging]

theorem Sound.stepThread {server : Server} {i : Nat} {choice : ThreadChoice} {thread : Thread}
    (h : server.Sound) (hi : server.threads[i]? = some thread)
    (hf : server.harmless (.step i choice) = true) :
    (server.stepThread i choice thread).Sound := by
  have hsound := h.threads i thread hi
  cases thread with
  | rebootRequested =>
    simp only [Server.stepThread]
    split_ifs with hb hl
    · exact h.move hi trivial (by simp [Thread.stages])
    · exact h
    · exact h.lock hi hl rfl rfl
  | rebootLocked =>
    simp only [Server.stepThread]
    cases hc : server.operation.checkIdle with
    | error => exact h.unlock hi hsound trivial rfl
    | ok =>
      exact h.move hi ⟨hsound, checkIdle_iff.mp hc, rfl⟩ (by simp [Thread.stages])
  | rebootPreserved begun => exact h.unlock hi hsound.1 hsound.2 rfl
  | rebootUnlocked begun =>
    simp only [Server.stepThread]
    split_ifs
    · exact h.move hi trivial (by simp [Thread.stages])
    · exact h.move hi hsound (by simp [Thread.stages])
  | rebootAnswered begun => exact h.move hi trivial (by simp [Thread.stages])
  | stageRequested image =>
    simp only [Server.stepThread]
    split_ifs with hb hl
    · exact h.move hi trivial (by simp [Thread.stages])
    · exact h
    · exact h.lock hi hl rfl rfl
  | stageClaiming image =>
    simp only [Server.stepThread, beginStaging]
    cases hc : server.operation.checkIdle with
    | error => exact h.unlock hi hsound trivial rfl
    | ok =>
      have hidle := checkIdle_iff.mp hc
      simp only [harmless, hi, Bool.not_eq_true', List.any_eq_false] at hf
      refine h.become hi rfl ⟨rfl, trivial⟩ ?_ fun _ => .inr hidle
      -- No other thread holds the lock, stages, or has a reboot granted.
      intro j other hne hj ho
      have hgranted := hf other (List.mem_of_getElem? hj)
      have hlock : server.lock ≠ some j := fun hl => hne (Option.some.inj (hl.symm.trans hsound))
      have hstages : other.stages ≠ true := fun hs => by
        rw [ho.isStaging hs] at hidle
        cases hidle
      refine ho.frame (fun hl => absurd hl hlock) ?_ ?_
      · rintro (hs | hg | hl)
        · exact absurd hs hstages
        · exact absurd hg hgranted
        · exact absurd hl hlock
      · rintro (hg | hl)
        · exact absurd hg hgranted
        · exact absurd hl hlock
  | staging image activity log =>
    obtain ⟨hop, hlog⟩ := hsound
    have hstep := hlog.step server.host choice.call
    simp only [Server.stepThread]
    generalize server.host.step choice.call activity = result at hstep
    obtain ⟨host, progress⟩ := result
    cases progress with
    | next activity' => exact h.move hi ⟨hop, hstep⟩ fun _ => rfl
    | finished result => exact h.move hi ⟨hop, hstep⟩ fun _ => rfl
  | stageFinishing image result log =>
    simp only [Server.stepThread]
    split_ifs with hl
    · exact h
    · have hidle : (finishStaging image result).isStaging = false := by
        cases result <;> rfl
      have hnone : server.lock = none := by simpa using hl
      refine h.become hi rfl hsound.2 ?_ fun hs => by simp [Thread.stages] at hs
      intro j other hne hj ho
      refine ho.frame id ?_ fun _ => rfl
      rintro (hs | hg | hlock)
      · exact absurd (h.oneStage j i other _ hj hi hs rfl) hne
      · cases other with
        | rebootUnlocked begun | rebootAnswered begun => exact hidle.trans ho.1.symm
        | _ => cases hg
      · rw [hnone] at hlock
        cases hlock
  | staged result log => exact h
  | rollbackRequested =>
    simp only [Server.stepThread]
    split_ifs with hb hl
    · exact h.move hi trivial (by simp [Thread.stages])
    · exact h
    · cases server.operation.checkIdle with
      | error => exact h.move hi trivial (by simp [Thread.stages])
      | ok => exact h.lock hi hl rfl rfl
  | rollbackRunning activity =>
    simp only [Server.stepThread]
    generalize server.host.step choice.call activity = result
    obtain ⟨host, progress⟩ := result
    cases progress with
    | next activity' => exact h.move hi hsound (by simp [Thread.stages])
    | finished result => exact h.unlock hi hsound trivial rfl
  | statusRequested =>
    simp only [Server.stepThread]
    split_ifs
    · exact h
    · exact h.move hi trivial (by simp [Thread.stages])
  | ended => exact h

theorem Sound.step {server : Server} {event : ServerEvent} (h : server.Sound)
    (hf : server.harmless event = true) : (server.step event).Sound := by
  cases event with
  | step i choice =>
    simp only [Server.step]
    split
    next thread hi => exact h.stepThread hi hf
    · exact h
  | request request =>
    have hnew : ∀ i, server.ThreadSound i request.thread ∧ request.thread.stages = false := by
      intro i
      cases request <;> exact ⟨trivial, rfl⟩
    have hget (j : Nat) (other : Thread)
        (hj : (server.threads ++ [request.thread])[j]? = some other) :
        server.threads[j]? = some other ∨ other = request.thread := by
      rw [List.getElem?_append] at hj
      split_ifs at hj with hlt
      · exact .inl hj
      · rw [List.getElem?_singleton] at hj
        split_ifs at hj
        exact .inr (Option.some.inj hj).symm
    constructor
    · intro j other hj
      rcases hget j other hj with hj | rfl
      · exact h.threads j other hj
      · exact (hnew j).1
    · intro j k a b hj hk ha hb
      rcases hget j a hj with hj | rfl
      · rcases hget k b hk with hk | rfl
        · exact h.oneStage j k a b hj hk ha hb
        · rw [(hnew 0).2] at hb
          cases hb
      · rw [(hnew 0).2] at ha
        cases ha

theorem Sound.run {server : Server} {events : List ServerEvent} (h : server.Sound)
    (hf : server.harmlessRun events = true) : (server.run events).Sound := by
  induction events generalizing server with
  | nil => exact h
  | cons event rest ih =>
    simp only [harmlessRun, Bool.and_eq_true] at hf
    exact ih (h.step hf.1) hf.2

/-- **No reboot during staging**, in every run in which no stage claims the
operation while a reboot is granted: where the next call of a thread is
`systemctl reboot`, no stage runs, none has begun since the Accepted network was
preserved, and every stage whose `bootc switch` has begun has returned, with both
records written or an error. -/
theorem no_stage_at_reboot {host : Host} {events : List ServerEvent} {i begun : Nat}
    (hf : harmlessRun { host := host } events = true)
    (hi : (run { host := host } events).threads[i]? = some (.rebootAnswered begun)) :
    (run { host := host } events).operation.isStaging = false ∧
      (run { host := host } events).begun = begun ∧
      ∀ thread ∈ (run { host := host } events).threads, thread.stages = false ∧
        ∀ result log, thread = .staged result log →
          log.switchBegun = true → log.Complete result := by
  have h : Sound { host := host } := ⟨by simp, by simp⟩
  have hend := h.run hf
  obtain ⟨hop, hbegun⟩ := hend.threads i _ hi
  refine ⟨hop, hbegun, fun thread hm => ?_⟩
  obtain ⟨j, hj⟩ := List.mem_iff_getElem?.mp hm
  have hsound := hend.threads j thread hj
  constructor
  · rw [← Bool.not_eq_true]
    intro hs
    rw [hsound.isStaging hs] at hop
    cases hop
  · rintro result log rfl -
    exact hsound

/-- The booted image, before anything is staged. -/
def bootedHost : Host := { deployments := { booted := ⟨"reg/fwos:old", "sha256:a"⟩ } }

def stagingSteps (thread : Nat) : List ServerEvent :=
  [ .step thread {}, .step thread {}, .step thread {},
    .step thread { call := { staged := ⟨"reg/fwos:next", "sha256:b"⟩ } } ]

/-- A stage claims the operation. A reboot request waits for the lock, and is refused while the
stage runs. The stage ends; the reboot of another client is granted while a second stage waits
for the lock, takes it and has not claimed the operation. -/
def stageThenReboot : List ServerEvent :=
  [ .request (.startStage "reg/fwos:next"), .request .reboot,
    .step 0 {}, .step 1 {}, .step 0 {}, .step 1 {} ] ++ stagingSteps 0 ++
  [ .step 1 {}, .step 0 {}, .step 0 {}, .step 0 {}, .step 0 {}, .step 0 {},
    .request .reboot, .request (.startStage "reg/fwos:third"),
    .step 2 {}, .step 3 {}, .step 2 {}, .step 2 {}, .step 3 {}, .step 2 {} ]

/-- The state in which the next call of the third client is `systemctl reboot`. -/
def stagedServer : Server := run { host := bootedHost } stageThenReboot

theorem no_stage_at_reboot_staged :
    stagedServer.operation.isStaging = false ∧ stagedServer.begun = 1 ∧
      stagedServer.threads[1]? = some .ended ∧
      stagedServer.threads[3]? = some (.stageClaiming "reg/fwos:third") ∧
      ∃ log, stagedServer.threads[0]? = some (.staged (.ok ()) log) ∧ log.switchBegun = true ∧
        log.recorded = true ∧ log.pendingWritten = true := by
  obtain ⟨idle, begun, stages⟩ :=
    @no_stage_at_reboot bootedHost stageThenReboot 2 1 (by decide +kernel) rfl
  have returned : stagedServer.threads[0]? = some (.staged (.ok ()) ⟨true, true, true⟩) := rfl
  have complete := (stages _ (List.mem_of_getElem? returned)).2 (.ok ()) _ rfl rfl rfl
  exact ⟨idle, begun, rfl, rfl, _, returned, rfl, complete⟩

/-- A reboot request up to its reply; a stage begins after the lock was released. -/
def rebootAnswer : List ServerEvent :=
  [ .request .reboot, .step 0 {}, .step 0 {}, .step 0 {},
    .request (.startStage "reg/fwos:next"), .step 1 {}, .step 1 {} ] ++
  stagingSteps 1 ++ [.step 0 {}]

/-- The lock is released before the reply: a stage begins there, and the reboot
comes between its `bootc switch` and its records. -/
theorem stage_at_reboot :
    (run {} rebootAnswer).threads[0]? = some (.rebootAnswered 0) ∧
      (run {} rebootAnswer).operation.isStaging = true ∧
      (run {} rebootAnswer).begun = 1 ∧
      (run {} rebootAnswer).host.deployments.staged.image = "reg/fwos:next" ∧
      (run {} rebootAnswer).host.updateRecord = none ∧
      (run {} rebootAnswer).host.pending = none := by
  refine ⟨rfl, by decide +kernel, by decide +kernel, by decide +kernel, by decide +kernel,
    by decide +kernel⟩

end Server

end Fwos.Update
