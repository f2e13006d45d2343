import Fwos.Ui.Custody

/-!
# A change of a draft among others

What a request makes of its owner's draft is a function of the file and of what it
meets (`changeDraft`): the handlers, which other requests and netd go on beside,
refine it.

* `readDraftReconciled_refines`, `storeDraft_refines`: the two parts.
* `redraft_refines`: a save or a reconciliation under the lock.
* `answered_refines`: what is answered in any run.
-/

namespace Fwos

open Effects Rust

namespace Handlers

open CustodyLemmas

/-- The owner's file is this draft. -/
def Call.Stores (call : Call) (file : Option Draft) (s : Appliance) : Prop :=
  s.drafts (draftPath call.owner) = file.map .parsed

/-- The file is read so, and left so, where the request meets something. -/
def Reads (file : Option Draft) (snapshot : Option DesiredState)
    (result : Except String (Option Draft)) (left : Option Draft) : Prop :=
  ∃ env : DraftEnv, ∀ token written,
    Fwos.readDraftReconciled file snapshot { env with token := token, written := written } =
      (result, left)

/-- What a response says of the draft. -/
def HttpResponse.draftReply : HttpResponse → Option DraftReply
  | ⟨_, .pending baseRevision version _⟩ => some (.ok (baseRevision, version))
  | ⟨status, .error error⟩ => some (.error (status, error))
  | _ => none

/-- The response is what the draft made is answered with, where it is written. -/
def Call.Writes (call : Call) (existing : Option Draft) (made : Except Refusal Draft)
    (response : HttpResponse) (s : Appliance) : Prop :=
  ∃ written left reply, call.Stores left s ∧ response.draftReply = some reply ∧
    ∀ env : DraftEnv, env.written = written → writeMade existing env made = (reply, left)

/-- The response is what the change of the file is answered with. -/
def Call.Changes (call : Call) (file : Option Draft)
    (make : Option Draft → Except String DesiredState → Except String String →
      Except Refusal Draft) (response : HttpResponse) (s : Appliance) : Prop :=
  ∃ (snapshot : Except String DesiredState) (env : DraftEnv) (left : Option Draft)
    (reply : DraftReply), call.Stores left s ∧ response.draftReply = some reply ∧
      changeDraft file snapshot env (fun existing => make existing snapshot env.token) =
        (reply, left)

/-- What a save or a reconciliation is answered with that finds this file. -/
def Call.Refines (call : Call) (file : Option Draft) (response : HttpResponse) (s : Appliance) :
    Prop :=
  match call.locked with
  | .save change => call.Changes file (savedDraft change) response s
  | .reconcile request => call.Changes file (reconciledDraft request) response s
  | _ => True

section Pure

variable {file left existing : Option Draft} {snapshot : Option DesiredState} {draft : Draft}

/-- An environment in which nothing is met. -/
def quietEnv : DraftEnv := { stored := none, stable := none, token := .ok "" }

theorem reads_error {error : String} : Reads file snapshot (.error error) file :=
  ⟨{ quietEnv with unreadable := some error }, fun _ _ => rfl⟩

theorem reads_none : Reads none snapshot (.ok none) none := ⟨quietEnv, fun _ _ => rfl⟩

theorem reads_some : Reads (some draft) snapshot (.ok (some draft)) (some draft) := by
  refine ⟨quietEnv, fun token written => ?_⟩
  cases snapshot with
  | none => rfl
  | some accepted => simp [Fwos.readDraftReconciled, quietEnv]

theorem reads_removed {accepted : DesiredState}
    (differs : accepted.revision ≠ draft.baseRevision) (gone : Bool) (error : Option String) :
    Reads (some draft) (some accepted)
      (match error with
        | some error => .error error
        | none => .ok none)
      (if gone then none else some draft) := by
  refine ⟨{ quietEnv with
    stable := some accepted.revision, receipt := true, removed := (gone, error) },
    fun token written => ?_⟩
  cases error with
  | none => simp [Fwos.readDraftReconciled, quietEnv, differs]
  | some error => simp [Fwos.readDraftReconciled, quietEnv, differs]

end Pure

variable {call : Call} {file existing : Option Draft}

theorem stable_stores : Stable (draftPath call.owner) (call.Stores file) := stable_draft

theorem Call.Stores.unique {s : Appliance} {other : Option Draft} (h : call.Stores file s)
    (h' : call.Stores other s) : file = other :=
  Option.map_injective (fun _ _ same => Raw.parsed.inj same) (h.symm.trans h')

theorem Call.Refines.relies {response : HttpResponse} {s s' : Appliance}
    (h : call.Refines file response s) (relied : Relies (draftPath call.owner) s s') :
    call.Refines file response s' := by
  have kept {make : Option Draft → Except String DesiredState → Except String String →
      Except Refusal Draft} (h : call.Changes file make response s) :
      call.Changes file make response s' := by
    obtain ⟨snapshot, env, left, reply, stores, answers⟩ := h
    exact ⟨snapshot, env, left, reply, stable_stores s s' relied stores, answers⟩
  unfold Call.Refines at h ⊢
  split at h
  · exact kept h
  · exact kept h
  · exact trivial

/-! ## Under the lock -/

section Refines

variable [Base64]

theorem readDraft_refines {snapshot : Option DesiredState} :
    Under call (call.Stores file) (readDraft (draftPath call.owner)).run
      (EndsIn (fun error s => Reads file snapshot (.error error) file ∧ call.Stores file s)
        fun read s => read = file ∧ call.Stores file s) := by
  have looked := @Under.look _ call (call.Stores file) (.readDraft (draftPath call.owner))
    (fun answer => (∃ error, answer = .error (.failed error)) ∨
      answer = readRaw (file.map .parsed) none) stable_stores (fun _ _ => rfl) ?_
  · refine Under.bind looked fun answer s h => ?_
    obtain ⟨stores, ⟨error, rfl⟩ | rfl⟩ := h
    · exact ⟨reads_error, stores⟩
    · cases file with
      | none => exact ⟨rfl, stores⟩
      | some draft => exact ⟨rfl, stores⟩
  · intro s stores choice
    show (∃ error, readRaw (s.drafts (draftPath call.owner)) choice.fault = _) ∨ readRaw _ _ = _
    rw [show s.drafts (draftPath call.owner) = file.map .parsed from stores]
    cases file with
    | none => exact .inr rfl
    | some draft =>
      cases choice.fault with
      | none => exact .inr rfl
      | some fault => exact .inl ⟨fault.error, rfl⟩

theorem removeDraft_refines {draft : Draft} :
    Under call (fun s => call.Stores (some draft) s ∧ Credited call.owner draft.version s)
      (removeDraft (draftPath call.owner)).run
      (EndsIn (fun _ s => ∃ gone : Bool, call.Stores (if gone then none else some draft) s)
        fun _ s => call.Stores none s) := by
  refine Under.ask (stable_stores.and stable_credited) fun s h choice => ?_
  have there : (s.drafts (draftPath call.owner)).isSome = true := by
    rw [show s.drafts (draftPath call.owner) = _ from h.1]
    rfl
  have taken : exec (.removeDraft (draftPath call.owner)) choice s =
      (choice.result, choice.after s (s.setDraft (draftPath call.owner) none)) := if_pos there
  rw [taken]
  refine ⟨draft_does (.removed h.1 h.2), ?_⟩
  unfold Choice.result Choice.after
  cases choice.fault with
  | none => exact Function.update_self _ _ _
  | some fault =>
    cases fault with
    | before error => exact ⟨false, h.1⟩
    | after error => exact ⟨true, Function.update_self _ _ _⟩

/-- Reading the draft, and dropping it once it was accepted. -/
theorem readDraftReconciled_refines {snapshot : Option DesiredState} :
    Under call (call.Stores file) (readDraftReconciled call.owner snapshot).run
      (EndsIn (fun error s => ∃ left, Reads file snapshot (.error error) left ∧ call.Stores left s)
        fun read s => Reads file snapshot (.ok read) read ∧ call.Stores read s) := by
  have first : Under call (call.Stores file) (readDraft (draftPath call.owner)).run
      (EndsIn (fun error s => ∃ left, Reads file snapshot (.error error) left ∧ call.Stores left s)
        fun read s => read = file ∧ call.Stores file s) :=
    readDraft_refines.mono fun result s h => by
      cases result with
      | ok read => exact h
      | error error => exact ⟨file, h⟩
  refine Under.seq first fun read => ?_
  by_cases same : read = file
  · subst same
    rcases read with _ | draft
    · exact Under.done fun _ h => ⟨reads_none, h.2⟩
    · refine Under.seq ((Under.lift (confirmedDraft_under stable_stores)).before fun _ h => h.2)
        fun confirmed => ?_
      cases confirmed with
      | false => exact Under.done fun _ h => ⟨reads_some, h.1⟩
      | true =>
        by_cases unlike : ∃ accepted, snapshot = some accepted ∧
            accepted.revision ≠ draft.baseRevision
        · obtain ⟨accepted, rfl, differs⟩ := unlike
          have removed : Under call
              (fun s => call.Stores (some draft) s ∧ Credited call.owner draft.version s)
              (removeDraft (draftPath call.owner)).run
              (EndsIn (fun error s => ∃ left,
                Reads (some draft) (some accepted) (.error error) left ∧ call.Stores left s)
                fun _ s => call.Stores none s) :=
            removeDraft_refines.mono fun result s h => by
              cases result with
              | ok _ => exact h
              | error error =>
                obtain ⟨gone, stores⟩ := h
                exact ⟨_, reads_removed differs gone (some error), stores⟩
          refine Under.seq (removed.before fun _ h => ⟨h.1, (h.2 rfl).1⟩) fun _ => ?_
          exact Under.done fun _ stores => ⟨reads_removed differs true none, stores⟩
        · exact fun s h => absurd (h.2 rfl).2 unlike
  · exact fun s h => absurd h.1 same

/-- A draft that was made is written. -/
theorem storeDraft_refines {made : Except Refusal Draft}
    (named : ∀ draft old, made = .ok draft → existing = some old →
      call.locked.replaces = some old.version) :
    Under call (call.Stores existing) (storeDraft call.owner (refused made) none).run
      (EndsIn (call.Writes existing made) (call.Writes existing made)) := by
  cases made with
  | error refusal =>
    exact fun s stores => ⟨(true, none), existing, .error refusal, stores, rfl, fun _ _ => rfl⟩
  | ok draft =>
    have written : Under call (call.Stores existing)
        (ask (.writeDraft (draftPath call.owner) draft))
        (EndsIn (fun _ s => ∃ there : Bool, call.Stores (if there then some draft else existing) s)
          fun _ s => call.Stores (some draft) s) := by
      refine Under.ask stable_stores fun s stores choice => ⟨draft_does ?_, ?_⟩
      · rcases existing with _ | old
        · exact .written stores
        · exact .replaced stores (named draft old rfl rfl)
      · show EndsIn _ _ choice.result _
        unfold exec Choice.result Choice.after
        cases choice.fault with
        | none => exact Function.update_self _ _ _
        | some fault =>
          cases fault with
          | before error => exact ⟨false, stores⟩
          | after error => exact ⟨true, Function.update_self _ _ _⟩
    have stored : Under call (call.Stores existing)
        (orBadGateway (ExceptT.mk (ask (.writeDraft (draftPath call.owner) draft)))).run
        (EndsIn (call.Writes existing (.ok draft)) fun _ s => call.Stores (some draft) s) := by
      refine Under.orBadGateway_ends written ?_
      rintro error s ⟨there, stores⟩
      refine ⟨(there, some error), _, .error (502, error), stores, rfl, fun env met => ?_⟩
      unfold writeMade writeDraft
      rw [met]
    show Under call (call.Stores existing)
      (orBadGateway (ExceptT.mk (ask (.writeDraft (draftPath call.owner) draft))) >>= fun _ =>
        (pure ⟨200, .pending draft.baseRevision draft.version none⟩ :
          Handling HttpResponse)).run _
    refine Under.seq stored fun _ => Under.done fun s stores => ?_
    refine ⟨(true, none), some draft, _, stores, rfl, fun env met => ?_⟩
    unfold writeMade writeDraft
    rw [met]
    rfl

/-- Whatever the others do, a save or a reconciliation changes the draft as the function of the
file and of what it meets does, and its response says so. -/
theorem redraft_refines {make : Option Draft → Except String DesiredState → Except String String →
      Except Refusal Draft}
    (named : ∀ old snapshot token draft, make (some old) snapshot token = .ok draft →
      call.locked.replaces = some old.version) :
    Under call (call.Stores file) (redraft call.owner make).run
      (EndsIn (call.Changes file make) (call.Changes file make)) := by
  refine Under.seq (Under.lift (acceptedSnapshot_under stable_stores)) fun snapshot => ?_
  have read : Under call (call.Stores file)
      (orBadGateway (readDraftReconciled call.owner snapshot.toOption)).run
      (EndsIn (call.Changes file make) fun existing s =>
        Reads file snapshot.toOption (.ok existing) existing ∧ call.Stores existing s) := by
    refine Under.orBadGateway_ends readDraftReconciled_refines ?_
    rintro error s ⟨left, ⟨env, reads⟩, stores⟩
    refine ⟨snapshot, { env with token := .ok "", written := (true, none) }, left,
      .error (502, error), stores, rfl, ?_⟩
    unfold changeDraft
    rw [reads]
  refine Under.seq read fun existing => ?_
  have stable : Stable (draftPath call.owner) fun s =>
      Reads file snapshot.toOption (.ok existing) existing ∧ call.Stores existing s :=
    Stable.and (fun _ _ _ h => h) stable_stores
  refine Under.seq (Under.lift (Under.look (Q := fun _ => True) stable (fun _ _ => rfl)
    fun _ _ _ => trivial)) fun token s h => ?_
  obtain ⟨⟨⟨env, reads⟩, stores⟩, -⟩ := h
  have names (draft old : Draft) (made : make existing snapshot token = .ok draft)
      (same : existing = some old) : call.locked.replaces = some old.version :=
    named old snapshot token draft (same ▸ made)
  have written := storeDraft_refines names s stores
  have becomes (response : HttpResponse) (s : Appliance)
      (h : call.Writes existing (make existing snapshot token) response s) :
      call.Changes file make response s := by
    obtain ⟨written, left, reply, stores, answers, writes⟩ := h
    refine ⟨snapshot, { env with token := token, written := written }, left, reply, stores,
      answers, ?_⟩
    unfold changeDraft
    rw [reads]
    exact writes _ rfl
  refine guarded_mono written fun result s h => ?_
  cases result with
  | ok response => exact becomes response s h
  | error response => exact becomes response s h

/-! ## Runs -/

theorem program_refines : Under call (call.Stores file) call.program (call.Refines file) := by
  obtain ⟨owner, locked⟩ := call
  cases locked with
  | save change =>
    exact Under.program (redraft_refines fun _ _ _ _ made => savedDraft_named made)
  | reconcile request =>
    exact Under.program
      (redraft_refines fun _ _ _ _ made => congrArg some (reconciledDraft_named made))
  | _ => exact (program_under.before fun _ _ => trivial).mono fun _ _ _ => trivial

theorem refinement_verified :
    Verified semantics (fun _ => True) Call.program HasLock Moves Relies
      (fun call => call.Does)
      (fun call start response s =>
        ∀ file, call.Stores file start → call.Refines file response s) where
  refl := handlers_verified.refl
  trans := handlers_verified.trans
  others := handlers_verified.others
  moved := handlers_verified.moved
  verified _ call start mine := by
    obtain rfl := mine
    by_cases found : ∃ file, call.Stores file start
    · obtain ⟨file, stores⟩ := found
      refine guarded_mono (program_refines start stores) fun response s h other stores' => ?_
      exact stores.unique stores' ▸ h
    · refine guarded_mono (program_under start trivial) fun response s _ file stores => ?_
      exact absurd ⟨file, stores⟩ found

/-- In every run, a save or a reconciliation that is answered has changed its owner's draft as the
function of the file that it began with does, and left the file so. -/
theorem answered_refines {start : Appliance} {events : List Serving.Event}
    {pool pool' : Serving} (run : Runs Serving.Step { state := start } events pool)
    {begun : Appliance} {response : HttpResponse}
    (step : Serving.Step pool (.returned call begun response) pool')
    (stores : call.Stores file begun) : call.Refines file response pool'.state := by
  obtain ⟨-, sound⟩ := pool_lawful refinement_verified run
  obtain ⟨same, path, last, mine, refines, relied⟩ :=
    (sound_step refinement_verified sound step).1
  rw [same]
  exact (refines file stores).relies ((show path = draftPath call.owner from mine) ▸ relied)

end Refines

theorem answered_refines_saved :
    letI := Receipts.noKeys
    ∃ (response : HttpResponse) (pool' : Serving),
      Alone.saving.Refines none response pool'.state ∧
      (pool'.state.drafts (draftPath Receipts.admin)).isSome = true := by
  let _ : Base64 := Receipts.noKeys
  obtain ⟨events, pool, run, -, state, turn⟩ := Alone.ahead_runs Alone.saving (List.replicate 4 {})
  obtain ⟨response, done⟩ := Option.isSome_iff_exists.mp
    (show (Alone.ahead Alone.saving (List.replicate 4 {})).1.result?.isSome = true by
      decide +kernel)
  rw [Program.result?_eq_some.mp done] at turn
  have step : Serving.Step pool (.returned Alone.saving Alone.appliance response) _ :=
    .returned turn
  have written : (pool.state.drafts (draftPath Receipts.admin)).isSome = true := by
    rw [state]
    decide +kernel
  have empty : Alone.saving.Stores none Alone.appliance := rfl
  exact ⟨response, _, answered_refines run step empty, written⟩

end Handlers

end Fwos
