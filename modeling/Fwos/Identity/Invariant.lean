import Fwos.Effects.Tokens
import Fwos.Identity.Store

/-!
# The Identity store is always readable

The writers check some of what the reader checks and rely on the configuration
they read for the rest. Over any run of the account operations, with fresh random
tokens:

* every configuration ever written passes all the checks of the reader;
* once ownership is recorded there is a local administrator;
* a call that returns an error leaves the stored configuration as it was.
-/

namespace Fwos

open Effects Rust

/-! ## What the reader checks -/

/-- An account that the reader takes. -/
structure LocalAccount.Valid (sources : List String) (account : LocalAccount) : Prop where
  source : account.source ∈ sources
  subject : account.subject ≠ ""
  username : validUsername account.username = true
  credentialVersion : account.credentialVersion ≠ 0
  passwordHash : startsWith account.passwordHash "$y$" = true

/-- A configuration that the reader takes. -/
structure IdentityConfiguration.Valid (config : IdentityConfiguration) : Prop where
  version : config.version = 1
  sources : ∀ id ∈ config.sources, id ≠ ""
  distinctSources : config.sources.Nodup
  accounts : ∀ account ∈ config.accounts, account.Valid config.sources
  subjects : (config.accounts.map fun account => (account.source, account.subject)).Nodup
  usernames : (config.accounts.map fun account => (account.source, account.username)).Nodup

namespace IdentityConfiguration

theorem allNew_iff {α : Type} [BEq α] [LawfulBEq α] {list seen : List α} :
    allNew seen list = true ↔ list.Nodup ∧ ∀ a ∈ list, a ∉ seen := by
  induction list generalizing seen with
  | nil => simp [allNew]
  | cons a rest ih =>
    simp only [allNew, Bool.and_eq_true, Bool.not_eq_true', List.contains_eq_mem,
      decide_eq_false_iff_not, ih, List.nodup_cons, List.mem_cons, not_or, forall_eq_or_imp]
    constructor
    · rintro ⟨ha, hd, hr⟩
      exact ⟨⟨fun h => (hr a h).1 rfl, hd⟩, ha, fun b hb => (hr b hb).2⟩
    · rintro ⟨⟨ha, hd⟩, hs, hr⟩
      exact ⟨hs, hd, fun b hb => ⟨fun h => ha (h ▸ hb), hr b hb⟩⟩

theorem checkAccount_iff {config : IdentityConfiguration} {account : LocalAccount} :
    config.checkAccount account = true ↔ account.Valid config.sources := by
  simp only [checkAccount, Bool.and_eq_true, List.contains_eq_mem, decide_eq_true_eq,
    Bool.not_eq_true', String.isEmpty_eq_false_iff, bne_iff_ne]
  constructor
  · rintro ⟨⟨⟨⟨h1, h2⟩, h3⟩, h4⟩, h5⟩
    exact ⟨h1, h2, h3, h4, h5⟩
  · rintro ⟨h1, h2, h3, h4, h5⟩
    exact ⟨⟨⟨⟨h1, h2⟩, h3⟩, h4⟩, h5⟩

/-- The reader takes a configuration if and only if it is valid. -/
theorem check_iff {config result : IdentityConfiguration} :
    config.check = .ok result ↔ config.Valid ∧ result = config := by
  unfold check
  split_ifs with h1 h2 h3 <;>
    simp only [false_iff, not_and, Except.ok.injEq]
  · rintro ⟨hv⟩
    simp [hv] at h1
  · rintro ⟨-, hs, hd⟩
    simp only [Bool.or_eq_true, List.any_eq_true, String.isEmpty_iff, Bool.not_eq_true',
      Bool.eq_false_iff, ne_eq, allNew_iff] at h2
    rcases h2 with ⟨id, hm, he⟩ | h
    · exact absurd he (hs id hm)
    · exact absurd ⟨hd, by simp⟩ h
  · rintro ⟨-, -, -, ha, hs, hu⟩
    simp only [Bool.not_eq_true', Bool.eq_false_iff, ne_eq, Bool.and_eq_true, List.all_eq_true,
      checkAccount_iff, allNew_iff] at h3
    exact absurd ⟨⟨ha, hs, by simp⟩, hu, by simp⟩ h3
  · simp only [bne_iff_ne, ne_eq, not_not, Bool.or_eq_true, List.any_eq_true, String.isEmpty_iff,
      Bool.not_eq_true', Bool.not_eq_false, Bool.and_eq_true, List.all_eq_true, checkAccount_iff,
      allNew_iff, not_or, not_exists, not_and] at h1 h2 h3
    have hv : config.Valid :=
      ⟨h1, h2.1, h2.2.1, h3.1.1, h3.1.2.1, h3.2.1⟩
    exact ⟨fun h => ⟨hv, h.symm⟩, fun h => h.2.symm⟩

end IdentityConfiguration

theorem Store.read_eq_ok {store : Store} {env : CallEnv} {config : IdentityConfiguration} :
    store.read env = .ok config ↔
      store.identity = some (.parsed config) ∧ env.readable = true ∧ config.Valid := by
  unfold Store.read
  split
  next stored h =>
    split_ifs with hr
    · rw [IdentityConfiguration.check_iff, h]
      constructor
      · rintro ⟨hv, rfl⟩
        exact ⟨rfl, hr, hv⟩
      · rintro ⟨he, -, hv⟩
        cases he
        exact ⟨hv, rfl⟩
    · simp [hr]
  next h => simp [h]
  next h => simp [h]

theorem cryptPassword_eq_ok {crypt : Option String} {hash : String}
    (h : cryptPassword crypt = .ok hash) : startsWith hash "$y$" = true := by
  unfold cryptPassword at h
  split at h
  · cases h
  · split_ifs at h with hs
    · cases h
      exact hs

/-! ## What a call can write -/

/-- Everything a call writes, with the checks it made. -/
inductive AccountCall.Writes (store : Store) (env : CallEnv) :
    AccountCall → IdentityConfiguration → Prop where
  | first {username password subject hash : String} (hb : store.bootstrapped = false)
      (hu : validUsername username = true) (ht : env.token = some subject)
      (hh : startsWith hash "$y$" = true) :
      Writes store env (.createFirstAdministrator username password)
        { sources := [localSource], accounts := [newAdministrator username subject hash] }
  | created {authentication : Authentication} {username password subject hash : String}
      {config : IdentityConfiguration} (hb : store.bootstrapped = true)
      (hc : store.identity = some (.parsed config)) (hv : config.Valid)
      (hu : validUsername username = true) (hl : localSource ∈ config.sources)
      (hn : ∀ account ∈ config.accounts,
        account.source = localSource → account.username ≠ username)
      (ht : env.token = some subject) (hh : startsWith hash "$y$" = true) :
      Writes store env (.createLocalAdministrator authentication username password)
        { config with accounts := config.accounts ++ [newAdministrator username subject hash] }
  | changed {authentication : Authentication} {username password hash : String}
      {config : IdentityConfiguration} {account : LocalAccount} (hb : store.bootstrapped = true)
      (hc : store.identity = some (.parsed config)) (hv : config.Valid)
      (ha : config.accounts.find? (·.isAdministrator username) = some account)
      (hh : startsWith hash "$y$" = true) :
      Writes store env (.changeLocalAdministratorPassword authentication username password)
        { config with
          accounts := modifyFirst (·.isAdministrator username) (·.withPassword hash)
            config.accounts }
  | removed {authentication : Authentication} {username : String}
      {config : IdentityConfiguration} (hb : store.bootstrapped = true)
      (hc : store.identity = some (.parsed config)) (hv : config.Valid)
      (ha : ∃ account ∈ config.accounts, account.isAdministrator username = true)
      (hl : 1 < config.accounts.countP (·.isLocalAdministrator)) :
      Writes store env (.removeLocalAdministrator authentication username)
        { config with accounts := config.accounts.eraseP (·.isAdministrator username) }

theorem mapError_eq_ok {α ε δ : Type} {result : Except ε α} {f : ε → δ} {value : α} :
    result.mapError f = .ok value ↔ result = .ok value := by
  cases result <;> simp [Except.mapError]

theorem authorizedConfiguration_eq_ok {store : Store} {env : CallEnv}
    {authentication : Authentication} {config : IdentityConfiguration}
    (h : authorizedConfiguration store env authentication = .ok config) :
    store.bootstrapped = true ∧ store.identity = some (.parsed config) ∧ config.Valid ∧
      config.authorizedIn authentication = true := by
  simp only [authorizedConfiguration, bind_eq_ok, ensure_eq_ok, mapError_eq_ok, pure_eq_ok,
    Store.read_eq_ok] at h
  obtain ⟨-, hb, read, ⟨hc, -, hv⟩, -, ha, rfl⟩ := h
  exact ⟨hb, hc, hv, ha⟩

theorem AccountCall.writes {call : AccountCall} {store : Store} {env : CallEnv}
    {config : IdentityConfiguration} (h : call.configuration store env = .ok config) :
    Writes store env call config := by
  cases call with
  | createFirstAdministrator username password =>
    simp only [configuration, mapError_eq_ok, firstConfiguration, randomTokenOf, bind_eq_ok,
      ensure_eq_ok, okOr_eq_ok, pure_eq_ok, Bool.not_eq_true', Bool.and_eq_true] at h
    obtain ⟨-, hb, -, ⟨hu, -⟩, subject, ht, hash, hh, rfl⟩ := h
    exact .first hb hu ht (cryptPassword_eq_ok hh)
  | createLocalAdministrator authentication username password =>
    simp only [configuration, mapError_eq_ok, createdConfiguration, randomTokenOf, bind_eq_ok,
      ensure_eq_ok, okOr_eq_ok, pure_eq_ok, Bool.not_eq_true', Bool.and_eq_true] at h
    obtain ⟨-, ⟨hu, -⟩, old, ha, -, hl, -, hn, subject, ht, hash, hh, rfl⟩ := h
    obtain ⟨hb, hc, hv, -⟩ := authorizedConfiguration_eq_ok ha
    refine .created hb hc hv hu (by simpa using hl) (fun account hm hs hun => ?_) ht
      (cryptPassword_eq_ok hh)
    simp only [List.any_eq_false, Bool.and_eq_true, beq_iff_eq, not_and] at hn
    exact hn account hm hs hun
  | changeLocalAdministratorPassword authentication username password =>
    simp only [configuration, mapError_eq_ok, changedConfiguration, bind_eq_ok, ensure_eq_ok,
      okOr_eq_ok, pure_eq_ok] at h
    obtain ⟨-, -, old, ha, account, hf, -, -, hash, hh, rfl⟩ := h
    obtain ⟨hb, hc, hv, -⟩ := authorizedConfiguration_eq_ok ha
    exact .changed hb hc hv hf (cryptPassword_eq_ok hh)
  | removeLocalAdministrator authentication username =>
    simp only [configuration, mapError_eq_ok, removedConfiguration, bind_eq_ok, ensure_eq_ok,
      pure_eq_ok, List.any_eq_true, decide_eq_true_eq] at h
    obtain ⟨old, ha, -, hf, -, hl, rfl⟩ := h
    obtain ⟨hb, hc, hv, -⟩ := authorizedConfiguration_eq_ok ha
    exact .removed hb hc hv hf hl

/-! ## What each write preserves -/

theorem newAdministrator_valid {username subject hash : String} {sources : List String}
    (hl : localSource ∈ sources) (hs : subject ≠ "") (hu : validUsername username = true)
    (hh : startsWith hash "$y$" = true) : (newAdministrator username subject hash).Valid sources :=
  ⟨hl, hs, hu, by simp [newAdministrator], hh⟩

theorem first_valid {username subject hash : String} (hs : subject ≠ "")
    (hu : validUsername username = true) (hh : startsWith hash "$y$" = true) :
    IdentityConfiguration.Valid
      { sources := [localSource], accounts := [newAdministrator username subject hash] } where
  version := rfl
  sources := by simp [localSource]
  distinctSources := by simp
  accounts := by simpa using newAdministrator_valid (by simp) hs hu hh
  subjects := by simp
  usernames := by simp

theorem created_valid {config : IdentityConfiguration} {username subject hash : String}
    (hv : config.Valid) (hl : localSource ∈ config.sources) (hs : subject ≠ "")
    (hu : validUsername username = true) (hh : startsWith hash "$y$" = true)
    (hfresh : ∀ account ∈ config.accounts, account.subject ≠ subject)
    (hn : ∀ account ∈ config.accounts, account.source = localSource → account.username ≠ username) :
    { config with
      accounts := config.accounts ++ [newAdministrator username subject hash] }.Valid where
  version := hv.version
  sources := hv.sources
  distinctSources := hv.distinctSources
  accounts := by
    intro account hm
    rcases List.mem_append.mp hm with hm | hm
    · exact hv.accounts account hm
    · obtain rfl := List.mem_singleton.mp hm
      exact newAdministrator_valid hl hs hu hh
  subjects := by
    rw [List.map_append, List.nodup_append]
    refine ⟨hv.subjects, by simp, ?_⟩
    rintro a ha b hb rfl
    obtain ⟨account, hm, rfl⟩ := List.mem_map.mp ha
    simp only [List.map_cons, List.map_nil, List.mem_singleton, newAdministrator,
      Prod.mk.injEq] at hb
    exact hfresh account hm hb.2
  usernames := by
    rw [List.map_append, List.nodup_append]
    refine ⟨hv.usernames, by simp, ?_⟩
    rintro a ha b hb rfl
    obtain ⟨account, hm, rfl⟩ := List.mem_map.mp ha
    simp only [List.map_cons, List.map_nil, List.mem_singleton, newAdministrator,
      Prod.mk.injEq] at hb
    exact hn account hm hb.1 hb.2

theorem changed_valid {config : IdentityConfiguration} {username hash : String}
    (hv : config.Valid) (hh : startsWith hash "$y$" = true) :
    { config with
      accounts := modifyFirst (·.isAdministrator username) (·.withPassword hash)
        config.accounts }.Valid where
  version := hv.version
  sources := hv.sources
  distinctSources := hv.distinctSources
  accounts := by
    intro account hm
    rcases mem_modifyFirst hm with hm | ⟨old, ho, -, rfl⟩
    · exact hv.accounts account hm
    · have ho := hv.accounts old ho
      exact ⟨ho.source, ho.subject, ho.username, by simp [LocalAccount.withPassword], hh⟩
  subjects := by
    dsimp only
    rw [map_modifyFirst]
    · exact hv.subjects
    · exact fun _ => rfl
  usernames := by
    dsimp only
    rw [map_modifyFirst]
    · exact hv.usernames
    · exact fun _ => rfl

theorem removed_valid {config : IdentityConfiguration} {username : String} (hv : config.Valid) :
    { config with accounts := config.accounts.eraseP (·.isAdministrator username) }.Valid where
  version := hv.version
  sources := hv.sources
  distinctSources := hv.distinctSources
  accounts := fun account hm => hv.accounts account (List.mem_of_mem_eraseP hm)
  subjects := hv.subjects.sublist ((List.eraseP_sublist ..).map _)
  usernames := hv.usernames.sublist ((List.eraseP_sublist ..).map _)

/-- Removing one account leaves a local administrator where there were two. -/
theorem exists_localAdministrator_eraseP {accounts : List LocalAccount} {p : LocalAccount → Bool}
    (h : 1 < accounts.countP LocalAccount.isLocalAdministrator) :
    ∃ account ∈ accounts.eraseP p, account.isLocalAdministrator = true := by
  rw [← List.countP_pos_iff]
  induction accounts with
  | nil => simp at h
  | cons account rest ih =>
    rw [List.countP_cons] at h
    cases hp : p account with
    | true =>
      rw [List.eraseP_cons_of_pos hp]
      split at h <;> omega
    | false =>
      rw [List.eraseP_cons_of_neg (by simp [hp]), List.countP_cons]
      split at h
      next ha =>
        rw [if_pos ha]
        omega
      · have := ih (by omega)
        omega

/-! ## Runs -/

/-- A call of any client, or the end of a Bootstrap, for which netd requires a
readable first local administrator. -/
inductive StoreEvent where
  | call (call : AccountCall) (env : CallEnv)
  | recordOwnership (env : CallEnv)
deriving DecidableEq, Repr

def StoreEvent.run (store : Store) : StoreEvent → Store
  | .call request env => (request.run env store).2
  | .recordOwnership env =>
      match store.read env with
      | .ok config =>
          if config.firstLocalAdministratorSubject.isSome then { store with bootstrapped := true }
          else store
      | .error _ => store

def runStore (store : Store) (events : List StoreEvent) : Store := events.foldl StoreEvent.run store

def StoreEvent.token : StoreEvent → Option String
  | .call _ env => env.token
  | .recordOwnership _ => none

/-- No random token repeats another, and none is empty. -/
abbrev FreshTokens (events : List StoreEvent) : Prop := Fresh StoreEvent.token "" events

/-- What the operations maintain, with the tokens drawn so far. -/
structure Store.Sound (store : Store) (used : List String) : Prop where
  valid : ∀ raw, store.identity = some raw → ∃ config, raw = .parsed config ∧ config.Valid ∧
    ∀ account ∈ config.accounts, account.subject ∈ used
  administrator : store.bootstrapped = true → ∃ config, store.identity = some (.parsed config) ∧
    ∃ account ∈ config.accounts, account.isLocalAdministrator = true

/-- A call publishes what it may write or nothing. -/
theorem AccountCall.run_cases (call : AccountCall) (env : CallEnv) (store : Store) :
    (∃ error, call.run env store = (.error error, store)) ∨
      ∃ config reply, call.configuration store env = .ok config ∧ env.written = true ∧
        call.run env store = (reply, { store with identity := some (.parsed config) }) ∧
        (env.synced = true → reply = .ok ()) := by
  unfold AccountCall.run
  cases hc : call.configuration store env with
  | error error => exact .inl ⟨error, rfl⟩
  | ok config =>
    cases hw : env.written with
    | false =>
      exact .inl ⟨call.writeError "publish Identity configuration", by simp [Store.write, hw]⟩
    | true =>
      cases hs : env.synced with
      | false =>
        exact .inr ⟨config, .error (call.writeError "persist Identity directory"), rfl, rfl,
          by simp [Store.write, hw, hs], by simp⟩
      | true => exact .inr ⟨config, .ok (), rfl, rfl, by simp [Store.write, hw, hs], by simp⟩

theorem find_isLocal {config : IdentityConfiguration} {subject : String}
    (h : config.firstLocalAdministratorSubject = some subject) :
    ∃ account ∈ config.accounts, account.isLocalAdministrator = true := by
  simp only [IdentityConfiguration.firstLocalAdministratorSubject, Option.map_eq_some_iff] at h
  obtain ⟨account, hf, -⟩ := h
  exact ⟨account, List.mem_of_find?_eq_some hf, List.find?_some hf⟩

/-- What one write keeps, if its token was not drawn before. -/
theorem Store.Sound.write {store : Store} {used : List String} {call : AccountCall} {env : CallEnv}
    {config : IdentityConfiguration} (hs : store.Sound used) (hw : call.Writes store env config)
    (hne : env.token ≠ some "") (hfresh : ∀ token, env.token = some token → token ∉ used) :
    Store.Sound { store with identity := some (.parsed config) } (env.token.toList ++ used) := by
  have subjectsOf {old : IdentityConfiguration} (hc : store.identity = some (.parsed old)) :
      ∀ account ∈ old.accounts, account.subject ∈ used := by
    obtain ⟨_, hp, -, hu⟩ := hs.valid _ hc
    cases hp
    exact hu
  cases hw with
  | first hb hu ht hh =>
    refine ⟨?_, by simp [hb]⟩
    rintro _ ⟨rfl⟩
    refine ⟨_, rfl, first_valid (by rintro rfl; exact hne ht) hu hh, ?_⟩
    simp [newAdministrator, ht]
  | created hb hc hv hu hl hn ht hh =>
    have hold := subjectsOf hc
    refine ⟨?_, fun _ => ⟨_, rfl, _, List.mem_append_right _ (List.mem_singleton.mpr rfl), rfl⟩⟩
    rintro _ ⟨rfl⟩
    refine ⟨_, rfl, created_valid hv hl (by rintro rfl; exact hne ht) hu hh ?_ hn, ?_⟩
    · rintro account hm rfl
      exact hfresh _ ht (hold account hm)
    · intro account hm
      rcases List.mem_append.mp hm with hm | hm
      · exact List.mem_append_right _ (hold account hm)
      · obtain rfl := List.mem_singleton.mp hm
        simp [newAdministrator, ht]
  | @changed _ username _ hash config account hb hc hv hf hh =>
    have hold := subjectsOf hc
    refine ⟨?_, fun _ => ⟨_, rfl, ?_⟩⟩
    · rintro _ ⟨rfl⟩
      refine ⟨_, rfl, changed_valid hv hh, fun account hm => List.mem_append_right _ ?_⟩
      rcases mem_modifyFirst hm with ho | ⟨old, ho, -, rfl⟩
      · exact hold account ho
      · exact hold old ho
    · obtain ⟨_, hc', account, hm, ha⟩ := hs.administrator hb
      rw [hc] at hc'
      cases hc'
      -- The change keeps every account's source and grant.
      have hmap : (modifyFirst (·.isAdministrator username) (·.withPassword hash)
          config.accounts).map LocalAccount.isLocalAdministrator =
          config.accounts.map LocalAccount.isLocalAdministrator :=
        map_modifyFirst (fun account => show (account.withPassword hash).isLocalAdministrator =
          account.isLocalAdministrator from rfl) _
      have hm := List.mem_map_of_mem (f := LocalAccount.isLocalAdministrator) hm
      rw [← hmap, List.mem_map] at hm
      obtain ⟨account', hm', ha'⟩ := hm
      exact ⟨account', hm', ha'.trans ha⟩
  | removed hb hc hv hf hl =>
    have hold := subjectsOf hc
    refine ⟨?_, fun _ => ⟨_, rfl, exists_localAdministrator_eraseP hl⟩⟩
    rintro _ ⟨rfl⟩
    refine ⟨_, rfl, removed_valid hv, fun account hm => List.mem_append_right _ ?_⟩
    exact hold account (List.mem_of_mem_eraseP hm)

theorem StoreEvent.run_bootstrapped {store : Store} {event : StoreEvent}
    (h : store.bootstrapped = true) : (event.run store).bootstrapped = true := by
  cases event with
  | call request env =>
    rcases request.run_cases env store with
      ⟨error, hr⟩ | ⟨config, reply, -, -, hr, -⟩ <;>
      simpa [StoreEvent.run, hr] using h
  | recordOwnership env =>
    simp only [StoreEvent.run]
    split
    · split <;> simp [h]
    · exact h

theorem Store.Sound.mono {store : Store} {used more : List String} (hs : store.Sound used)
    (h : used ⊆ more) : store.Sound more where
  valid raw hr := by
    obtain ⟨config, hp, hv, hu⟩ := hs.valid raw hr
    exact ⟨config, hp, hv, fun account hm => h (hu account hm)⟩
  administrator := hs.administrator

/-- What one event keeps. -/
theorem Store.Sound.step {store : Store} {used : List String} {event : StoreEvent}
    (hs : store.Sound used) (hne : event.token ≠ some "")
    (hfresh : ∀ token, event.token = some token → token ∉ used) :
    (event.run store).Sound (event.token.toList ++ used) := by
  cases event with
  | call request env =>
    rcases request.run_cases env store with
      ⟨error, hr⟩ | ⟨config, reply, hc, -, hr, -⟩
    · simp only [StoreEvent.run, hr]
      exact hs.mono (List.subset_append_right _ _)
    · simp only [StoreEvent.run, hr]
      exact hs.write (AccountCall.writes hc) hne hfresh
  | recordOwnership env =>
    simp only [StoreEvent.run, StoreEvent.token, Option.toList_none, List.nil_append]
    split
    next config hc =>
      split
      next ho =>
        obtain ⟨subject, ho⟩ := Option.isSome_iff_exists.mp ho
        exact ⟨hs.valid, fun _ => ⟨config, (Store.read_eq_ok.mp hc).1, find_isLocal ho⟩⟩
      · exact hs
    · exact hs

theorem Store.Sound.empty : Store.Sound {} [] where
  valid := by simp
  administrator := by simp

/-- What every run reaches. -/
theorem Store.Sound.runStore {events : List StoreEvent} (h : FreshTokens events) :
    (runStore {} events).Sound (Fresh.drawn StoreEvent.token [] events) :=
  h.run (by simp) (fun _ _ _ hs hne hfresh => hs.step hne hfresh) Store.Sound.empty

/-- **The Identity store invariant.** In every state that a run of the operations
reaches: what is stored passes the reader's checks, recorded ownership comes with
a local administrator, and a call that returns an error changes nothing, unless
its write is not atomic. -/
theorem identity_store_invariant {events : List StoreEvent} (h : FreshTokens events) :
    (∀ raw, (runStore {} events).identity = some raw →
      ∃ config, raw = .parsed config ∧ config.check = .ok config) ∧
    ((runStore {} events).bootstrapped = true →
      ∃ config, (runStore {} events).identity = some (.parsed config) ∧
        ∃ account ∈ config.accounts, account.isLocalAdministrator = true) ∧
    (∀ (call : AccountCall) (env : CallEnv) (error : CallError) (store' : Store),
      env.synced = true → call.run env (runStore {} events) = (.error error, store') →
        store' = runStore {} events) := by
  have hs := Store.Sound.runStore h
  refine ⟨fun raw hr => ?_, hs.administrator, fun call env error store' hy hc => ?_⟩
  · obtain ⟨config, hp, hv, -⟩ := hs.valid raw hr
    exact ⟨config, hp, IdentityConfiguration.check_iff.mpr ⟨hv, rfl⟩⟩
  · rcases call.run_cases env (runStore {} events) with
      ⟨_, hr⟩ | ⟨config, reply, -, -, hr, ho⟩
    · rw [hr] at hc
      cases hc
      rfl
    · rw [hr, ho hy] at hc
      cases hc

/-- A Bootstrap, then a second administrator who removes the first. -/
def takeover : List StoreEvent :=
  let ada (subject : String) : Authentication :=
    ⟨⟨localSource, subject, "ada"⟩, .password, 1⟩
  [ .call (.createFirstAdministrator "ada" "correct horse battery") { token := some "s1" },
    .recordOwnership { token := none },
    .call (.createLocalAdministrator (ada "s1") "bob" "correct horse battery")
      { token := some "s2" },
    .call (.removeLocalAdministrator (ada "s1") "ada") { token := none } ]

theorem takeover_keeps_administrator :
    FreshTokens takeover ∧ (runStore {} takeover).bootstrapped = true ∧
      ∃ config, (runStore {} takeover).identity = some (.parsed config) ∧
        ∃ account ∈ config.accounts, account.isLocalAdministrator = true :=
  ⟨by decide +kernel, by decide +kernel,
    (@identity_store_invariant takeover (by decide +kernel)).2.1 (by decide +kernel)⟩

end Fwos
