import Fwos.Identity.Sessions

/-!
# Revocation is permanent

An Authentication is tied to an account by the random subject, which no later
account has, and to the account's credentials by their version, which only grows.
Over any run of logins, logouts, expiries and account operations:

* an Authentication is authorised as long as neither the password of its account
  was changed nor the account removed, and never again after that;
* a session that was logged out, that expired or whose Authentication was revoked
  authenticates no request.
-/

namespace Fwos

open Effects Rust

/-! ## What the operations write -/

/-- What every stored configuration is: the accounts are local administrators. -/
structure IdentityConfiguration.Local (config : IdentityConfiguration) : Prop where
  sources : config.sources = [localSource]
  requiredAssurance : config.requiredAssurance = .password
  accounts : ∀ account ∈ config.accounts, account.isLocalAdministrator = true

def Store.Local (store : Store) : Prop :=
  ∀ config, store.identity = some (.parsed config) → config.Local

theorem AccountCall.Writes.isLocal {store : Store} {env : CallEnv} {call : AccountCall}
    {config : IdentityConfiguration} (h : call.Writes store env config) (hl : store.Local) :
    config.Local := by
  cases h with
  | first => exact ⟨rfl, rfl, by simp [newAdministrator, LocalAccount.isLocalAdministrator]⟩
  | created _ hc =>
    have hl := hl _ hc
    refine ⟨hl.sources, hl.requiredAssurance, fun account hm => ?_⟩
    rcases List.mem_append.mp hm with hm | hm
    · exact hl.accounts account hm
    · obtain rfl := List.mem_singleton.mp hm
      simp [newAdministrator, LocalAccount.isLocalAdministrator]
  | changed _ hc =>
    have hl := hl _ hc
    refine ⟨hl.sources, hl.requiredAssurance, fun account hm => ?_⟩
    rcases mem_modifyFirst hm with ho | ⟨old, ho, -, rfl⟩
    · exact hl.accounts account ho
    · exact hl.accounts old ho
  | removed _ hc =>
    have hl := hl _ hc
    exact ⟨hl.sources, hl.requiredAssurance,
      fun account hm => hl.accounts account (List.mem_of_mem_eraseP hm)⟩

/-- What an event of the store does. -/
theorem StoreEvent.run_cases (event : StoreEvent) (store : Store) :
    (event.run store).identity = store.identity ∨
      ∃ call env config, event = .call call env ∧ call.configuration store env = .ok config ∧
        env.written = true ∧ event.run store = { store with identity := some (.parsed config) } := by
  cases event with
  | call request env =>
    rcases request.run_cases env store with
      ⟨error, hr⟩ | ⟨config, reply, hc, hw, hr, -⟩
    · exact .inl (by simp [StoreEvent.run, hr])
    · exact .inr ⟨request, env, config, rfl, hc, hw, by simp [StoreEvent.run, hr]⟩
  | recordOwnership env =>
    refine .inl ?_
    simp only [StoreEvent.run]
    split
    · split <;> rfl
    · rfl

theorem Store.Local.step {store : Store} {event : StoreEvent} (hl : store.Local) :
    (event.run store).Local := by
  rcases event.run_cases store with hr | ⟨call, env, config, -, hc, -, hr⟩
  · intro config hc
    exact hl config (hr ▸ hc)
  · rw [hr]
    rintro _ ⟨rfl⟩
    exact (AccountCall.writes hc).isLocal hl

/-! ## The account of an Authentication -/

def LocalAccount.BelongsTo (account : LocalAccount) (authentication : Authentication) : Prop :=
  account.source = authentication.principal.source ∧
    account.subject = authentication.principal.subject

/-- The account that a configuration has for an Authentication, if any, has at
least a version. The subject was drawn, so that no later account has it. -/
structure Store.AtLeast (store : Store) (used : List String) (authentication : Authentication)
    (version : Nat) : Prop where
  drawn : authentication.principal.subject ∈ used
  version : ∀ config, store.identity = some (.parsed config) → ∀ account ∈ config.accounts,
    account.BelongsTo authentication → version ≤ account.credentialVersion

/-- The account is as the Authentication says. -/
def Store.Grants (store : Store) (authentication : Authentication) : Prop :=
  ∃ config, store.identity = some (.parsed config) ∧ ∃ account ∈ config.accounts,
    account.BelongsTo authentication ∧
      account.username = authentication.principal.username ∧
      account.credentialVersion = authentication.credentialVersion

/-- The name whose credentials the call replaces or removes. -/
def AccountCall.target : AccountCall → Option String
  | .changeLocalAdministratorPassword _ username _ => some username
  | .removeLocalAdministrator _ username => some username
  | _ => none

/-- The event changes the password of the account of an Authentication, or
removes the account. -/
def StoreEvent.Revokes (store : Store) (authentication : Authentication) : StoreEvent → Prop
  | .call request env =>
      (∃ config, request.configuration store env = .ok config) ∧ env.written = true ∧
        ∃ username config account, request.target = some username ∧
          store.identity = some (.parsed config) ∧ account ∈ config.accounts ∧
          account.isAdministrator username = true ∧ account.BelongsTo authentication
  | .recordOwnership _ => False

namespace IdentityConfiguration

theorem Valid.same_account {config : IdentityConfiguration} (hv : config.Valid)
    {a b : LocalAccount} (ha : a ∈ config.accounts) (hb : b ∈ config.accounts)
    {authentication : Authentication} (h : a.BelongsTo authentication)
    (h' : b.BelongsTo authentication) : a = b :=
  List.inj_on_of_nodup_map hv.subjects ha hb (Prod.ext (h.1.trans h'.1.symm) (h.2.trans h'.2.symm))

theorem Valid.same_administrator {config : IdentityConfiguration} (hv : config.Valid)
    {a b : LocalAccount} (ha : a ∈ config.accounts) (hb : b ∈ config.accounts) {username : String}
    (h : a.isAdministrator username = true) (h' : b.isAdministrator username = true) : a = b := by
  simp only [LocalAccount.isAdministrator, Bool.and_eq_true, beq_iff_eq] at h h'
  exact List.inj_on_of_nodup_map hv.usernames ha hb
    (Prod.ext (h.1.1.trans h'.1.1.symm) (h.1.2.trans h'.1.2.symm))

end IdentityConfiguration

theorem mem_modifyFirst_of_find {α : Type} {p : α → Bool} {change : α → α} {list : List α} {a : α}
    (h : list.find? p = some a) : change a ∈ modifyFirst p change list := by
  induction list with
  | nil => simp at h
  | cons b rest ih =>
    unfold modifyFirst
    cases hp : p b with
    | true =>
      rw [List.find?_cons_of_pos hp] at h
      cases h
      simp
    | false =>
      rw [List.find?_cons_of_neg (by simp [hp])] at h
      simpa using .inr (ih h)

theorem mem_modifyFirst_of_neg {α : Type} {p : α → Bool} {change : α → α} {list : List α} {a : α}
    (h : a ∈ list) (hp : p a = false) : a ∈ modifyFirst p change list := by
  induction list with
  | nil => simp at h
  | cons b rest ih =>
    unfold modifyFirst
    rcases List.mem_cons.mp h with rfl | hr
    · simp [hp]
    · split
      · simp [hr]
      · simp [ih hr]

/-- Where keys differ, what `eraseP` removes has no key left. -/
theorem not_mem_eraseP_of_nodup {α β : Type} {p : α → Bool} {key : α → β} {list : List α} {a b : α}
    (hd : (list.map key).Nodup) (ha : a ∈ list) (hp : p a = true)
    (hb : b ∈ list.eraseP p) (hk : ∀ c ∈ list, p c = true → key c = key b) : False := by
  obtain ⟨c, front, rest, -, hc, rfl, he⟩ := List.exists_of_eraseP ha hp
  rw [he] at hb
  have hkey : key c = key b := hk c (by simp) hc
  rw [List.map_append, List.map_cons, List.nodup_middle, List.nodup_cons] at hd
  refine hd.1 (hkey ▸ ?_)
  rw [← List.map_append]
  exact List.mem_map_of_mem hb

/-! ## What one event does to an Authentication -/

/-- A version that an account has reached, it has at every later point. -/
theorem Store.AtLeast.step {store : Store} {used : List String} {authentication : Authentication}
    {version : Nat} {event : StoreEvent} (h : store.AtLeast used authentication version)
    (hfresh : ∀ token, event.token = some token → token ∉ used) :
    (event.run store).AtLeast (event.token.toList ++ used) authentication version := by
  refine ⟨List.mem_append_right _ h.drawn, ?_⟩
  rcases event.run_cases store with hr | ⟨call, env, config, rfl, hc, -, hr⟩
  · rw [hr]
    exact h.version
  · rw [hr]
    have hnew {username subject hash : String} (ht : env.token = some subject) :
        ¬ (newAdministrator username subject hash).BelongsTo authentication :=
      fun hb => hfresh subject ht ((show subject = authentication.principal.subject from hb.2) ▸ h.drawn)
    rintro _ ⟨rfl⟩ account hm hb
    cases AccountCall.writes hc with
    | first _ _ ht =>
      obtain rfl := List.mem_singleton.mp hm
      exact absurd hb (hnew ht)
    | created _ ho _ _ _ _ ht =>
      rcases List.mem_append.mp hm with hm | hm
      · exact h.version _ ho account hm hb
      · obtain rfl := List.mem_singleton.mp hm
        exact absurd hb (hnew ht)
    | changed _ ho =>
      rcases mem_modifyFirst hm with hm' | ⟨old, hm', -, rfl⟩
      · exact h.version _ ho account hm' hb
      · exact Nat.le_succ_of_le (h.version _ ho old hm' hb)
    | removed _ ho => exact h.version _ ho account (List.mem_of_mem_eraseP hm) hb

/-- A change or removal leaves no account of the version. -/
theorem Store.AtLeast.revoke {store : Store} {used : List String}
    {authentication : Authentication} {version : Nat} {event : StoreEvent}
    (h : store.AtLeast used authentication version)
    (hr : event.Revokes store authentication) :
    (event.run store).AtLeast (event.token.toList ++ used) authentication (version + 1) := by
  refine ⟨List.mem_append_right _ h.drawn, ?_⟩
  cases event with
  | recordOwnership env => exact hr.elim
  | call request env =>
    obtain ⟨⟨config, hc⟩, hw, username, stored, target, ht, hs, hm, ha, hb⟩ := hr
    have hrun : (StoreEvent.call request env).run store =
        { store with identity := some (.parsed config) } := by
      cases hy : env.synced <;> simp [StoreEvent.run, AccountCall.run, hc, Store.write, hw, hy]
    rw [hrun]
    rintro _ ⟨rfl⟩ account hma hba
    cases AccountCall.writes hc with
    | first | created => simp [AccountCall.target] at ht
    | @changed _ name _ hash old found _ ho hv hf hh =>
      obtain rfl : name = username := by simpa [AccountCall.target] using ht
      cases hs.symm.trans ho
      -- The changed account is the target, and the only one of its subject.
      obtain rfl := hv.same_administrator (List.mem_of_find?_eq_some hf) hm
        (List.find?_some hf) ha
      obtain rfl := (changed_valid hv hh).same_account (mem_modifyFirst_of_find hf) hma hb hba
      exact Nat.succ_le_succ (h.version _ hs _ hm hb)
    | @removed _ name old _ ho hv _ _ =>
      obtain rfl : name = username := by simpa [AccountCall.target] using ht
      cases hs.symm.trans ho
      refine (not_mem_eraseP_of_nodup hv.subjects hm ha hma fun other hmo hpo => ?_).elim
      obtain rfl := hv.same_administrator hmo hm hpo ha
      exact Prod.ext (hb.1.trans hba.1.symm) (hb.2.trans hba.2.symm)

/-- No other event takes the account away. -/
theorem Store.Grants.step {store : Store} {authentication : Authentication} {event : StoreEvent}
    (h : store.Grants authentication) (hb : store.bootstrapped = true)
    (hr : ¬ event.Revokes store authentication) : (event.run store).Grants authentication := by
  obtain ⟨config, hc, account, hm, ha⟩ := h
  rcases event.run_cases store with hrun | ⟨call, env, new, rfl, hn, hw, hrun⟩
  · exact ⟨config, hrun.trans hc, account, hm, ha⟩
  · rw [hrun]
    refine ⟨new, rfl, account, ?_, ha⟩
    have hkeep {username : String} (ht : call.target = some username) :
        account.isAdministrator username = false := by
      rw [← Bool.not_eq_true]
      exact fun hp => hr ⟨⟨new, hn⟩, hw, username, config, account, ht, hc, hm, hp, ha.1⟩
    cases AccountCall.writes hn with
    | first hf =>
      rw [hb] at hf
      cases hf
    | created _ ho =>
      cases hc.symm.trans ho
      exact List.mem_append_left _ hm
    | changed _ ho =>
      cases hc.symm.trans ho
      exact mem_modifyFirst_of_neg hm (hkeep rfl)
    | removed _ ho =>
      cases hc.symm.trans ho
      exact (List.mem_eraseP_of_neg (by simp [hkeep rfl])).mpr hm

/-! ## Logins and sessions -/

theorem find?_account {config : IdentityConfiguration} {source username : String}
    {account : LocalAccount} (h : (config.accounts.find? fun account =>
      account.source == source && account.username == username) = some account) :
    account ∈ config.accounts ∧ account.source = source ∧ account.username = username := by
  have hp := List.find?_some h
  simp only [Bool.and_eq_true, beq_iff_eq] at hp
  exact ⟨List.mem_of_find?_eq_some h, hp⟩

/-- What an Authentication says was so in the configuration that it comes from. -/
theorem authenticate_eq_authenticated {store : Store} {env : PasswordEnv}
    {source username password : String} {authentication : Authentication}
    (h : authenticate store env source username password = .authenticated authentication) :
    store.bootstrapped = true ∧ store.Grants authentication := by
  unfold authenticate at h
  split_ifs at h with hb
  simp only [Bool.or_eq_true, Bool.not_eq_true', not_or, Bool.not_eq_false] at hb
  refine ⟨hb.1, ?_⟩
  split at h
  · cases h
  next config hc =>
    obtain ⟨hc, -, -⟩ := Store.read_eq_ok.mp hc
    simp only [authenticateIn] at h
    split at h
    · cases h
    split at h
    · cases h
    split at h
    · cases h
    split at h
    · cases h
    split at h
    · cases h
    next account hf =>
      split at h
      · cases h
      cases h
      obtain ⟨hm, rfl, -⟩ := find?_account hf
      exact ⟨config, hc, account, hm, ⟨rfl, rfl⟩, rfl, rfl⟩

/-- An Authentication of the stored configuration cannot be ahead of it. -/
theorem Store.Grants.atLeast {store : Store} {used : List String} {authentication : Authentication}
    (h : store.Grants authentication) (hs : store.Sound used) :
    store.AtLeast used authentication authentication.credentialVersion := by
  obtain ⟨config, hc, account, hm, hb, -, hver⟩ := h
  obtain ⟨_, hp, hv, hu⟩ := hs.valid _ hc
  cases hp
  refine ⟨hb.2 ▸ hu account hm, fun config' hc' other hm' hb' => ?_⟩
  cases hc.symm.trans hc'
  rw [hv.same_account hm' hm hb' hb, hver]

theorem authorizedIn_of_grants {store : Store} {config : IdentityConfiguration}
    {authentication : Authentication} (h : store.Grants authentication) (hl : store.Local)
    (hc : store.identity = some (.parsed config)) :
    config.authorizedIn authentication = true := by
  obtain ⟨_, hc', account, hm, ⟨hsource, hsubject⟩, hname, hver⟩ := h
  cases hc.symm.trans hc'
  have hl := hl _ hc
  have ha := hl.accounts account hm
  simp only [LocalAccount.isLocalAdministrator, Bool.and_eq_true, beq_iff_eq] at ha
  simp only [IdentityConfiguration.authorizedIn, Assurance.atLeast, hl.requiredAssurance,
    beq_self_eq_true, Bool.true_or, Bool.true_and, Bool.and_eq_true, List.any_eq_true, beq_iff_eq, hl.sources,
    List.contains_eq_mem, List.mem_singleton, decide_eq_true_eq]
  exact ⟨hsource ▸ ha.1, account, hm, ⟨⟨⟨hsource, hsubject⟩, hname⟩, hver⟩, ha.2⟩

theorem Store.AtLeast.not_authorizedIn {store : Store} {used : List String}
    {config : IdentityConfiguration} {authentication : Authentication}
    (h : store.AtLeast used authentication (authentication.credentialVersion + 1))
    (hc : store.identity = some (.parsed config)) :
    config.authorizedIn authentication = false := by
  rw [← Bool.not_eq_true]
  intro ha
  simp only [IdentityConfiguration.authorizedIn, Bool.and_eq_true, List.any_eq_true,
    beq_iff_eq] at ha
  obtain ⟨-, account, hm, ⟨⟨⟨hsource, hsubject⟩, -⟩, hver⟩, -⟩ := ha
  have := h.version config hc account hm ⟨hsource, hsubject⟩
  omega

namespace Ui

/-- What the UI keeps over a run, with the tokens drawn so far. -/
structure Sound (ui : Ui) (used : List String) : Prop where
  store : ui.store.Sound used
  isLocal : ui.store.Local
  login : ∀ authentication, ui.login = .authenticated authentication ∨
    ui.login = .authorized authentication →
      ui.store.AtLeast used authentication authentication.credentialVersion
  tokens : (ui.sessions.map (·.1)).Nodup
  sessions : ∀ entry ∈ ui.sessions, entry.1 ∈ used ∧
    ui.store.AtLeast used entry.2.authentication entry.2.authentication.credentialVersion

end Ui

theorem Store.AtLeast.mono {store : Store} {used more : List String}
    {authentication : Authentication} {version : Nat}
    (h : store.AtLeast used authentication version) (hm : used ⊆ more) :
    store.AtLeast more authentication version :=
  ⟨hm h.drawn, h.version⟩

namespace Ui

/-- What the table holds after any event: some of its old entries, and the new
session of a login. -/
theorem step_sessions (ui : Ui) (event : UiEvent) :
    (ui.step event).sessions.Sublist ui.sessions ∨
      ∃ cookies token authentication rest, event = .openSession cookies (some token) ∧
        ui.login = .authorized authentication ∧ rest.Sublist ui.sessions ∧
        (ui.step event).sessions = (token, ⟨authentication, ui.now + sessionLifetime⟩) :: rest := by
  cases event with
  | store event => exact .inl (.refl _)
  | tick elapsed => exact .inl (.refl _)
  | restart => exact .inl (List.nil_sublist _)
  | authenticate env source username password =>
    refine .inl ?_
    simp only [step]
    split
    · split <;> exact .refl _
    · exact .refl _
  | authorize readable =>
    refine .inl ?_
    simp only [step]
    split
    · split_ifs <;> exact .refl _
    · exact .refl _
  | openSession cookies token =>
    simp only [step]
    split
    next authentication token hl =>
      simp only [openSession]
      cases sessionToken cookies with
      | some previous =>
        have hsub : ((ui.sessions.retain ui.now).remove previous).Sublist ui.sessions :=
          List.filter_sublist.trans List.filter_sublist
        split_ifs
        · exact .inl hsub
        · exact .inr ⟨cookies, token, authentication, _, rfl, hl,
            List.filter_sublist.trans hsub, rfl⟩
      | none =>
        have hsub : (ui.sessions.retain ui.now).Sublist ui.sessions := List.filter_sublist
        split_ifs
        · exact .inl hsub
        · exact .inr ⟨cookies, token, authentication, _, rfl, hl,
            List.filter_sublist.trans hsub, rfl⟩
    · exact .inl (.refl _)
    · exact .inl (.refl _)
  | request => exact .inl List.filter_sublist
  | logout cookies =>
    refine .inl ?_
    simp only [step]
    split
    · exact List.filter_sublist
    · exact .refl _

/-- A login's Authentication was there before, or the stored configuration grants it. -/
theorem step_login {ui : Ui} {event : UiEvent} {authentication : Authentication}
    (h : (ui.step event).login = .authenticated authentication ∨
      (ui.step event).login = .authorized authentication) :
    (ui.login = .authenticated authentication ∨ ui.login = .authorized authentication) ∨
      ((ui.step event).store = ui.store ∧ ui.store.Grants authentication) := by
  cases event with
  | store event => exact .inl h
  | tick elapsed => exact .inl h
  | restart => simp [step] at h
  | authenticate env source username password =>
    simp only [step] at h
    split at h
    next hl =>
      split at h
      next new ha =>
        obtain rfl : new = authentication := by simpa using h
        refine .inr ⟨?_, (authenticate_eq_authenticated ha).2⟩
        simp only [step, hl, ha]
      · exact .inl h
    · exact .inl h
  | authorize readable =>
    simp only [step] at h
    split at h
    next old hl =>
      split_ifs at h
      · obtain rfl : old = authentication := by simpa using h
        exact .inl (.inl hl)
      · simp at h
    · exact .inl h
  | openSession cookies token =>
    simp only [step] at h
    split at h
    · simp at h
    · simp at h
    · exact .inl h
  | request => exact .inl h
  | logout cookies =>
    simp only [step] at h
    split at h <;> exact .inl h

theorem step_store (ui : Ui) (event : UiEvent) :
    (∃ change, event = .store change ∧ (ui.step event).store = change.run ui.store) ∨
      (ui.step event).store = ui.store := by
  cases event with
  | store change => exact .inl ⟨change, rfl, rfl⟩
  | tick | restart | request => exact .inr rfl
  | authenticate env source username password =>
    refine .inr ?_
    simp only [step]
    split
    · split <;> rfl
    · rfl
  | authorize readable =>
    refine .inr ?_
    simp only [step]
    split
    · split_ifs <;> rfl
    · rfl
  | openSession cookies token =>
    refine .inr ?_
    simp only [step]
    split <;> rfl
  | logout cookies =>
    refine .inr ?_
    simp only [step]
    split <;> rfl

theorem step_atLeast {ui : Ui} {used : List String} {event : UiEvent}
    {authentication : Authentication} {version : Nat}
    (h : ui.store.AtLeast used authentication version)
    (hfresh : ∀ token, event.token = some token → token ∉ used) :
    (ui.step event).store.AtLeast (event.token.toList ++ used) authentication version := by
  rcases ui.step_store event with ⟨change, rfl, hs⟩ | hs
  · rw [hs]
    exact h.step hfresh
  · rw [hs]
    exact h.mono (List.subset_append_right _ _)

theorem Sound.step {ui : Ui} {used : List String} {event : UiEvent} (h : ui.Sound used)
    (hne : event.token ≠ some "") (hfresh : ∀ token, event.token = some token → token ∉ used) :
    (ui.step event).Sound (event.token.toList ++ used) := by
  have hold : ∀ entry ∈ ui.sessions, entry.1 ∈ event.token.toList ++ used ∧
      (ui.step event).store.AtLeast (event.token.toList ++ used) entry.2.authentication
        entry.2.authentication.credentialVersion := fun entry hm =>
    ⟨List.mem_append_right _ (h.sessions entry hm).1, step_atLeast (h.sessions entry hm).2 hfresh⟩
  constructor
  · rcases ui.step_store event with ⟨change, rfl, hs⟩ | hs
    · rw [hs]
      exact h.store.step hne hfresh
    · rw [hs]
      exact h.store.mono (List.subset_append_right _ _)
  · rcases ui.step_store event with ⟨change, rfl, hs⟩ | hs
    · rw [hs]
      exact h.isLocal.step
    · rw [hs]
      exact h.isLocal
  · intro authentication hl
    rcases step_login hl with hl | ⟨-, hg⟩
    · exact step_atLeast (h.login authentication hl) hfresh
    · exact step_atLeast (hg.atLeast h.store) hfresh
  · rcases ui.step_sessions event with hs | ⟨cookies, token, authentication, rest, rfl, -, hr, hs⟩
    · exact h.tokens.sublist (hs.map _)
    · rw [hs, List.map_cons, List.nodup_cons]
      refine ⟨fun hm => ?_, h.tokens.sublist (hr.map _)⟩
      obtain ⟨entry, he, rfl⟩ := List.mem_map.mp hm
      exact hfresh _ rfl (h.sessions entry (hr.subset he)).1
  · intro entry hm
    rcases ui.step_sessions event with hs | ⟨cookies, token, authentication, rest, rfl, hl, hr, hs⟩
    · exact hold entry (hs.subset hm)
    · rw [hs] at hm
      rcases List.mem_cons.mp hm with rfl | hm
      · exact ⟨by simp [UiEvent.token], step_atLeast (h.login authentication (.inr hl)) hfresh⟩
      · exact hold entry (hr.subset hm)

theorem Sound.empty : Sound {} [] where
  store := .empty
  isLocal := by simp [Store.Local]
  login := by simp
  tokens := by simp
  sessions := by simp

end Ui

/-- No random token of a run repeats another, and none is empty. -/
abbrev FreshUi (events : List UiEvent) : Prop := Fresh UiEvent.token "" events

namespace Ui

theorem Sound.run {events : List UiEvent} (h : FreshUi events) :
    (Ui.run {} events).Sound (Fresh.drawn UiEvent.token [] events) :=
  h.run (by simp) (fun _ _ _ hs hne hfresh => hs.step hne hfresh) Sound.empty

/-! ## Runs -/

/-- Some event of a run revokes an Authentication. -/
def Revokes (ui : Ui) (events : List UiEvent) (authentication : Authentication) : Prop :=
  ∃ before change after, events = before ++ .store change :: after ∧
    change.Revokes (ui.run before).store authentication

theorem run_append (ui : Ui) (before after : List UiEvent) :
    ui.run (before ++ after) = (ui.run before).run after :=
  List.foldl_append ..

theorem not_revokes_nil {ui : Ui} {authentication : Authentication} :
    ¬ ui.Revokes [] authentication := by
  rintro ⟨before, change, after, he, -⟩
  simp at he

theorem revokes_cons {ui : Ui} {event : UiEvent} {rest : List UiEvent}
    {authentication : Authentication} : ui.Revokes (event :: rest) authentication ↔
      (∃ change, event = .store change ∧ change.Revokes ui.store authentication) ∨
        (ui.step event).Revokes rest authentication := by
  constructor
  · rintro ⟨before, change, after, he, hr⟩
    cases before with
    | nil =>
      obtain ⟨rfl, rfl⟩ := List.cons.inj he
      exact .inl ⟨change, rfl, hr⟩
    | cons first before =>
      obtain ⟨rfl, rfl⟩ := List.cons.inj he
      exact .inr ⟨before, change, after, rfl, hr⟩
  · rintro (⟨change, rfl, hr⟩ | ⟨before, change, after, rfl, hr⟩)
    · exact ⟨[], change, rest, rfl, hr⟩
    · exact ⟨event :: before, change, after, rfl, hr⟩

theorem step_bootstrapped {ui : Ui} {event : UiEvent} (h : ui.store.bootstrapped = true) :
    (ui.step event).store.bootstrapped = true := by
  rcases ui.step_store event with ⟨change, rfl, hs⟩ | hs
  · rw [hs]
    exact StoreEvent.run_bootstrapped h
  · rw [hs]
    exact h

theorem run_bootstrapped {ui : Ui} {events : List UiEvent} (h : ui.store.bootstrapped = true) :
    (ui.run events).store.bootstrapped = true := by
  induction events generalizing ui with
  | nil => exact h
  | cons event rest ih => exact ih (step_bootstrapped h)

/-- An Authentication that the stored configuration grants is authorised at the
end of a run if and only if no event of the run revokes it. -/
theorem authorizedIn_iff {later : List UiEvent} {ui : Ui} {used : List String}
    {authentication : Authentication} {config : IdentityConfiguration} (hs : ui.Sound used)
    (hb : ui.store.bootstrapped = true) (hg : ui.store.Grants authentication)
    (hf : FreshUi later) (hu : ∀ token ∈ later.filterMap UiEvent.token, token ∉ used)
    (hc : (ui.run later).store.identity = some (.parsed config)) :
    config.authorizedIn authentication = true ↔ ¬ ui.Revokes later authentication := by
  induction later generalizing ui used with
  | nil => simp [authorizedIn_of_grants hg hs.isLocal hc, not_revokes_nil]
  | cons event rest ih =>
    obtain ⟨hrest, hne, hn⟩ := hf.cons
    have hfresh : ∀ token, event.token = some token → token ∉ used := fun token ht =>
      hu token (List.mem_filterMap.mpr ⟨event, by simp, ht⟩)
    have hrestu : ∀ token ∈ rest.filterMap UiEvent.token, token ∉ event.token.toList ++ used := by
      intro token hm
      rw [List.mem_append, Option.mem_toList]
      rintro (ht | hused)
      · exact hn token ht hm
      · obtain ⟨e, he, ht⟩ := List.mem_filterMap.mp hm
        exact hu token (List.mem_filterMap.mpr ⟨e, List.mem_cons_of_mem _ he, ht⟩) hused
    by_cases hr : ∃ change, event = .store change ∧ change.Revokes ui.store authentication
    · obtain ⟨change, rfl, hr⟩ := hr
      have hstep : (ui.step (.store change)).store.AtLeast (change.token.toList ++ used)
          authentication (authentication.credentialVersion + 1) := (hg.atLeast hs.store).revoke hr
      have hend := hrest.run
        (P := fun (ui : Ui) used => ui.store.AtLeast used authentication _) hrestu
        (fun _ _ _ h _ hfresh => step_atLeast h hfresh) hstep
      simp [hend.not_authorizedIn hc, revokes_cons.mpr (.inl ⟨change, rfl, hr⟩)]
    · have hg' : (ui.step event).store.Grants authentication := by
        rcases ui.step_store event with ⟨change, rfl, hstep⟩ | hstep
        · rw [hstep]
          exact hg.step hb fun h => hr ⟨change, rfl, h⟩
        · rw [hstep]
          exact hg
      rw [ih (hs.step hne hfresh) (step_bootstrapped hb) hg' hrest hrestu hc, revokes_cons,
        or_iff_right hr]

/-! ## The end of a session -/

/-- Everything the table has for a token satisfies `P`, and no login draws the
token again. -/
structure Holds (P : Session → Nat → Prop) (token : String) (ui : Ui) (used : List String) :
    Prop where
  drawn : token ∈ used
  holds : ∀ session, (token, session) ∈ ui.sessions → P session ui.now

theorem step_now (ui : Ui) (event : UiEvent) :
    ui.now ≤ (ui.step event).now ∨ (ui.step event).sessions = [] := by
  cases event with
  | restart => exact .inr rfl
  | tick elapsed => exact .inl (Nat.le_add_right _ _)
  | store | request => exact .inl le_rfl
  | authenticate env source username password =>
    refine .inl ?_
    simp only [step]
    split
    · split <;> exact le_rfl
    · exact le_rfl
  | authorize readable =>
    refine .inl ?_
    simp only [step]
    split
    · split_ifs <;> exact le_rfl
    · exact le_rfl
  | openSession cookies token =>
    refine .inl ?_
    simp only [step]
    split <;> exact le_rfl
  | logout cookies =>
    refine .inl ?_
    simp only [step]
    split <;> exact le_rfl

/-- What is so of a session stays so as time passes. -/
def Lasts (P : Session → Nat → Prop) : Prop :=
  ∀ session n m, n ≤ m → P session n → P session m

theorem Holds.step {P : Session → Nat → Prop} (hP : Lasts P) {token : String} {ui : Ui}
    {used : List String} {event : UiEvent}
    (h : Holds P token ui used) (hfresh : ∀ token, event.token = some token → token ∉ used) :
    Holds P token (ui.step event) (event.token.toList ++ used) := by
  refine ⟨List.mem_append_right _ h.drawn, fun session hm => ?_⟩
  rcases ui.step_now event with hn | hn
  · refine hP _ _ _ hn ?_
    rcases ui.step_sessions event with hs | ⟨_, other, _, rest, rfl, -, hr, hs⟩
    · exact h.holds session (hs.subset hm)
    · rw [hs] at hm
      rcases List.mem_cons.mp hm with heq | hm
      · exact absurd h.drawn (hfresh token (congrArg some (Prod.ext_iff.mp heq).1.symm))
      · exact h.holds session (hr.subset hm)
  · simp [hn] at hm

/-- A session of the table is the only one of its token. -/
theorem Sound.holds_eq {ui : Ui} {used : List String} (h : ui.Sound used) {token : String}
    {session : Session} (hm : (token, session) ∈ ui.sessions) :
    Holds (fun other _ => other = session) token ui used := by
  refine ⟨(h.sessions _ hm).1, fun other ho => ?_⟩
  exact (Prod.ext_iff.mp (List.inj_on_of_nodup_map h.tokens ho hm rfl)).2

/-- A token whose sessions have all expired finds none. -/
theorem Holds.sessionOf_eq_none {token : String} {ui : Ui} {used : List String}
    (h : Holds (fun session now => session.expires ≤ now) token ui used)
    {cookies : Option String} (hc : sessionToken cookies = some token) :
    ui.sessionOf cookies = none := by
  have hl : (ui.sessions.retain ui.now).get token = none := by
    rw [Sessions.get, List.lookup_eq_none_iff]
    rintro ⟨other, session⟩ hm
    obtain ⟨hm, hlive⟩ := List.mem_filter.mp hm
    rw [bne_iff_ne]
    rintro rfl
    have hdead : session.expires ≤ ui.now := h.holds session hm
    have hlive : ui.now < session.expires := of_decide_eq_true hlive
    omega
  simp [sessionOf, hc, hl]

theorem exists_of_sessionOf {ui : Ui} {cookies : Option String} {token : String}
    {authentication : Authentication} (h : ui.sessionOf cookies = some authentication)
    (hc : sessionToken cookies = some token) :
    ∃ session, (token, session) ∈ ui.sessions ∧ session.authentication = authentication := by
  simp only [sessionOf, hc, Option.bind_some, Option.map_eq_some_iff, Sessions.get] at h
  obtain ⟨session, hl, ha⟩ := h
  obtain ⟨front, rest, he, -⟩ := List.lookup_eq_some_iff.mp hl
  have hm : (token, session) ∈ ui.sessions.retain ui.now := by simp [he]
  exact ⟨session, List.mem_of_mem_filter hm, ha⟩

/-- Some event of the run is a logout of the token. -/
def LoggedOut (events : List UiEvent) (token : String) : Prop :=
  ∃ cookies, sessionToken cookies = some token ∧ UiEvent.logout cookies ∈ events

/-- At some point of the run the session has expired. -/
def Expired (ui : Ui) (events : List UiEvent) (session : Session) : Prop :=
  ∃ before after, events = before ++ after ∧ session.expires ≤ (ui.run before).now

theorem holds_logout (ui : Ui) {token : String} {used : List String} (h : token ∈ used)
    {cookies : Option String} (hc : sessionToken cookies = some token) :
    Holds (fun session now => session.expires ≤ now) token (ui.step (.logout cookies)) used := by
  refine ⟨h, fun session hm => ?_⟩
  simp only [step, hc, Sessions.remove, List.mem_filter, bne_self_eq_false] at hm
  exact absurd hm.2 (by simp)

theorem lasts_expired : Lasts fun session now => session.expires ≤ now :=
  fun _ _ _ hn h => h.trans hn

theorem run_holds {P : Session → Nat → Prop} (hP : Lasts P) {token : String} {ui : Ui}
    {before after : List UiEvent}
    (hf : FreshUi (before ++ after))
    (h : Holds P token ui (Fresh.drawn UiEvent.token [] before)) :
    Holds P token (ui.run after) (Fresh.drawn UiEvent.token [] (before ++ after)) :=
  hf.run_after (fun _ _ _ h _ hfresh => h.step hP hfresh) h

/-- A session that was logged out or has expired is not found again. -/
theorem sessionOf_eq_none {before between : List UiEvent} (hf : FreshUi (before ++ between))
    {token : String} {session : Session} (hm : (token, session) ∈ (run {} before).sessions)
    (he : LoggedOut between token ∨ Expired (run {} before) between session)
    {cookies : Option String} (hc : sessionToken cookies = some token) :
    ((run {} before).run between).sessionOf cookies = none := by
  have hs := Sound.run hf.append.1
  rcases he with ⟨logout, hl, hmem⟩ | ⟨front, rest, rfl, he⟩
  · obtain ⟨front, rest, rfl⟩ := List.append_of_mem hmem
    have hd : token ∈ Fresh.drawn UiEvent.token [] (before ++ front ++ [.logout logout]) := by
      rw [List.append_assoc, Fresh.drawn_append, Fresh.mem_drawn]
      exact .inr (hs.sessions _ hm).1
    have hf' : FreshUi (before ++ front ++ [.logout logout] ++ rest) := by simpa using hf
    have hend := run_holds lasts_expired hf'
      (holds_logout ((run {} before).run front) hd hl)
    rw [run_append]
    exact hend.sessionOf_eq_none hc
  · have hf' : FreshUi (before ++ front ++ rest) := by simpa using hf
    have hone := run_holds (fun _ _ _ _ h => h) hf'.append.1 (hs.holds_eq hm)
    have hdead : Holds (fun session now => session.expires ≤ now) token
        ((run {} before).run front) (Fresh.drawn UiEvent.token [] (before ++ front)) :=
      ⟨hone.drawn, fun other ho => by rw [hone.holds other ho]; exact he⟩
    rw [run_append]
    exact (run_holds lasts_expired hf' hdead).sessionOf_eq_none hc

/-- A revoked Authentication is behind its account at every later point. -/
theorem atLeast_of_revokes {before later : List UiEvent} (hf : FreshUi (before ++ later))
    {authentication : Authentication} {version : Nat}
    (ha : (run {} before).store.AtLeast (Fresh.drawn UiEvent.token [] before) authentication
      version) (hr : (run {} before).Revokes later authentication) :
    ((run {} before).run later).store.AtLeast (Fresh.drawn UiEvent.token [] (before ++ later))
      authentication (version + 1) := by
  obtain ⟨front, change, rest, rfl, hr⟩ := hr
  have hf' : FreshUi (before ++ front ++ [.store change] ++ rest) := by simpa using hf
  have hat := hf'.append.1.append.1.run_after
    (P := fun (ui : Ui) used => ui.store.AtLeast used authentication version)
    (fun _ _ _ h _ hfresh => step_atLeast h hfresh) ha
  have hnow : (((run {} before).run front).step (.store change)).store.AtLeast
      (Fresh.drawn UiEvent.token [] (before ++ front ++ [.store change])) authentication
      (version + 1) := by
    rw [Fresh.drawn_append]
    exact hat.revoke hr
  have hend := hf'.run_after
    (P := fun (ui : Ui) used => ui.store.AtLeast used authentication (version + 1))
    (fun _ _ _ h _ hfresh => step_atLeast h hfresh) hnow
  have hlist : before ++ (front ++ .store change :: rest) =
      before ++ front ++ [.store change] ++ rest := by simp
  rw [run_append, hlist]
  exact hend

theorem not_authorizeAdministrator {store : Store} {used : List String}
    {authentication : Authentication} {readable : Bool}
    (h : store.AtLeast used authentication (authentication.credentialVersion + 1)) :
    authorizeAdministrator store readable authentication = false := by
  unfold authorizeAdministrator
  split
  · simp
  next config hc => simp [h.not_authorizedIn (Store.read_eq_ok.mp hc).1]

/-- **Revocation is permanent.** An Authentication that a login issued is
authorised at a later point if and only if no event in between changed the
password of its account or removed the account. A session that was logged out, has
expired, or whose Authentication was revoked authenticates no request. -/
theorem revocation_permanent {before later : List UiEvent} (h : FreshUi (before ++ later)) :
    (∀ (env : PasswordEnv) (source username password : String) (authentication : Authentication),
      Fwos.authenticate (run {} before).store env source username password =
        .authenticated authentication →
      ∃ config, (run {} (before ++ later)).store.identity = some (.parsed config) ∧
        (config.authorizedIn authentication = true ↔
          ¬ (run {} before).Revokes later authentication)) ∧
    (∀ (between after : List UiEvent) (token : String) (session : Session)
        (cookies : Option String) (readable : Bool), later = between ++ after →
      (token, session) ∈ (run {} before).sessions → sessionToken cookies = some token →
      LoggedOut between token ∨ Expired (run {} before) between session ∨
        (run {} before).Revokes later session.authentication →
      authenticated (run {} (before ++ between)) (run {} (before ++ later)) readable cookies =
        none) := by
  have hs := Sound.run h.append.1
  constructor
  · intro env source username password authentication ha
    obtain ⟨hb, hg⟩ := authenticate_eq_authenticated ha
    obtain ⟨-, hlater, hn⟩ := h.append
    have hend := Sound.run h
    rw [run_append] at hend ⊢
    obtain ⟨config, hc, -⟩ := hend.store.administrator (run_bootstrapped hb)
    refine ⟨config, hc, authorizedIn_iff hs hb hg hlater (fun token hm hd => ?_) hc⟩
    rcases Fresh.mem_drawn.mp hd with hd | hd
    · exact hn token hm hd
    · simp at hd
  · rintro between after token session cookies readable rfl hm hc he
    rcases or_assoc.mpr he with he | hr
    · rw [← List.append_assoc] at h
      simp [authenticated, run_append, sessionOf_eq_none h.append.1 hm he hc]
    · have ha := atLeast_of_revokes h (hs.sessions _ hm).2 hr
      have hf' : FreshUi (before ++ between) := by
        rw [← List.append_assoc] at h
        exact h.append.1
      have hone := run_holds (fun _ _ _ _ h => h) hf' (hs.holds_eq hm)
      rw [run_append] at ha
      rw [authenticated, run_append, run_append, run_append, Option.filter_eq_none_iff]
      intro authentication hsome
      obtain ⟨other, ho, rfl⟩ := exists_of_sessionOf hsome hc
      rw [hone.holds other ho, not_authorizeAdministrator ha]
      simp

/-! A Bootstrap, the logins of its administrator and of one that is created then. -/

def adaToken : String := "0123456789abcdef0123456789abcdef0123456789abcdef0123456789abcdef"

def benToken : String := "fedcba9876543210fedcba9876543210fedcba9876543210fedcba9876543210"

def cookiesOf (token : String) : Option String := some ("__Host-fwos=" ++ token)

def adaPassword : PasswordEnv := { crypt := fun _ setting => some setting }

def ada : Authentication := ⟨⟨localSource, "s1", "ada"⟩, .password, 1⟩

def ben : Authentication := ⟨⟨localSource, "s2", "ben"⟩, .password, 1⟩

def loginSteps (username password token : String) : List UiEvent :=
  [ .authenticate adaPassword localSource username password, .authorize true,
    .openSession none (some token) ]

def logins : List UiEvent :=
  [ .store (.call (.createFirstAdministrator "ada" "correct horse") { token := some "s1" }),
    .store (.recordOwnership {}) ] ++
  loginSteps "ada" "correct horse" adaToken ++
  [ .store (.call (.createLocalAdministrator ada "ben" "battery staple")
      { token := some "s2" }) ] ++
  loginSteps "ben" "battery staple" benToken

/-- Ben gets a new password, is removed and created again under his name, and ada logs out. -/
def revocations : List UiEvent :=
  [ .store (.call (.changeLocalAdministratorPassword ada "ben" "another staple")
      { token := none }),
    .store (.call (.removeLocalAdministrator ada "ben") { token := none }),
    .store (.call (.createLocalAdministrator ada "ben" "battery staple") { token := some "s3" }),
    .logout (cookiesOf adaToken) ]

/-- Who has an account when ben's password is changed. -/
def twoAdministrators : IdentityConfiguration where
  sources := [localSource]
  accounts := [newAdministrator "ada" "s1" "$y$", newAdministrator "ben" "s2" "$y$"]

theorem revokes_ben : (run {} logins).Revokes revocations ben := by
  have stored : (run {} logins).store.identity = some (.parsed twoAdministrators) := by
    decide +kernel
  refine ⟨[], _, _, rfl, ?_⟩
  refine ⟨⟨{ twoAdministrators with
    accounts := [newAdministrator "ada" "s1" "$y$",
      { newAdministrator "ben" "s2" "$y$" with credentialVersion := 2 }] }, by decide +kernel⟩,
    rfl, "ben", twoAdministrators, newAdministrator "ben" "s2" "$y$", rfl, stored, ?_, ?_, rfl,
    rfl⟩
  · exact List.mem_cons_of_mem _ List.mem_cons_self
  · decide +kernel

theorem revocation_permanent_removed :
    (∃ config, (run {} (logins ++ revocations)).store.identity = some (.parsed config) ∧
        config.authorizedIn ben = false) ∧
      authenticated (run {} (logins ++ revocations)) (run {} (logins ++ revocations)) true
        (cookiesOf benToken) = none ∧
      authenticated (run {} (logins ++ revocations)) (run {} (logins ++ revocations)) true
        (cookiesOf adaToken) = none := by
  have fresh : FreshUi (logins ++ revocations) := by decide +kernel
  obtain ⟨logs, sessions⟩ := revocation_permanent fresh
  have refused := sessions revocations []
  refine ⟨?_, ?_, ?_⟩
  · obtain ⟨config, stored, granted⟩ :=
      logs adaPassword localSource "ben" "battery staple" ben (by decide +kernel)
    refine ⟨config, stored, ?_⟩
    rw [← Bool.not_eq_true, granted, not_not]
    exact revokes_ben
  · exact refused benToken ⟨ben, sessionLifetime⟩ (cookiesOf benToken) true rfl
      (by decide +kernel) (by decide +kernel) (.inr (.inr revokes_ben))
  · exact refused adaToken ⟨ada, sessionLifetime⟩ (cookiesOf adaToken) true rfl
      (by decide +kernel) (by decide +kernel)
      (.inl ⟨cookiesOf adaToken, by decide +kernel, by simp [revocations]⟩)

end Ui

end Fwos
