import Mathlib.Data.List.Basic
import Mathlib.Data.List.Nodup

/-!
# Storing values in a list by a key

`upsert` merges a value into the first element that it hits, or appends it.

* `Overlay`: what a sequence of such stores under some keys leaves of a list: the
  elements under other keys, all keys, and their being distinct.
* `upsertAll_eq`: what many stores leave of a list with distinct keys, element by element.
* `Extends`: an element-wise relation of a list to a longer one; stores keep it.
* `foldl_upsert_eq`: storing the edited elements of a list that extends another in that
  other one gives the first again.
-/

namespace Lists

variable {α β κ : Type}

def upsert (hit : α → Bool) (merge : α → α) (fresh : α) : List α → List α
  | [] => [fresh]
  | a :: rest => if hit a then merge a :: rest else a :: upsert hit merge fresh rest

section

variable {hit : α → Bool} {merge : α → α} {fresh : α} {list : List α}

theorem upsert_append (h : ∀ a ∈ list, hit a = false) (rest : List α) :
    upsert hit merge fresh (list ++ rest) = list ++ upsert hit merge fresh rest := by
  induction list with
  | nil => rfl
  | cons a list ih =>
      rw [List.cons_append, upsert, if_neg (by simp [h a]), List.cons_append,
        ih fun b mem => h b (List.mem_cons_of_mem _ mem)]

/-- The two things that it can do. -/
theorem upsert_cases :
    (∃ front a back, list = front ++ a :: back ∧ hit a = true ∧
      upsert hit merge fresh list = front ++ merge a :: back) ∨
    ((∀ a ∈ list, hit a = false) ∧ upsert hit merge fresh list = list ++ [fresh]) := by
  induction list with
  | nil => exact .inr ⟨nofun, rfl⟩
  | cons a list ih =>
      cases hits : hit a with
      | true => exact .inl ⟨[], a, list, rfl, hits, by simp [upsert, hits]⟩
      | false =>
          rcases ih with ⟨front, b, back, rfl, hb, same⟩ | ⟨misses, same⟩
          · exact .inl ⟨a :: front, b, back, rfl, hb, by simp [upsert, hits, same]⟩
          · refine .inr ⟨fun b mem => ?_, by simp [upsert, hits, same]⟩
            rcases List.mem_cons.mp mem with rfl | mem
            · exact hits
            · exact misses b mem

end

/-! ## Lists with keys -/

/-- `after` comes from `before` by stores under the keys. -/
structure Overlay (key : α → κ) (keys : List κ) (before after : List α) : Prop where
  others : ∀ p : κ → Bool, (∀ k ∈ keys, p k = false) →
    after.filter (fun a => p (key a)) = before.filter fun a => p (key a)
  present : before.map key ⊆ after.map key
  distinct : (before.map key).Nodup → (after.map key).Nodup

namespace Overlay

variable {key : α → κ} {keys : List κ} {before middle after : List α}

theorem refl : Overlay key keys before before := ⟨fun _ _ => rfl, List.Subset.refl _, id⟩

theorem trans (h : Overlay key keys before middle) (h' : Overlay key keys middle after) :
    Overlay key keys before after where
  others := fun p none => (h'.others p none).trans (h.others p none)
  present := List.Subset.trans h.present h'.present
  distinct := h'.distinct ∘ h.distinct

/-- One store: what is stored has the key of what is hit. -/
theorem upsert [DecidableEq κ] {k : κ} {merge : α → α} {fresh : α} {list : List α}
    (mem : k ∈ keys) (merges : ∀ a, key a = k → key (merge a) = k) (new : key fresh = k) :
    Overlay key keys list (upsert (fun a => key a == k) merge fresh list) := by
  rcases @upsert_cases _ (fun a => key a == k) merge fresh list with
    ⟨front, a, back, rfl, hits, same⟩ | ⟨misses, same⟩
  · have hk : key a = k := by simpa using hits
    have keyed : (front ++ merge a :: back).map key = (front ++ a :: back).map key := by
      simp [merges a hk, hk]
    rw [same]
    refine ⟨fun p none => ?_, keyed ▸ List.Subset.refl _, fun distinct => keyed ▸ distinct⟩
    simp [List.filter_append, merges a hk, hk, none k mem]
  · rw [same]
    refine ⟨fun p none => ?_, by simp, fun distinct => ?_⟩
    · simp [List.filter_append, new, none k mem]
    · rw [List.map_append, List.nodup_append']
      refine ⟨distinct, List.nodup_singleton _, fun other found last => ?_⟩
      obtain ⟨a, ha, rfl⟩ := List.mem_map.mp found
      have hits : key a = k := (List.mem_singleton.mp last).trans new
      simpa [hits] using misses a ha

theorem exists_upsert [DecidableEq κ] {k : κ} {merge : α → α} {fresh : α} {list : List α}
    (merges : ∀ a, key a = k → key (merge a) = k) (new : key fresh = k) :
    ∃ a ∈ Lists.upsert (fun a => key a == k) merge fresh list, key a = k := by
  rcases @upsert_cases _ (fun a => key a == k) merge fresh list with
    ⟨front, a, back, rfl, hits, same⟩ | ⟨-, same⟩
  · exact ⟨merge a, by simp [same], merges a (by simpa using hits)⟩
  · exact ⟨fresh, by simp [same], new⟩

/-- In a list with distinct keys the element that is stored is the only one with its key. -/
theorem mem_upsert [DecidableEq κ] {k : κ} {merge : α → α} {fresh b : α} {list : List α}
    (distinct : (list.map key).Nodup) (mem : b ∈ Lists.upsert (fun a => key a == k) merge fresh list) :
    (∃ a ∈ list, key a = k ∧ b = merge a) ∨ ((∀ a ∈ list, key a ≠ k) ∧ b = fresh) ∨
      (b ∈ list ∧ key b ≠ k) := by
  rcases @upsert_cases _ (fun a => key a == k) merge fresh list with
    ⟨front, a, back, rfl, hits, same⟩ | ⟨misses, same⟩
  · have hk : key a = k := by simpa using hits
    rw [same, List.mem_append, List.mem_cons] at mem
    rw [List.map_append, List.map_cons, List.nodup_middle, List.nodup_cons] at distinct
    have other (found : b ∈ front ++ back) : key b ≠ k := fun hb =>
      distinct.1 (by rw [hk, ← hb, ← List.map_append]; exact List.mem_map_of_mem found)
    rcases mem with mem | rfl | mem
    · exact .inr (.inr ⟨List.mem_append_left _ mem, other (List.mem_append_left _ mem)⟩)
    · exact .inl ⟨a, by simp, hk, rfl⟩
    · exact .inr (.inr ⟨by simp [mem], other (List.mem_append_right _ mem)⟩)
  · have absent : ∀ a ∈ list, key a ≠ k := fun a ha => by simpa using misses a ha
    rw [same, List.mem_append, List.mem_singleton] at mem
    exact mem.elim (fun mem => .inr (.inr ⟨mem, absent b mem⟩)) fun new => .inr (.inl ⟨absent, new⟩)

theorem foldl {store : List α → β → List α} {updates : List β}
    (h : ∀ list, ∀ u ∈ updates, Overlay key keys list (store list u)) :
    Overlay key keys before (updates.foldl store before) := by
  induction updates generalizing before with
  | nil => exact refl
  | cons u updates ih =>
      exact (h before u List.mem_cons_self).trans
        (ih fun list v mem => h list v (List.mem_cons_of_mem _ mem))

/-- What is stored is there at the end, under its key. -/
theorem exists_foldl {store : List α → β → List α} {name : β → κ} {updates : List β}
    (h : ∀ list, ∀ u ∈ updates, Overlay key keys list (store list u))
    (stores : ∀ list u, ∃ a ∈ store list u, key a = name u) {u : β} (mem : u ∈ updates) :
    ∃ a ∈ updates.foldl store before, key a = name u := by
  induction updates generalizing before with
  | nil => cases mem
  | cons v updates ih =>
      have rest : ∀ list, ∀ u ∈ updates, Overlay key keys list (store list u) :=
        fun list w hw => h list w (List.mem_cons_of_mem _ hw)
      rcases List.mem_cons.mp mem with rfl | mem
      · obtain ⟨a, found, named⟩ := stores before u
        obtain ⟨last, hlast, same⟩ :=
          List.mem_map.mp ((foldl rest).present (List.mem_map_of_mem found))
        exact ⟨last, hlast, same.trans named⟩
      · exact ih rest mem

end Overlay

/-! ## Many stores -/

section

variable [DecidableEq κ]

/-- Every update stores under its name. -/
def upsertAll (key : α → κ) (name : β → κ) (merge : β → α → α) (fresh : β → α)
    (updates : List β) (list : List α) : List α :=
  updates.foldl (fun list u => upsert (fun a => key a == name u) (merge u) (fresh u) list) list

def mergeAll (merge : β → α → α) (updates : List β) (a : α) : α :=
  updates.foldl (fun a u => merge u a) a

/-- What the updates of a new name store: the first one, with the later ones merged. -/
def created (name : β → κ) (merge : β → α → α) (fresh : β → α) (updates : List β) (k : κ) :
    Option α :=
  match updates.filter fun u => name u == k with
  | [] => none
  | first :: later => some (mergeAll merge later (fresh first))

variable {key : α → κ} {name : β → κ} {merge : β → α → α} {fresh : β → α}

theorem created_cons_self {u : β} {updates : List β} :
    created name merge fresh (u :: updates) (name u) =
      some (mergeAll merge (updates.filter fun v => name v == name u) (fresh u)) := by
  rw [created, List.filter_cons_of_pos (p := fun v => name v == name u) (beq_self_eq_true _)]

theorem created_cons_other {u : β} {updates : List β} {k : κ} (other : name u ≠ k) :
    created name merge fresh (u :: updates) k = created name merge fresh updates k := by
  rw [created, created, List.filter_cons_of_neg (by simpa using other)]

/-- The new names: those of the updates that no element has, each where it comes first. -/
def newNames (key : α → κ) (name : β → κ) (updates : List β) (list : List α) : List κ :=
  ((updates.map name).filter fun k => !(list.map key).contains k).eraseDups

theorem mem_newNames {updates : List β} {list : List α} {k : κ} :
    k ∈ newNames key name updates list ↔ k ∈ updates.map name ∧ k ∉ list.map key := by
  rw [newNames, List.mem_eraseDups, List.mem_filter, Bool.not_eq_true', ← Bool.not_eq_true,
    List.contains_iff_mem]

theorem newNames_cons_known {u : β} {updates : List β} {list : List α}
    (known : name u ∈ list.map key) :
    newNames key name (u :: updates) list = newNames key name updates list := by
  rw [newNames, newNames, List.map_cons, List.filter_cons_of_neg (by simpa using known)]

theorem newNames_cons_fresh {u : β} {updates : List β} {list : List α} {a : α}
    (named : key a = name u) (unknown : name u ∉ list.map key) :
    newNames key name (u :: updates) list = name u :: newNames key name updates (list ++ [a]) := by
  rw [newNames, List.map_cons,
    List.filter_cons_of_pos (p := fun k => !(list.map key).contains k) (by simpa using unknown),
    List.eraseDups_cons, List.filter_filter, newNames, List.map_append]
  congr 3
  funext k
  by_cases same : k = name u <;> simp [named, same]

/-- The elements keep their places, each with the updates of its key; the new ones
follow. -/
theorem upsertAll_eq (merges : ∀ u a, key (merge u a) = key a)
    (named : ∀ u, key (fresh u) = name u) {updates : List β} {list : List α}
    (distinct : (list.map key).Nodup) :
    upsertAll key name merge fresh updates list =
      list.map (fun a => mergeAll merge (updates.filter fun u => name u == key a) a) ++
        (newNames key name updates list).filterMap (created name merge fresh updates) := by
  induction updates generalizing list with
  | nil => simp [upsertAll, mergeAll, newNames]
  | cons u updates ih =>
      have stored := (@Overlay.upsert _ _ _ _ _ _ _ _ list (List.mem_singleton_self (name u))
        (fun a same => (merges u a).trans same) (named u)).distinct distinct
      have other {a : α} (apart : key a ≠ name u) :
          (u :: updates).filter (fun u => name u == key a) =
            updates.filter fun u => name u == key a :=
        List.filter_cons_of_neg (by simpa using apart.symm)
      have others {part : List α} (apart : ∀ a ∈ part, key a ≠ name u) :
          part.map (fun a => mergeAll merge (updates.filter fun u => name u == key a) a) =
            part.map fun a => mergeAll merge ((u :: updates).filter fun u => name u == key a) a :=
        List.map_congr_left fun a mem => by rw [other (apart a mem)]
      have own {a : α} (same : key a = name u) :
          (u :: updates).filter (fun u => name u == key a) =
            u :: updates.filter fun u => name u == key a :=
        List.filter_cons_of_pos (by simpa using same.symm)
      rw [upsertAll, List.foldl_cons, ← upsertAll, ih stored]
      rcases @upsert_cases _ (fun a => key a == name u) (merge u) (fresh u) list with
        ⟨front, a, back, rfl, hits, same⟩ | ⟨misses, same⟩
      · have hk : key a = name u := by simpa using hits
        have keyed : (front ++ merge u a :: back).map key = (front ++ a :: back).map key := by
          simp [merges]
        have known : name u ∈ (front ++ a :: back).map key := by simp [hk]
        rw [List.map_append, List.map_cons, List.nodup_middle, List.nodup_cons,
          ← List.map_append] at distinct
        have apart : ∀ b ∈ front ++ back, key b ≠ name u := fun b mem hb =>
          distinct.1 (hk ▸ hb ▸ List.mem_map_of_mem mem)
        rw [same, newNames_cons_known known, newNames, keyed, ← newNames]
        congr 1
        · rw [List.map_append, List.map_append, List.map_cons, List.map_cons,
            others fun b mem => apart b (List.mem_append_left _ mem),
            others fun b mem => apart b (List.mem_append_right _ mem), merges, own hk]
          rfl
        · refine List.filterMap_congr fun k mem => (created_cons_other ?_).symm
          rintro rfl
          exact (mem_newNames.mp mem).2 known
      · have unknown : name u ∉ list.map key := by
          intro found
          obtain ⟨a, mem, hk⟩ := List.mem_map.mp found
          simpa [hk] using misses a mem
        have later : (newNames key name updates (list ++ [fresh u])).filterMap
              (created name merge fresh (u :: updates)) =
            (newNames key name updates (list ++ [fresh u])).filterMap
              (created name merge fresh updates) := by
          refine List.filterMap_congr fun k mem => created_cons_other ?_
          rintro rfl
          exact (mem_newNames.mp mem).2 (by simp [named])
        rw [same, newNames_cons_fresh (named u) unknown, List.filterMap_cons, created_cons_self, later,
          List.map_append, others fun a mem hk => unknown (hk ▸ List.mem_map_of_mem mem),
          List.append_assoc, List.map_singleton, named]
        rfl

end

/-! ## Lists that extend another -/

/-- The elements of `base` are related to the first ones of `target`, and the rest is
`new`. -/
inductive Extends (rel : α → α → Prop) (new : α → Prop) : List α → List α → Prop
  | rest {target : List α} (h : ∀ a ∈ target, new a) : Extends rel new [] target
  | cons {b a : α} {base target : List α} (h : rel b a) (rest : Extends rel new base target) :
      Extends rel new (b :: base) (a :: target)

namespace Extends

variable {rel rel' : α → α → Prop} {new new' : α → Prop} {base target : List α}

theorem refl (h : ∀ a ∈ base, rel a a) : Extends rel new base base := by
  induction base with
  | nil => exact .rest nofun
  | cons a base ih =>
      exact .cons (h a List.mem_cons_self) (ih fun b mem => h b (List.mem_cons_of_mem _ mem))

/-- Lists that agree in what the relation needs. -/
theorem of_map_eq {f : α → β} (h : target.map f = base.map f)
    (hr : ∀ b, ∀ a ∈ target, f a = f b → rel b a) : Extends rel new base target := by
  induction target generalizing base with
  | nil =>
      obtain rfl := List.map_eq_nil_iff.mp h.symm
      exact .rest nofun
  | cons a target ih =>
      cases base with
      | nil => cases h
      | cons b base =>
          rw [List.map_cons, List.map_cons, List.cons.injEq] at h
          exact .cons (hr b a List.mem_cons_self h.1)
            (ih h.2 fun b a mem => hr b a (List.mem_cons_of_mem _ mem))

theorem forall_mem {P : α → Prop} (h : Extends rel new base target) (hr : ∀ b a, rel b a → P a)
    (hn : ∀ a, new a → P a) : ∀ a ∈ target, P a := by
  induction h with
  | rest h => exact fun a mem => hn a (h a mem)
  | cons h rest ih =>
      intro a mem
      rcases List.mem_cons.mp mem with rfl | mem
      · exact hr _ _ h
      · exact ih a mem

theorem mono (h : Extends rel new base target) (hr : ∀ b a, rel b a → rel' b a)
    (hn : ∀ a, new a → new' a) : Extends rel' new' base target := by
  induction h with
  | rest h => exact .rest fun a mem => hn a (h a mem)
  | cons h rest ih => exact .cons (hr _ _ h) ih

theorem upsert {hit : α → Bool} {merge : α → α} {fresh : α} (h : Extends rel new base target)
    (hr : ∀ b a, rel b a → hit a = true → rel b (merge a))
    (hn : ∀ a, new a → hit a = true → new (merge a)) (hf : new fresh) :
    Extends rel new base (upsert hit merge fresh target) := by
  induction h with
  | @rest list h =>
      refine .rest fun a mem => ?_
      rcases @upsert_cases _ hit merge fresh list with ⟨front, b, back, rfl, hits, same⟩ | ⟨-, same⟩
      · rw [same, List.mem_append, List.mem_cons] at mem
        rcases mem with mem | rfl | mem
        · exact h a (by simp [mem])
        · exact hn b (h b (by simp)) hits
        · exact h a (by simp [mem])
      · rw [same, List.mem_append, List.mem_singleton] at mem
        rcases mem with mem | rfl
        · exact h a mem
        · exact hf
  | cons h rest ih =>
      rw [Lists.upsert]
      split
      next hits => exact .cons (hr _ _ h hits) rest
      next => exact .cons h ih

theorem foldl {store : List α → β → List α} {updates : List β} (h : Extends rel new base target)
    (hs : ∀ list, ∀ u ∈ updates, Extends rel new base list →
      Extends rel new base (store list u)) :
    Extends rel new base (updates.foldl store target) := by
  induction updates generalizing target with
  | nil => exact h
  | cons u updates ih =>
      exact ih (hs target u List.mem_cons_self h)
        fun list v mem => hs list v (List.mem_cons_of_mem _ mem)

end Extends

section

variable {hit : β → α → Bool} {merge : β → α → α} {fresh : β → α} {edited : α → Bool}
  {update : α → β}

/-- The edited elements of a list, stored again in the list that it extends. Elements
with an update of their own do not hit one another. -/
theorem foldl_upsert_append {base target : List α}
    (h : Extends (fun b a => (edited a = true ∧ hit (update a) b = true ∧ merge (update a) b = a) ∨
      (edited a = false ∧ b = a)) (fun a => edited a = true ∧ fresh (update a) = a) base target)
    (front : List α) (clear : ∀ b ∈ front, ∀ a ∈ target, edited a = true → hit (update a) b = false)
    (apart : target.Pairwise fun b a => edited a = true → hit (update a) b = false) :
    ((target.filter edited).map update).foldl
        (fun list u => upsert (hit u) (merge u) (fresh u) list) (front ++ base) =
      front ++ target := by
  -- The elements that have been passed are moved to the front.
  have moved {a : α} {target : List α} {front : List α}
      (clear : ∀ b ∈ front, ∀ c ∈ a :: target, edited c = true → hit (update c) b = false)
      (apart : (a :: target).Pairwise fun b a => edited a = true → hit (update a) b = false) :
      ∀ b ∈ front ++ [a], ∀ c ∈ target, edited c = true → hit (update c) b = false := by
    intro b hb c hc he
    rcases List.mem_append.mp hb with hb | hb
    · exact clear b hb c (List.mem_cons_of_mem _ hc) he
    · rw [List.mem_singleton.mp hb]
      exact List.rel_of_pairwise_cons apart hc he
  induction h generalizing front with
  | @rest target h =>
      induction target generalizing front with
      | nil => rfl
      | cons a target ih =>
          obtain ⟨he, hf⟩ := h a List.mem_cons_self
          have misses : ∀ b ∈ front, hit (update a) b = false :=
            fun b mem => clear b mem a List.mem_cons_self he
          have next := ih (fun b mem => h b (List.mem_cons_of_mem _ mem)) (front ++ [a])
            (moved clear apart) apart.of_cons
          rw [List.append_nil] at next
          rw [List.filter_cons_of_pos he, List.map_cons, List.foldl_cons, upsert_append misses,
            upsert, hf, next, List.append_assoc]
          rfl
  | @cons b a base target h rest ih =>
      have next := ih (front ++ [a]) (moved clear apart) apart.of_cons
      rw [List.append_assoc, List.append_assoc] at next
      rcases h with ⟨he, hits, same⟩ | ⟨kept, rfl⟩
      · have misses : ∀ b ∈ front, hit (update a) b = false :=
          fun b mem => clear b mem a List.mem_cons_self he
        rw [List.filter_cons_of_pos he, List.map_cons, List.foldl_cons, upsert_append misses,
          upsert, if_pos hits, same]
        exact next
      · rw [List.filter_cons_of_neg (by simp [kept])]
        exact next

theorem foldl_upsert_eq {base target : List α}
    (h : Extends (fun b a => (edited a = true ∧ hit (update a) b = true ∧ merge (update a) b = a) ∨
      (edited a = false ∧ b = a)) (fun a => edited a = true ∧ fresh (update a) = a) base target)
    (apart : target.Pairwise fun b a => edited a = true → hit (update a) b = false) :
    ((target.filter edited).map update).foldl
      (fun list u => upsert (hit u) (merge u) (fresh u) list) base = target :=
  foldl_upsert_append h [] nofun apart

end

end Lists
