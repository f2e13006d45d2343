import Mathlib.Data.List.Dedup
import Mathlib.Data.List.Pairwise

/-!
# Replacing by a key

`replace` takes away what has the key of a value and appends the value, if it is to be
kept. `latest` leaves of a list what no later element of the same key follows.

`foldl_replace`: a sequence of replacements leaves the others in their order, and after
them the latest of each key that are to be kept.
-/

namespace Lists

variable {α β κ : Type} [DecidableEq κ]

def replace (key : α → κ) (keep : α → Bool) (list : List α) (a : α) : List α :=
  list.filter (fun b => key b != key a) ++ if keep a then [a] else []

def latest (key : α → κ) (list : List α) : List α := list.pwFilter fun a b => key a ≠ key b

section

variable {key : α → κ} {keep : α → Bool} {list : List α} {a : α}

theorem map_latest : (latest key list).map key = (list.map key).dedup := by
  rw [List.dedup, List.pwFilter_map]
  rfl

theorem latest_nodup : ((latest key list).map key).Nodup := by
  rw [map_latest]
  exact List.nodup_dedup _

theorem latest_sublist : (latest key list).Sublist list := List.pwFilter_sublist list

/-- Every key of the list has a latest element. -/
theorem mem_map_latest {k : κ} : k ∈ (latest key list).map key ↔ k ∈ list.map key := by
  rw [map_latest, List.mem_dedup]

theorem latest_cons : latest key (a :: list) =
    if key a ∈ list.map key then latest key list else a :: latest key list := by
  unfold latest
  split
  next later =>
    obtain ⟨b, mem, same⟩ := List.mem_map.mp (mem_map_latest.mpr later)
    exact List.pwFilter_cons_of_neg fun apart => apart b mem same.symm
  next last =>
    refine List.pwFilter_cons_of_pos fun b mem same => last ?_
    rw [same]
    exact List.mem_map_of_mem (List.pwFilter_subset list mem)

/-- Of a key the last element is left. -/
theorem filter_latest {k : κ} : (latest key list).filter (fun a => key a == k) =
    (list.filter fun a => key a == k).getLast?.toList := by
  induction list with
  | nil => rfl
  | cons a list ih =>
      rw [latest_cons]
      by_cases hits : key a = k
      · have hits' : (key a == k) = true := by simpa using hits
        rw [List.filter_cons_of_pos (p := fun a => key a == k) hits']
        split
        next later =>
          obtain ⟨b, mem, same⟩ := List.mem_map.mp later
          have present : b ∈ list.filter fun a => key a == k :=
            List.mem_filter.mpr ⟨mem, by simpa using same.trans hits⟩
          rw [ih, List.getLast?_cons_of_ne_nil (List.ne_nil_of_mem present)]
        next last =>
          have none : list.filter (fun a => key a == k) = [] :=
            List.filter_eq_nil_iff.mpr fun b mem same => last
              (hits.trans (by simpa using same : key b = k).symm ▸ List.mem_map_of_mem mem)
          rw [List.filter_cons_of_pos (p := fun a => key a == k) hits', ih, none]
          rfl
      · have misses : ¬(key a == k) = true := by simpa using hits
        rw [List.filter_cons_of_neg (p := fun a => key a == k) misses, ← ih]
        split
        · rfl
        · exact List.filter_cons_of_neg (p := fun a => key a == k) misses

end

theorem map_replace {key : α → κ} {keep : α → Bool} {f : α → β} (key' : β → κ)
    (same : ∀ a, key' (f a) = key a) (list : List α) (a : α) :
    (replace key keep list a).map f =
      (list.map f).filter (fun b => key' b != key a) ++ if keep a then [f a] else [] := by
  rw [replace, List.map_append, List.filter_map]
  congr 1
  · simp only [Function.comp_def, same]
  · split <;> rfl

theorem foldl_replace (key : α → κ) (keep : α → Bool) (updates list : List α) :
    updates.foldl (replace key keep) list =
      list.filter (fun a => !(updates.map key).contains (key a)) ++
        (latest key updates).filter keep := by
  induction updates generalizing list with
  | nil => simp [latest]
  | cons u updates ih =>
      have others : (list.filter fun a => key a != key u).filter
          (fun a => !(updates.map key).contains (key a)) =
          list.filter fun a => !((u :: updates).map key).contains (key a) := by
        rw [List.filter_filter]
        refine List.filter_congr fun a _ => ?_
        rw [List.map_cons, List.contains_cons, Bool.not_or, Bool.and_comm]
        rfl
      rw [List.foldl_cons, ih, replace, List.filter_append, others, latest_cons, List.append_assoc]
      congr 1
      by_cases later : key u ∈ updates.map key
      · have gone : (if keep u then [u] else []).filter
            (fun a => !(updates.map key).contains (key a)) = [] := by
          split <;> simp only [List.filter_nil, List.filter_cons, List.contains_iff_mem.mpr later,
            Bool.not_true, Bool.false_eq_true, if_false]
        rw [gone, if_pos later, List.nil_append]
      · have stays : (!(updates.map key).contains (key u)) = true := by simpa using later
        rw [if_neg later, List.filter_cons]
        split
        next =>
          have kept : [u].filter (fun a => !(updates.map key).contains (key a)) = [u] :=
            List.filter_cons_of_pos stays
          rw [kept, List.singleton_append]
        next => rw [List.filter_nil, List.nil_append]

end Lists
