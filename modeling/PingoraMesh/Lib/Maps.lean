import Mathlib

/-!
# Finite maps and sorted lists

`mem_values` says what the values of a map are, `map_values_nodup` that values which know their keys are all different,
and `length_values` how many there are. For each update there is a lemma that says where a value comes from.

A comparison that is a linear preorder sorts (`pairwise_insertionSort_cmp`), and a lexicographic one is read off
comparison by comparison (`then_ne_gt_iff`). Sorted lists with the same elements agree on those among which the order is
antisymmetric (`filter_eq_of_sorted`), whatever the others are; and sorting leaves elements that the order does not
separate where they are (`filter_insertionSort`).
-/

namespace Maps

open Std

variable {K V : Type} {cmp : K → K → Ordering} [TransCmp cmp]

theorem values_eq (m : ExtTreeMap K V cmp) : m.values = m.toList.map (·.2) := by
  have h : m.values = m.foldr (fun _ v vs => v :: vs) [] := by
    obtain ⟨⟨q⟩⟩ := m
    induction q using Quotient.ind with
    | _ t => rfl
  rw [h, ExtTreeMap.foldr_eq_foldr_toList]
  induction m.toList with
  | nil => rfl
  | cons kv kvs ih => rw [List.foldr_cons, List.map_cons, ih]

theorem values_map {W : Type} (m : ExtTreeMap K V cmp) (f : V → W) : (m.map fun _ v => f v).values =
    m.values.map f := by
  rw [values_eq, values_eq, ExtTreeMap.toList_map, List.map_map, List.map_map]
  rfl

variable [LawfulEqCmp cmp]

theorem mem_values {m : ExtTreeMap K V cmp} {v : V} : v ∈ m.values ↔ ∃ k : K, m[k]? = some v := by
  rw [values_eq, List.mem_map]
  constructor
  · rintro ⟨⟨k, _⟩, hk, rfl⟩
    exact ⟨k, ExtTreeMap.mem_toList_iff_getElem?_eq_some.1 hk⟩
  · rintro ⟨k, hk⟩
    exact ⟨(k, v), ExtTreeMap.mem_toList_iff_getElem?_eq_some.2 hk, rfl⟩

/-- Values that know their keys are all different. -/
theorem map_values_nodup {m : ExtTreeMap K V cmp} {key : V → K} (h : ∀ (k : K) v, m[k]? = some v → key v = k) :
    (m.values.map key).Nodup := by
  have hkeys : m.values.map key = m.toList.map (·.1) := by
    rw [values_eq, List.map_map]
    refine List.map_congr_left fun kv hkv => ?_
    exact h kv.1 kv.2 (ExtTreeMap.mem_toList_iff_getElem?_eq_some.1 hkv)
  rw [hkeys, List.nodup_iff_pairwise_ne, List.pairwise_map]
  refine ExtTreeMap.distinct_keys_toList.imp fun hne e => hne ?_
  rw [e]
  exact ReflCmp.compare_self

/-- A map with the keys `ks` has as many values. -/
theorem length_values {m : ExtTreeMap K V cmp} {ks : List K} (hd : ks.Nodup) (h : ∀ k, k ∈ m ↔ k ∈ ks) :
    m.values.length = ks.length := by
  have hkeys : m.keys.Nodup := by
    rw [List.nodup_iff_pairwise_ne]
    refine ExtTreeMap.distinct_keys.imp fun hne e => hne ?_
    rw [e]
    exact ReflCmp.compare_self
  have hperm : m.keys.Perm ks := (List.perm_ext_iff_of_nodup hkeys hd).2 fun k => by rw [ExtTreeMap.mem_keys, h k]
  rw [← hperm.length_eq, values_eq, List.length_map, ExtTreeMap.length_keys, ExtTreeMap.length_toList]

theorem modify_modify (m : ExtTreeMap K V cmp) (k : K) (f g : V → V) :
    (m.modify k f).modify k g = m.modify k fun v => g (f v) := by
  refine ExtTreeMap.ext_getElem? fun a => ?_
  simp only [ExtTreeMap.getElem?_modify]
  split
  · simp [Function.comp_def]
  · rfl

/-- A modified value, or another one. -/
theorem getElem?_modify_eq_some {m : ExtTreeMap K V cmp} {k a : K} {f : V → V} {v : V}
    (h : (m.modify k f)[a]? = some v) : (a = k ∧ ∃ u, m[k]? = some u ∧ v = f u) ∨ (a ≠ k ∧ m[a]? = some v) := by
  rw [ExtTreeMap.getElem?_modify] at h
  split at h
  · rename_i e
    rw [LawfulEqCmp.compare_eq_iff_eq] at e
    obtain ⟨u, hu, rfl⟩ := Option.map_eq_some_iff.1 h
    exact .inl ⟨e.symm, u, hu, rfl⟩
  · rename_i e
    exact .inr ⟨fun ea => e (ea ▸ ReflCmp.compare_self), h⟩

/-- The inserted value, or another one. -/
theorem getElem?_insert_eq_some {m : ExtTreeMap K V cmp} {k a : K} {v u : V} (h : (m.insert k v)[a]? = some u) :
    (a = k ∧ u = v) ∨ (a ≠ k ∧ m[a]? = some u) := by
  rw [ExtTreeMap.getElem?_insert] at h
  split at h
  · rename_i e
    rw [LawfulEqCmp.compare_eq_iff_eq] at e
    cases h
    exact .inl ⟨e.symm, rfl⟩
  · rename_i e
    exact .inr ⟨fun ea => e (ea ▸ ReflCmp.compare_self), h⟩

/-- A value that is left after an erasure. -/
theorem getElem?_erase_eq_some {m : ExtTreeMap K V cmp} {k a : K} {v : V} (h : (m.erase k)[a]? = some v) :
    a ≠ k ∧ m[a]? = some v := by
  rw [ExtTreeMap.getElem?_erase] at h
  split at h
  · cases h
  · rename_i e
    exact ⟨fun ea => e (ea ▸ ReflCmp.compare_self), h⟩

/-- A value that passes a filter. -/
theorem getElem?_filter_eq_some {m : ExtTreeMap K V cmp} {f : K → V → Bool} {a : K} {v : V}
    (h : (m.filter f)[a]? = some v) : m[a]? = some v ∧ f a v = true := by
  rw [ExtTreeMap.getElem?_filter'] at h
  exact Option.filter_eq_some_iff.1 h

/-- A filter that all values pass. -/
theorem filter_eq_self {m : ExtTreeMap K V cmp} {f : K → V → Bool} (h : ∀ (k : K) v, m[k]? = some v → f k v = true) :
    m.filter f = m := by
  refine ExtTreeMap.ext_getElem? fun a => ?_
  rw [ExtTreeMap.getElem?_filter']
  cases hv : m[a]? with
  | none => rfl
  | some v => rw [Option.filter_some, if_pos (h a v hv)]

/-- The image of a value. -/
theorem getElem?_map_eq_some {W : Type} {m : ExtTreeMap K V cmp} {f : K → V → W} {a : K} {u : W}
    (h : (m.map f)[a]? = some u) : ∃ v, m[a]? = some v ∧ u = f a v := by
  rw [ExtTreeMap.getElem?_map] at h
  obtain ⟨v, hv, rfl⟩ := Option.map_eq_some_iff.1 h
  exact ⟨v, hv, rfl⟩

end Maps

/-! ## Sorting by a comparison -/

namespace Sorted

/-- A list sorted by a comparison is sorted. -/
theorem pairwise_insertionSort_cmp {α : Type} (cmp : α → α → Ordering) [Std.TransCmp cmp] (as : List α) :
    (as.insertionSort fun l r => cmp l r ≠ .gt).Pairwise fun l r => cmp l r ≠ .gt := by
  have htrans : IsTrans α fun l r => cmp l r ≠ .gt := by
    constructor
    intro a b c hab hbc
    have hac := Std.TransCmp.isLE_trans (Ordering.isLE_iff_ne_gt.2 hab) (Ordering.isLE_iff_ne_gt.2 hbc)
    exact Ordering.isLE_iff_ne_gt.1 hac
  have htotal : Std.Total fun l r => cmp l r ≠ .gt := by
    constructor
    intro a b
    by_contra h
    obtain ⟨hab, hba⟩ := not_or.1 h
    rw [not_not] at hab hba
    have hswap : cmp a b = (cmp b a).swap := Std.OrientedCmp.eq_swap
    rw [hswap, hba] at hab
    cases hab
  exact List.pairwise_insertionSort _ as

/-- The first comparison decides, unless its sides are equal. -/
theorem then_ne_gt_iff {α : Type} [LinearOrder α] {a b : α} {o : Ordering} :
    (compare a b).then o ≠ .gt ↔ a < b ∨ a = b ∧ o ≠ .gt := by
  rcases lt_trichotomy a b with h | rfl | h
  · simp [compare_lt_iff_lt.2 h, h]
  · simp
  · simp [compare_gt_iff_gt.2 h, h.not_gt, h.ne']

/-- Sorted lists with the same elements agree on those among which the order is antisymmetric. -/
theorem filter_eq_of_sorted {α : Type} {le : α → α → Prop} {xs ys : List α} (hp : xs.Perm ys) (hx : xs.Pairwise le)
    (hy : ys.Pairwise le) {p : α → Bool}
    (h : ∀ a ∈ xs, ∀ b ∈ xs, p a = true → p b = true → le a b → le b a → a = b) : xs.filter p = ys.filter p := by
  refine List.Perm.eq_of_pairwise ?_ (hx.filter p) (hy.filter p) (hp.filter p)
  intro a b ha hb
  obtain ⟨ha, hpa⟩ := List.mem_filter.1 ha
  obtain ⟨hb, hpb⟩ := List.mem_filter.1 hb
  exact h a ha b (hp.mem_iff.2 hb) hpa hpb

/-- Insertion sort is stable: elements that are related to each other keep their places. -/
theorem filter_insertionSort {α : Type} {r : α → α → Prop} [DecidableRel r] {p : α → Bool}
    (h : ∀ a b, p a = true → p b = true → r a b) (as : List α) : (as.insertionSort r).filter p = as.filter p := by
  have hpair : (as.filter p).Pairwise r := by
    refine List.pairwise_of_forall_mem_list fun a ha b hb => ?_
    exact h a b (List.mem_filter.1 ha).2 (List.mem_filter.1 hb).2
  have hsub := (List.sublist_insertionSort hpair List.filter_sublist).filter p
  rw [List.filter_filter] at hsub
  simp only [Bool.and_self] at hsub
  exact (hsub.eq_of_length (((List.perm_insertionSort r as).filter p).length_eq).symm).symm

end Sorted
