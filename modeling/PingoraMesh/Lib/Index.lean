import Mathlib

/-!
# Secondary indexes

A table keeps its records under their identifiers, and an index takes a key of a record back to its identifier.
`Exact` says that the index is right in both directions; then no two records share a key (`Exact.key_inj`). `Table`
adds what identifiers are: a record is kept under its own, which is below the bound of those drawn so far.

* a record may be saved if it is new and its key is free, or if it replaces one with the same key (`Saves`,
  `Table.insert`); saving it under a new key leaves the old entry behind (`not_exact_insert_of_rename`);
* deleting a record together with its entry, and changing records without their keys, keep the table
  (`Table.erase`, `Table.map`, `Table.modify`).
-/

namespace Index

variable {K R : Type} [Ord K] [Std.TransOrd K]

/-- The index takes `k` to `i` exactly when the record `i` carries the key `k`. -/
def Exact (recs : Std.ExtTreeMap Nat R compare) (ids : Std.ExtTreeMap K Nat compare) (key : R → K) : Prop :=
  ∀ k i, ids[k]? = some i ↔ ∃ r, recs[i]? = some r ∧ key r = k

/-- What is asked of a save: a new record with a free key, or one that keeps the key of the record it replaces. -/
def Saves (recs : Std.ExtTreeMap Nat R compare) (ids : Std.ExtTreeMap K Nat compare) (key : R → K) (i : Nat) (r : R) :
    Prop :=
  (recs[i]? = none ∧ ids[key r]? = none) ∨ ∃ r₀, recs[i]? = some r₀ ∧ key r₀ = key r

/-- An exact index over records that are kept under their own identifiers, all below `bound`. -/
structure Table (bound : Nat) (recs : Std.ExtTreeMap Nat R compare) (ids : Std.ExtTreeMap K Nat compare) (key : R → K)
    (ident : R → Nat) : Prop where
  exact : Exact recs ids key
  ident : ∀ i r, recs[i]? = some r → ident r = i
  bound : ∀ i r, recs[i]? = some r → i < bound

variable {recs : Std.ExtTreeMap Nat R compare} {ids : Std.ExtTreeMap K Nat compare} {key : R → K} {ident : R → Nat}
  {bound : Nat}

theorem exact_empty : Exact (∅ : Std.ExtTreeMap Nat R compare) (∅ : Std.ExtTreeMap K Nat compare) key := by
  intro k i
  simp

/-- No two records share a key. -/
theorem Exact.key_inj (h : Exact recs ids key) {i j : Nat} {r r' : R} (hi : recs[i]? = some r)
    (hj : recs[j]? = some r') (hk : key r = key r') : i = j := by
  have h1 := (h (key r) i).2 ⟨r, hi, rfl⟩
  have h2 := (h (key r) j).2 ⟨r', hj, hk.symm⟩
  exact Option.some.inj (h1.symm.trans h2)

/-- Looking a record up by a key: through an exact index it is there under its identifier, or the key is free. -/
theorem Exact.lookup (h : Exact recs ids key) (k : K) :
    (∀ r, (ids[k]?.bind fun i => recs[i]?) = some r → ∃ i : Nat, recs[i]? = some r ∧ key r = k) ∧
      ((ids[k]?.bind fun i => recs[i]?) = none → ids[k]? = none) := by
  cases hk : ids[k]? with
  | none => exact ⟨fun r hr => by (cases hr), fun _ => rfl⟩
  | some i =>
    obtain ⟨r, hr, he⟩ := (h k i).1 hk
    refine ⟨fun r' hr' => ⟨i, hr', ?_⟩, fun hn => ?_⟩
    · rw [Option.bind_some, hr] at hr'
      cases hr'
      exact he
    · rw [Option.bind_some, hr] at hn
      cases hn

namespace Table

theorem empty : Table bound (∅ : Std.ExtTreeMap Nat R compare) (∅ : Std.ExtTreeMap K Nat compare) key ident :=
  ⟨exact_empty, by simp, by simp⟩

theorem mono (h : Table bound recs ids key ident) {bound' : Nat} (hb : bound ≤ bound') :
    Table bound' recs ids key ident :=
  ⟨h.exact, h.ident, fun i r hi => Nat.lt_of_lt_of_le (h.bound i r hi) hb⟩

/-- An identifier that has not been drawn is free. -/
theorem fresh (h : Table bound recs ids key ident) {i : Nat} (hi : bound ≤ i) : recs[i]? = none := by
  cases hr : recs[i]? with
  | none => rfl
  | some r => exact absurd (h.bound i r hr) (Nat.not_lt.2 hi)

/-- Records change, their keys and identifiers do not. -/
theorem congr (h : Table bound recs ids key ident) {recs' : Std.ExtTreeMap Nat R compare} (f : Nat → R → R)
    (hf : ∀ i r, key (f i r) = key r ∧ ident (f i r) = ident r) (hr : ∀ i : Nat, recs'[i]? = recs[i]?.map (f i)) :
    Table bound recs' ids key ident := by
  refine ⟨fun k i => ?_, fun i r hi => ?_, fun i r hi => ?_⟩
  · rw [h.exact k i, hr i]
    constructor
    · rintro ⟨r, hi, hk⟩
      exact ⟨f i r, by rw [hi]; rfl, (hf i r).1.trans hk⟩
    · rintro ⟨r', hi, hk⟩
      obtain ⟨r, hr, rfl⟩ := Option.map_eq_some_iff.1 hi
      exact ⟨r, hr, (hf i r).1.symm.trans hk⟩
  · rw [hr i] at hi
    obtain ⟨r₀, hr₀, rfl⟩ := Option.map_eq_some_iff.1 hi
    exact (hf i r₀).2.trans (h.ident i r₀ hr₀)
  · rw [hr i] at hi
    obtain ⟨r₀, hr₀, rfl⟩ := Option.map_eq_some_iff.1 hi
    exact h.bound i r₀ hr₀

theorem map (h : Table bound recs ids key ident) (f : Nat → R → R)
    (hf : ∀ i r, key (f i r) = key r ∧ ident (f i r) = ident r) : Table bound (recs.map f) ids key ident :=
  h.congr f hf fun _ => Std.ExtTreeMap.getElem?_map

theorem modify (h : Table bound recs ids key ident) (i : Nat) (f : R → R)
    (hf : ∀ r, key (f r) = key r ∧ ident (f r) = ident r) : Table bound (recs.modify i f) ids key ident := by
  refine h.congr (fun j r => if i = j then f r else r) (fun j r => ?_) (fun j => ?_)
  · split
    · exact hf r
    · exact ⟨rfl, rfl⟩
  · rw [Std.ExtTreeMap.getElem?_modify]
    simp only [Std.compare_eq_iff_eq]
    split
    · subst j
      rfl
    · exact Option.map_id'.symm

end Table

/-! ## Saving and deleting -/

variable [Std.LawfulEqOrd K]

/-- Saving a record under another key leaves the old entry behind. -/
theorem not_exact_insert_of_rename (h : Exact recs ids key) {i : Nat} {r₀ r : R} (hi : recs[i]? = some r₀)
    (hk : key r₀ ≠ key r) : ¬ Exact (recs.insert i r) (ids.insert (key r) i) key := by
  intro hx
  have hold := (h (key r₀) i).2 ⟨r₀, hi, rfl⟩
  have hnew : (ids.insert (key r) i)[key r₀]? = some i := by
    rw [Std.ExtTreeMap.getElem?_insert]
    simp [hold, hk.symm]
  obtain ⟨r', hr', hk'⟩ := (hx (key r₀) i).1 hnew
  rw [Std.ExtTreeMap.getElem?_insert_self, Option.some.injEq] at hr'
  subst hr'
  exact hk hk'.symm

variable [DecidableEq K]

theorem Exact.insert (h : Exact recs ids key) {i : Nat} {r : R} (hs : Saves recs ids key i r) :
    Exact (recs.insert i r) (ids.insert (key r) i) key := by
  intro k j
  rw [Std.ExtTreeMap.getElem?_insert, Std.ExtTreeMap.getElem?_insert]
  simp only [Std.compare_eq_iff_eq]
  by_cases hk : key r = k
  · subst hk
    by_cases hj : i = j
    · subst hj
      simp
    · simp only [if_true, hj, if_false, Option.some.injEq, false_iff]
      rintro ⟨r', hr', hk'⟩
      rcases hs with ⟨-, hf⟩ | ⟨r₀, hr₀, hk₀⟩
      · rw [(h _ _).2 ⟨r', hr', hk'⟩] at hf
        cases hf
      · exact hj (h.key_inj hr₀ hr' (hk₀.trans hk'.symm))
  · by_cases hj : i = j
    · subst hj
      simp only [hk, if_false, if_true, Option.some.injEq, exists_eq_left', iff_false]
      intro hi
      obtain ⟨r', hr', hk'⟩ := (h _ _).1 hi
      rcases hs with ⟨hn, -⟩ | ⟨r₀, hr₀, hk₀⟩
      · rw [hn] at hr'
        cases hr'
      · rw [hr₀] at hr'
        cases hr'
        exact hk (hk₀.symm.trans hk')
    · simp only [hk, hj, if_false]
      exact h k j

theorem Exact.erase (h : Exact recs ids key) {i : Nat} {r : R} (hi : recs[i]? = some r) :
    Exact (recs.erase i) (ids.erase (key r)) key := by
  intro k j
  rw [Std.ExtTreeMap.getElem?_erase, Std.ExtTreeMap.getElem?_erase]
  simp only [Std.compare_eq_iff_eq]
  by_cases hk : key r = k
  · subst hk
    simp only [if_true, reduceCtorEq, false_iff]
    rintro ⟨r', hr', hk'⟩
    split at hr'
    · cases hr'
    · exact absurd (h.key_inj hi hr' hk'.symm) (by assumption)
  · simp only [hk, if_false]
    by_cases hj : i = j
    · subst hj
      simp only [if_true, reduceCtorEq, false_and, exists_false, iff_false]
      intro hi'
      obtain ⟨r', hr', hk'⟩ := (h _ _).1 hi'
      rw [hi] at hr'
      cases hr'
      exact hk hk'
    · simp only [hj, if_false]
      exact h k j

theorem Table.insert (h : Table bound recs ids key ident) {r : R} (hb : ident r < bound)
    (hs : Saves recs ids key (ident r) r) :
    Table bound (recs.insert (ident r) r) (ids.insert (key r) (ident r)) key ident := by
  have hget : ∀ i r', (recs.insert (ident r) r)[i]? = some r' → ident r = i ∧ r = r' ∨ recs[i]? = some r' := by
    intro i r' hi
    rw [Std.ExtTreeMap.getElem?_insert] at hi
    split at hi
    · exact .inl ⟨Std.compare_eq_iff_eq.1 (by assumption), Option.some.inj hi⟩
    · exact .inr hi
  refine ⟨h.exact.insert hs, fun i r' hi => ?_, fun i r' hi => ?_⟩
  · rcases hget i r' hi with ⟨hid, rfl⟩ | hi
    · exact hid
    · exact h.ident i r' hi
  · rcases hget i r' hi with ⟨hid, rfl⟩ | hi
    · exact hid ▸ hb
    · exact h.bound i r' hi

theorem Table.erase (h : Table bound recs ids key ident) {i : Nat} {r : R} (hi : recs[i]? = some r) :
    Table bound (recs.erase i) (ids.erase (key r)) key ident := by
  have hget : ∀ (j : Nat) r', (recs.erase i)[j]? = some r' → recs[j]? = some r' := by
    intro j r' hj
    rw [Std.ExtTreeMap.getElem?_erase] at hj
    split at hj
    · cases hj
    · exact hj
  exact ⟨h.exact.erase hi, fun j r' hj => h.ident j r' (hget j r' hj), fun j r' hj => h.bound j r' (hget j r' hj)⟩

end Index
