import Mathlib

/-!
# Cells replaced one after another

Versions of some cells come one after another. Each is written cell by cell, in one order for all of them; a writing may
break off before any cell, and it may spoil the cell at which it breaks off. `Mixed` says how the cells stand then: of
two cells, the one that comes first in the order is from a version that is no older, and the cells written so far are
those of the last version.

* There is one rule for each step: `Mixed.start`, `Mixed.begin`, `Mixed.write`, `Mixed.spoil`; `Mixed.congr` is for what
  goes on elsewhere.
* `Mixed.whole`: once the last version is written to the end, it is in every cell.
-/

namespace Replace

variable {κ β V : Type}

section Definitions

variable (content : V → κ → β) (spoiled : β) (initial : κ → Option β)

/-- Where the content `b` of the cell `k` is from: `0` is what was there at the start, and the versions in `begun` are
counted from `1` on. -/
inductive From (begun : List V) (k : κ) (b : Option β) : Nat → Prop
  | initial (h : b = initial k) : From begun k b 0
  | version {n : Nat} {v : V} (hv : begun[n]? = some v) (h : b = some (content v k)) : From begun k b (n + 1)
  | spoiled {n : Nat} (hn : n < begun.length) (h : b = some spoiled) : From begun k b (n + 1)

/-- The cells when the versions in `begun` were begun one after another, and `placed` cells of the last one are
written. -/
structure Mixed (order : List κ) (begun : List V) (placed : Nat) (cells : κ → Option β) : Prop where
  ages : ∃ age : κ → Nat, (∀ k ∈ order, From content spoiled initial begun k (cells k) (age k)) ∧
    order.Pairwise (fun a b => age b ≤ age a) ∧ ∀ k ∈ order.take placed, age k = begun.length
  written : ∀ k ∈ order.take placed, ∃ v ∈ begun.getLast?, cells k = some (content v k)

end Definitions

variable {content : V → κ → β} {spoiled : β} {initial : κ → Option β} {order : List κ} {begun : List V} {placed : Nat}
  {cells cells' : κ → Option β} {k : κ} {v : V}

theorem From.le_length {b : Option β} {n : Nat} (h : From content spoiled initial begun k b n) : n ≤ begun.length := by
  cases h with
  | initial _ => exact Nat.zero_le _
  | version hv _ => exact (List.getElem?_eq_some_iff.1 hv).1
  | spoiled hn _ => exact hn

theorem From.concat {b : Option β} {n : Nat} (h : From content spoiled initial begun k b n) (v : V) :
    From content spoiled initial (begun ++ [v]) k b n := by
  cases h with
  | initial h => exact .initial h
  | version hv h => exact .version (by rw [List.getElem?_append_left (List.getElem?_eq_some_iff.1 hv).1, hv]) h
  | spoiled hn h => exact .spoiled (by rw [List.length_append]; exact Nat.lt_add_right _ hn) h

theorem not_mem_take (hnodup : order.Nodup) (hk : order[placed]? = some k) : k ∉ order.take placed := by
  intro hmem
  obtain ⟨hlt, rfl⟩ := List.getElem?_eq_some_iff.1 hk
  obtain ⟨i, hi, he⟩ := List.mem_take_iff_getElem.1 hmem
  have hi' : i < placed := (Nat.lt_min.1 hi).1
  have : i = placed := (List.Nodup.getElem_inj_iff hnodup).1 he
  omega

/-- The cells at the start. -/
theorem Mixed.start : Mixed content spoiled initial order [] 0 initial where
  ages := ⟨fun _ => 0, fun _ _ => .initial rfl, List.pairwise_of_forall fun _ _ => Nat.le_refl _, by simp⟩
  written := by simp

/-- A version is begun. -/
theorem Mixed.begin (h : Mixed content spoiled initial order begun placed cells) (v : V) :
    Mixed content spoiled initial order (begun ++ [v]) 0 cells where
  ages := by
    obtain ⟨age, hfrom, hsorted, -⟩ := h.ages
    exact ⟨age, fun k hk => (hfrom k hk).concat v, hsorted, by simp⟩
  written := by simp

/-- Only the cells in the order matter. -/
theorem Mixed.congr (h : Mixed content spoiled initial order begun placed cells)
    (he : ∀ k ∈ order, cells' k = cells k) : Mixed content spoiled initial order begun placed cells' where
  ages := by
    obtain ⟨age, hfrom, hrest⟩ := h.ages
    refine ⟨age, fun k hk => ?_, hrest⟩
    rw [he k hk]
    exact hfrom k hk
  written k hk := by
    rw [he k (List.mem_of_mem_take hk)]
    exact h.written k hk

/-- The next cell becomes one of the last version. -/
theorem Mixed.ages_next (h : Mixed content spoiled initial order begun placed cells) (hnodup : order.Nodup)
    (hk : order[placed]? = some k) (hfrom : From content spoiled initial begun k (cells' k) begun.length)
    (hother : ∀ j, j ≠ k → cells' j = cells j) :
    ∃ age : κ → Nat, (∀ j ∈ order, From content spoiled initial begun j (cells' j) (age j)) ∧
      order.Pairwise (fun a b => age b ≤ age a) ∧ ∀ j ∈ order.take (placed + 1), age j = begun.length := by
  classical
  obtain ⟨age, hage, hsorted, htop⟩ := h.ages
  have hnew : ∀ j ∈ order, From content spoiled initial begun j (cells' j) (Function.update age k begun.length j) := by
    intro j hj
    by_cases hjk : j = k
    · subst hjk
      rw [Function.update_self]
      exact hfrom
    · rw [Function.update_of_ne hjk, hother j hjk]
      exact hage j hj
  have htop' : ∀ j ∈ order.take (placed + 1), Function.update age k begun.length j = begun.length := by
    intro j hj
    by_cases hjk : j = k
    · subst hjk
      exact Function.update_self ..
    · rw [Function.update_of_ne hjk]
      rw [List.take_add_one, hk, List.mem_append] at hj
      rcases hj with hj | hj
      · exact htop j hj
      · exact absurd (by simpa using hj) hjk
  refine ⟨Function.update age k begun.length, hnew, ?_, htop'⟩
  rw [List.pairwise_iff_getElem] at hsorted ⊢
  intro i j hi hj hij
  have hle : Function.update age k begun.length order[j] ≤ begun.length := (hnew _ (List.getElem_mem hj)).le_length
  by_cases hcase : i ≤ placed
  · -- the earlier cell is one of those written
    rw [htop' order[i] (List.mem_take_iff_getElem.2 ⟨i, by omega, rfl⟩)]
    exact hle
  · -- both cells come later
    have hne : ∀ n (hn : n < order.length), placed < n → order[n] ≠ k := by
      intro n hn hlt he
      obtain ⟨hp, hk⟩ := List.getElem?_eq_some_iff.1 hk
      have : placed = n := (List.Nodup.getElem_inj_iff hnodup).1 (hk.trans he.symm)
      omega
    rw [Function.update_of_ne (hne i hi (by omega)), Function.update_of_ne (hne j hj (by omega))]
    exact hsorted i j hi hj hij

/-- The next cell of the last version is written. -/
theorem Mixed.write (h : Mixed content spoiled initial order begun placed cells) (hnodup : order.Nodup)
    (hk : order[placed]? = some k) (hv : v ∈ begun.getLast?) (hcell : cells' k = some (content v k))
    (hother : ∀ j, j ≠ k → cells' j = cells j) :
    Mixed content spoiled initial order begun (placed + 1) cells' where
  ages := by
    obtain ⟨rest, rfl⟩ : ∃ rest, begun = rest ++ [v] := List.getLast?_eq_some_iff.1 hv
    refine h.ages_next hnodup hk ?_ hother
    rw [List.length_append]
    exact .version (by simp) hcell
  written j hj := by
    rw [List.take_add_one, hk, List.mem_append] at hj
    by_cases hjk : j = k
    · subst hjk
      exact ⟨v, hv, hcell⟩
    · rw [hother j hjk]
      exact h.written j (hj.resolve_right fun hj => hjk (by simpa using hj))

/-- The writing of the next cell spoils it. -/
theorem Mixed.spoil (h : Mixed content spoiled initial order begun placed cells) (hnodup : order.Nodup)
    (hk : order[placed]? = some k) (hv : v ∈ begun.getLast?) (hcell : cells' k = some spoiled)
    (hother : ∀ j, j ≠ k → cells' j = cells j) : Mixed content spoiled initial order begun placed cells' where
  ages := by
    obtain ⟨rest, rfl⟩ : ∃ rest, begun = rest ++ [v] := List.getLast?_eq_some_iff.1 hv
    have hfrom : From content spoiled initial (rest ++ [v]) k (cells' k) (rest ++ [v]).length := by
      rw [List.length_append]
      exact .spoiled (by simp) hcell
    obtain ⟨age, hage, hsorted, htop⟩ := h.ages_next hnodup hk hfrom hother
    exact ⟨age, hage, hsorted, fun j hj => htop j ((List.take_subset_take_left order (Nat.le_succ _)) hj)⟩
  written j hj := by
    have hne : j ≠ k := by
      rintro rfl
      exact not_mem_take hnodup hk hj
    rw [hother j hne]
    exact h.written j hj

/-- The last version is written to the end. -/
theorem Mixed.whole (h : Mixed content spoiled initial order begun order.length cells) (hv : v ∈ begun.getLast?) :
    ∀ k ∈ order, cells k = some (content v k) := by
  intro k hk
  rw [← List.take_length (l := order)] at hk
  obtain ⟨v', hv', hcell⟩ := h.written k hk
  cases Option.mem_unique hv hv'
  exact hcell

end Replace
