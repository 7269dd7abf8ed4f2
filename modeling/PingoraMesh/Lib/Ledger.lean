import Mathlib

/-!
# Ledgers and commits

Identifiers are drawn from a counter by programs, wait in a store and are handed out from there. `Ledger` says that each
of them is in one of these places at a time, and there is a rule for each way on: `Ledger.draw`, `Ledger.store` and
`Ledger.hand`; `Ledger.mono` is for what goes on elsewhere.

`Committed` says that a value is what the effects of those that are done make of the first value, one after another in
some order. Whatever is not done is framing: `Committed.congr` goes on without an effect, `Committed.commit` with one.
-/

variable {ι : Type}

/-- An identifier below `next` is drawn by one program, or waits in the store, or has been handed out once. -/
structure Ledger (next : Nat) (drawn : ι → Option Nat) (waiting : Nat → Prop) (out : List Nat) : Prop where
  drawnBelow : ∀ i, ∀ k ∈ drawn i, k < next
  waitingBelow : ∀ k, waiting k → k < next
  outBelow : ∀ k ∈ out, k < next
  once : ∀ i j k, k ∈ drawn i → k ∈ drawn j → i = j
  drawnNotWaiting : ∀ i, ∀ k ∈ drawn i, ¬ waiting k
  drawnNotOut : ∀ i, ∀ k ∈ drawn i, k ∉ out
  waitingNotOut : ∀ k, waiting k → k ∉ out
  nodup : out.Nodup

variable {next : Nat} {drawn : ι → Option Nat} {waiting waiting' : Nat → Prop} {out : List Nat}

/-- Identifiers are drawn by others, and some of those wait in the store; programs forget what they have drawn. -/
theorem Ledger.mono (h : Ledger next drawn waiting out) {next' : Nat} {drawn' : ι → Option Nat} (hn : next ≤ next')
    (hd : ∀ i, ∀ k ∈ drawn' i, k ∈ drawn i) (hw : ∀ k, waiting' k → waiting k ∨ (next ≤ k ∧ k < next')) :
    Ledger next' drawn' waiting' out where
  drawnBelow i k hk := (h.drawnBelow i k (hd i k hk)).trans_le hn
  waitingBelow k hk := (hw k hk).elim (fun hk => (h.waitingBelow k hk).trans_le hn) (·.2)
  outBelow k hk := (h.outBelow k hk).trans_le hn
  once i j k hi hj := h.once i j k (hd i k hi) (hd j k hj)
  drawnNotWaiting i k hk hk' := by
    rcases hw k hk' with hk' | hk'
    · exact h.drawnNotWaiting i k (hd i k hk) hk'
    · exact Nat.not_lt.2 hk'.1 (h.drawnBelow i k (hd i k hk))
  drawnNotOut i k hk := h.drawnNotOut i k (hd i k hk)
  waitingNotOut k hk hk' := by
    rcases hw k hk with hk | hk
    · exact h.waitingNotOut k hk hk'
    · exact Nat.not_lt.2 hk.1 (h.outBelow k hk')
  nodup := h.nodup

section Draw

variable [DecidableEq ι]

/-- A program draws an identifier. -/
theorem Ledger.draw (h : Ledger next drawn waiting out) (i : ι) :
    Ledger (next + 1) (Function.update drawn i (some next)) waiting out := by
  have hcase : ∀ j k, k ∈ Function.update drawn i (some next) j → (j = i ∧ k = next) ∨ k ∈ drawn j := by
    intro j k hk
    by_cases hj : j = i
    · subst hj
      rw [Function.update_self] at hk
      exact .inl ⟨rfl, (Option.some.inj hk).symm⟩
    · rw [Function.update_of_ne hj] at hk
      exact .inr hk
  refine ⟨fun j k hk => ?_, fun k hk => (h.waitingBelow k hk).trans (Nat.lt_succ_self _),
    fun k hk => (h.outBelow k hk).trans (Nat.lt_succ_self _), fun j j' k hj hj' => ?_, fun j k hk hk' => ?_,
    fun j k hk hk' => ?_, h.waitingNotOut, h.nodup⟩
  · rcases hcase j k hk with ⟨-, rfl⟩ | hk
    · exact Nat.lt_succ_self _
    · exact (h.drawnBelow j k hk).trans (Nat.lt_succ_self _)
  · rcases hcase j k hj with ⟨ej, ek⟩ | hold <;> rcases hcase j' k hj' with ⟨ej', ek'⟩ | hold'
    · exact ej.trans ej'.symm
    · exact absurd (ek ▸ h.drawnBelow j' k hold') (Nat.lt_irrefl _)
    · exact absurd (ek' ▸ h.drawnBelow j k hold) (Nat.lt_irrefl _)
    · exact h.once j j' k hold hold'
  · rcases hcase j k hk with ⟨-, rfl⟩ | hk
    · exact Nat.lt_irrefl _ (h.waitingBelow k hk')
    · exact h.drawnNotWaiting j k hk hk'
  · rcases hcase j k hk with ⟨-, rfl⟩ | hk
    · exact Nat.lt_irrefl _ (h.outBelow k hk')
    · exact h.drawnNotOut j k hk hk'

/-- A program stores something under the identifier that it has drawn. -/
theorem Ledger.store (h : Ledger next drawn waiting out) {i : ι} {k : Nat} (hk : k ∈ drawn i)
    (hw : ∀ k', waiting' k' → k' = k ∨ waiting k') : Ledger next (Function.update drawn i none) waiting' out := by
  have hcase : ∀ j k', k' ∈ Function.update drawn i none j → j ≠ i ∧ k' ∈ drawn j := by
    intro j k' hk'
    by_cases hj : j = i
    · subst hj
      rw [Function.update_self] at hk'
      cases hk'
    · rw [Function.update_of_ne hj] at hk'
      exact ⟨hj, hk'⟩
  refine ⟨fun j k' hk' => h.drawnBelow j k' (hcase j k' hk').2, fun k' hk' => ?_, h.outBelow,
    fun j j' k' hj hj' => h.once j j' k' (hcase j k' hj).2 (hcase j' k' hj').2, fun j k' hj hk' => ?_,
    fun j k' hj => h.drawnNotOut j k' (hcase j k' hj).2, fun k' hk' => ?_, h.nodup⟩
  · rcases hw k' hk' with rfl | hk'
    · exact h.drawnBelow i k' hk
    · exact h.waitingBelow k' hk'
  · rcases hw k' hk' with rfl | hk'
    · exact (hcase j k' hj).1 (h.once j i k' (hcase j k' hj).2 hk)
    · exact h.drawnNotWaiting j k' (hcase j k' hj).2 hk'
  · rcases hw k' hk' with rfl | hk'
    · exact h.drawnNotOut i k' hk
    · exact h.waitingNotOut k' hk'

/-- A program forgets what it has drawn. -/
theorem Ledger.forget (h : Ledger next drawn waiting out) (i : ι) :
    Ledger next (Function.update drawn i none) waiting out := by
  refine h.mono (Nat.le_refl _) (fun j k hk => ?_) fun k hk => .inl hk
  by_cases hj : j = i
  · subst hj
    rw [Function.update_self] at hk
    cases hk
  · rwa [Function.update_of_ne hj] at hk

end Draw

/-- What waits is handed out. -/
theorem Ledger.hand (h : Ledger next drawn waiting out) {k : Nat} (hk : waiting k)
    (hw : ∀ k', waiting' k' → k' ≠ k ∧ waiting k') : Ledger next drawn waiting' (out ++ [k]) where
  drawnBelow := h.drawnBelow
  waitingBelow k' hk' := h.waitingBelow k' (hw k' hk').2
  outBelow k' hk' := by
    rcases List.mem_append.1 hk' with hk' | hk'
    · exact h.outBelow k' hk'
    · exact List.mem_singleton.1 hk' ▸ h.waitingBelow k hk
  once := h.once
  drawnNotWaiting i k' hi hk' := h.drawnNotWaiting i k' hi (hw k' hk').2
  drawnNotOut i k' hi hk' := by
    rcases List.mem_append.1 hk' with hk' | hk'
    · exact h.drawnNotOut i k' hi hk'
    · exact h.drawnNotWaiting i k' hi (List.mem_singleton.1 hk' ▸ hk)
  waitingNotOut k' hk' hout := by
    rcases List.mem_append.1 hout with hout | hout
    · exact h.waitingNotOut k' (hw k' hk').2 hout
    · exact (hw k' hk').1 (List.mem_singleton.1 hout)
  nodup := List.nodup_append.2 ⟨h.nodup, List.nodup_singleton k, fun k' hk' k'' hk'' e =>
    h.waitingNotOut k hk (List.mem_singleton.1 hk'' ▸ e ▸ hk')⟩

/-! ## Effects in the order of commits -/

section Commits

variable {ι β : Type}

/-- The effects of those that are done, in some order, lead from `b₀` to `b`. -/
def Committed (eff : ι → β → β) (done : ι → Prop) (b₀ b : β) : Prop :=
  ∃ order : List ι, order.Nodup ∧ (∀ i, i ∈ order ↔ done i) ∧ b = order.foldl (fun b i => eff i b) b₀

namespace Committed

variable {eff : ι → β → β} {done done' : ι → Prop} {b₀ b b' : β}

theorem start (h : ∀ i, ¬ done i) : Committed eff done b₀ b₀ :=
  ⟨[], .nil, fun i => ⟨nofun, fun hi => absurd hi (h i)⟩, rfl⟩

/-- Nothing new is done. -/
theorem congr (h : Committed eff done b₀ b) (hd : ∀ i, done' i ↔ done i) : Committed eff done' b₀ b := by
  obtain ⟨order, hn, hi, hb⟩ := h
  exact ⟨order, hn, fun i => (hi i).trans (hd i).symm, hb⟩

/-- One more is done. -/
theorem commit (h : Committed eff done b₀ b) {i : ι} (hi : ¬ done i) (hd : ∀ j, done' j ↔ done j ∨ j = i)
    (hb : b' = eff i b) : Committed eff done' b₀ b' := by
  obtain ⟨order, hn, ho, rfl⟩ := h
  refine ⟨order ++ [i], ?_, fun j => ?_, ?_⟩
  · refine List.nodup_append.2 ⟨hn, List.nodup_singleton i, fun a ha c hc e => hi ((ho i).1 ?_)⟩
    rw [List.mem_singleton.1 hc] at e
    exact e ▸ ha
  · rw [List.mem_append, List.mem_singleton, ho, hd]
  · rw [hb, List.foldl_append]
    rfl

/-- A value that no effect changes stays, once an effect has made it. -/
theorem absorb (h : Committed eff done b₀ b) {i : ι} {x : β} (hi : done i) (hx : ∀ b, eff i b = x)
    (hkeep : ∀ j, eff j x = x) : b = x := by
  obtain ⟨order, -, ho, rfl⟩ := h
  have hstay : ∀ is : List ι, is.foldl (fun b j => eff j b) x = x := by
    intro is
    induction is with
    | nil => rfl
    | cons j is ih =>
      rw [List.foldl_cons, hkeep]
      exact ih
  obtain ⟨pre, post, rfl⟩ := List.append_of_mem ((ho i).2 hi)
  rw [List.foldl_append, List.foldl_cons, hx]
  exact hstay post

end Committed

end Commits
