import PingoraMesh.Lib.Prog

/-!
# Two interfaces side by side

`Sig.join` has the calls of both interfaces. Programs of either side are programs of the join (`Prog.onLeft`,
`Prog.onRight`), and follow in `Spec.join` what they follow on their own side (`wp_onLeft`, `wp_onRight`): a program of
the join has a ghost state of one side and makes the calls of that side only. They run as they run on their own side
(`run_onLeft`, `run_onRight`). Over one state the ghost state is that state (`wp_onLeft_alone`, `wp_onRight_alone`).
-/

namespace Calls

variable {S T : Sig} {α σ τ γ δ : Type}

/-- The calls of both. -/
@[reducible] def Sig.join (S T : Sig) : Sig := ⟨S.Call ⊕ T.Call, Sum.elim S.Ans T.Ans⟩

/-- Both handlers, over one state. -/
def Handler.join (h : Handler S σ) (k : Handler T σ) : Handler (S.join T) σ
  | .inl c, s => h c s
  | .inr c, s => k c s

/-- A handler over the first part of a state. -/
def Handler.onFst (h : Handler S σ) : Handler S (σ × τ) := fun c s => ((h c s.1).1, (h c s.1).2, s.2)

/-- A handler over the second part of a state. -/
def Handler.onSnd (h : Handler S τ) : Handler S (σ × τ) := fun c s => ((h c s.2).1, s.1, (h c s.2).2)

/-- Each side asks what it asks on its own. -/
def Spec.join (A : Spec S γ) (B : Spec T δ) : Spec (S.join T) (γ ⊕ δ) where
  ok
    | .inl c, .inl g => A.ok c g
    | .inr c, .inr g => B.ok c g
    | _, _ => False
  can
    | .inl c, .inl g, r, .inl g' => A.can c g r g'
    | .inr c, .inr g, r, .inr g' => B.can c g r g'
    | _, _, _, _ => False

namespace Prog

/-- A program of the left side. -/
def onLeft (x : Prog S α) : Prog (S.join T) α := interpret (fun c => .call (.inl c) .ret) x

/-- A program of the right side. -/
def onRight (x : Prog T α) : Prog (S.join T) α := interpret (fun c => .call (.inr c) .ret) x

theorem run_onLeft (h : Handler S σ) (k : Handler T σ) (x : Prog S α) (s : σ) :
    run (h.join k) x.onLeft s = run h x s := by
  induction x generalizing s with
  | ret a => rfl
  | call c f ih => exact ih _ _

theorem run_onRight (h : Handler S σ) (k : Handler T σ) (x : Prog T α) (s : σ) :
    run (h.join k) x.onRight s = run k x s := by
  induction x generalizing s with
  | ret a => rfl
  | call c f ih => exact ih _ _

variable {A : Spec S γ} {B : Spec T δ}

theorem wp_onLeft {x : Prog S α} {g : γ} {Q : α → γ ⊕ δ → Prop} (h : wp A x (fun a g => Q a (.inl g)) g) :
    wp (A.join B) x.onLeft Q (.inl g) := by
  induction x generalizing g with
  | ret a =>
    rw [wp_ret] at h
    exact (wp_ret _).2 h
  | call c k ih =>
    obtain ⟨hok, hk⟩ := wp_call.1 h
    refine wp_call.2 ⟨hok, fun r g' hcan => ?_⟩
    cases g' with
    | inl g' => exact ih r (hk r g' hcan)
    | inr g' => exact hcan.elim

theorem wp_onRight {x : Prog T α} {g : δ} {Q : α → γ ⊕ δ → Prop} (h : wp B x (fun a g => Q a (.inr g)) g) :
    wp (A.join B) x.onRight Q (.inr g) := by
  induction x generalizing g with
  | ret a =>
    rw [wp_ret] at h
    exact (wp_ret _).2 h
  | call c k ih =>
    obtain ⟨hok, hk⟩ := wp_call.1 h
    refine wp_call.2 ⟨hok, fun r g' hcan => ?_⟩
    cases g' with
    | inl g' => exact hcan.elim
    | inr g' => exact ih r (hk r g' hcan)

/-- Over one state, a program of the left side is asked what its own side asks. -/
theorem wp_onLeft_alone {h : Handler S σ} {k : Handler T σ} {ok : S.Call → σ → Prop} {ok' : T.Call → σ → Prop}
    {I : σ → Prop} {x : Prog S α} {Q : α → σ → Prop} {s : σ} (hw : wp (.alone h ok I) x Q s) :
    wp (.alone (h.join k) (Sum.elim ok ok') I) x.onLeft Q s := by
  induction x generalizing s with
  | ret a =>
    rw [wp_ret] at hw
    exact (wp_ret _).2 hw
  | call c f ih =>
    obtain ⟨hok, hnext⟩ := wp_call.1 hw
    exact wp_call.2 ⟨hok, fun r s' hcan => ih r (hnext r s' hcan)⟩

/-- Over one state, a program of the right side is asked what its own side asks. -/
theorem wp_onRight_alone {h : Handler S σ} {k : Handler T σ} {ok : S.Call → σ → Prop} {ok' : T.Call → σ → Prop}
    {I : σ → Prop} {x : Prog T α} {Q : α → σ → Prop} {s : σ} (hw : wp (.alone k ok' I) x Q s) :
    wp (.alone (h.join k) (Sum.elim ok ok') I) x.onRight Q s := by
  induction x generalizing s with
  | ret a =>
    rw [wp_ret] at hw
    exact (wp_ret _).2 hw
  | call c f ih =>
    obtain ⟨hok, hnext⟩ := wp_call.1 hw
    exact wp_call.2 ⟨hok, fun r s' hcan => ih r (hnext r s' hcan)⟩

end Prog

end Calls
