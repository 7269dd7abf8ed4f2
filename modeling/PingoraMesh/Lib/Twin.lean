import PingoraMesh.Lib.Prog

/-!
# Two runs of one program

`Fallible.Twin h R A x y` relates two programs that run alone, from states related by `R`: they fail with the same error
or give results related by `A`, and leave states related by `R`. There is a rule for each construct, and `twin_bind`
puts them together, so that a proof follows the text of the program; a call may be answered differently in the two runs
as long as what comes after it does not tell the answers apart.
-/

namespace Calls.Fallible

variable {S : Sig} {σ ε α α' β β' : Type}

/-- The same error, or results related by `A`. -/
def Both (A : α → α' → Prop) : Except ε α → Except ε α' → Prop
  | .ok a, .ok a' => A a a'
  | .error e, .error e' => e = e'
  | _, _ => False

theorem both_eq {x y : Except ε α} : Both Eq x y ↔ x = y := by
  cases x <;> cases y <;> simp [Both]

/-- From related states: related results and related states. -/
def Twin (h : Handler S σ) (R : σ → σ → Prop) (A : α → α' → Prop) (x : Fallible S ε α) (y : Fallible S ε α') : Prop :=
  ∀ s t, R s t → Both A (run h x s).1 (run h y t).1 ∧ R (run h x s).2 (run h y t).2

section Rules

variable {h : Handler S σ} {R : σ → σ → Prop} {A : α → α' → Prop} {B : β → β' → Prop}

theorem twin_pure {a : α} {a' : α'} (ha : A a a') : Twin h R A (pure a : Fallible S ε α) (pure a') := fun _ _ hr =>
  ⟨ha, hr⟩

theorem twin_throw (e : ε) : Twin h R A (throw e : Fallible S ε α) (throw e) := fun _ _ hr => ⟨rfl, hr⟩

theorem twin_bind {x : Fallible S ε α} {y : Fallible S ε α'} {f : α → Fallible S ε β} {g : α' → Fallible S ε β'}
    (hx : Twin h R A x y) (hf : ∀ a a', A a a' → Twin h R B (f a) (g a')) : Twin h R B (x >>= f) (y >>= g) := by
  intro s t hr
  obtain ⟨hres, hst⟩ := hx s t hr
  rw [run_bind, run_bind]
  generalize run h x s = out at hres hst
  generalize run h y t = out' at hres hst
  rcases out with ⟨e | a, s'⟩ <;> rcases out' with ⟨e' | a', t'⟩
  · exact ⟨hres, hst⟩
  · exact hres.elim
  · exact hres.elim
  · exact hf a a' hres s' t' hst

/-- As `twin_bind`, when the first parts give the same result. -/
theorem twin_seq {x y : Fallible S ε α} {f : α → Fallible S ε β} {g : α → Fallible S ε β'} (hx : Twin h R Eq x y)
    (hf : ∀ a, Twin h R B (f a) (g a)) : Twin h R B (x >>= f) (y >>= g) :=
  twin_bind hx fun a _ e => e ▸ hf a

theorem twin_attempt {x : Except ε α} {y : Except ε α'} (hx : Both A x y) :
    Twin h R A (attempt x : Fallible S ε α) (attempt y) := fun _ _ hr => ⟨hx, hr⟩

theorem twin_attempt_eq (x : Except ε α) : Twin h R Eq (attempt x : Fallible S ε α) (attempt x) :=
  twin_attempt (both_eq.2 rfl)

theorem twin_ensure (b : Bool) (e : ε) : Twin h R Eq (ensure b e : Fallible S ε Unit) (ensure b e) := by
  cases b with
  | true => exact twin_pure rfl
  | false => exact twin_throw e

theorem twin_okOr {o : Option α} {o' : Option α'} (ho : Option.Rel A o o') (e : ε) :
    Twin h R A (okOr o e : Fallible S ε α) (okOr o' e) := by
  cases ho with
  | none => exact twin_throw e
  | some ha => exact twin_pure ha

theorem twin_okOr_eq (o : Option α) (e : ε) : Twin h R Eq (okOr o e : Fallible S ε α) (okOr o e) := by
  cases o with
  | none => exact twin_throw e
  | some a => exact twin_pure rfl

theorem twin_onlyIf {b : Bool} {x : Fallible S ε α} {y : Fallible S ε α} (hx : Twin h R Eq x y) :
    Twin h R Eq (onlyIf b x) (onlyIf b y) := by
  cases b with
  | true => exact twin_seq hx fun a => twin_pure rfl
  | false => exact twin_pure rfl

theorem twin_getOr {o : Option α} {x y : Fallible S ε α} (hx : Twin h R Eq x y) :
    Twin h R Eq (getOr o x) (getOr o y) := by
  cases o with
  | some a => exact twin_pure rfl
  | none => exact hx

theorem twin_forSome {o : Option α} {f : α → Fallible S ε Unit} (hf : ∀ a, Twin h R Eq (f a) (f a)) :
    Twin h R Eq (forSome o f) (forSome o f) := by
  cases o with
  | some a => exact hf a
  | none => exact twin_pure rfl

theorem twin_forM {xs : List α} {f : α → Fallible S ε PUnit} (hf : ∀ a, Twin h R Eq (f a) (f a)) :
    Twin h R Eq (xs.forM f) (xs.forM f) := by
  induction xs with
  | nil => exact twin_pure rfl
  | cons a xs ih => exact twin_seq (hf a) fun _ => ih

theorem twin_discard {x : Fallible S ε α} {y : Fallible S ε α'} (hx : Twin h R A x y) :
    Twin h R Eq (discard x) (discard y) := by
  have hmap : ∀ {α : Type} (z : Fallible S ε α), discard z = z >>= fun _ => pure ⟨⟩ := by
    intro α z
    unfold discard
    rw [LawfulFunctor.map_const, bind_pure_comp]
    rfl
  rw [hmap, hmap]
  exact twin_bind hx fun _ _ _ => twin_pure rfl

end Rules

end Calls.Fallible
