import Mathlib

/-!
# Actions on a state that may fail

An action moves a state and gives a result or an error; what it has done to the state before an error stays done
(`atomically` takes it back). `Act.wp` is the weakest precondition, with one postcondition for the result and one for
the error and a rule for each construct; `Act.Moves` bounds what an action does to the state in either case.
-/

/-- An action on `σ` that fails with `ε` or gives an `α`. -/
def Act (σ ε α : Type) := σ → Except ε α × σ

namespace Act

variable {σ τ ε ε' α β : Type}

instance : Monad (Act σ ε) where
  pure a := fun s => (.ok a, s)
  bind x f := fun s =>
    match x s with
    | (.ok a, s') => f a s'
    | (.error e, s') => (.error e, s')

instance : LawfulMonad (Act σ ε) :=
  LawfulMonad.mk' (Act σ ε)
    (fun x => by
      funext s
      change (match x s with
        | (.ok a, s') => (.ok (id a), s')
        | (.error e, s') => (.error e, s')) = x s
      rcases x s with ⟨e | a, s'⟩ <;> rfl)
    (fun _ _ => rfl)
    (fun x f g => by
      funext s
      change (match (match x s with
          | (.ok a, s') => f a s'
          | (.error e, s') => (.error e, s')) with
        | (.ok b, s') => g b s'
        | (.error e, s') => (.error e, s')) = _
      change _ = (match x s with
        | (.ok a, s') => (f a >>= g) s'
        | (.error e, s') => (.error e, s'))
      rcases x s with ⟨e | a, s'⟩ <;> rfl)

/-- Stop with an error. -/
def fail (e : ε) : Act σ ε α := fun s => (.error e, s)

/-- A look at the state. -/
def read (f : σ → α) : Act σ ε α := fun s => (.ok (f s), s)

/-- A change of the state. -/
def write (f : σ → σ) : Act σ ε Unit := fun s => (.ok (), f s)

/-- A change of the state that gives a result. -/
def step (f : σ → α × σ) : Act σ ε α := fun s => (.ok (f s).1, (f s).2)

/-- The result of a pure computation. -/
def attempt (x : Except ε α) : Act σ ε α := fun s => (x, s)

/-- Run one of two actions. -/
def choose (b : Bool) (x y : Act σ ε α) : Act σ ε α := if b then x else y

/-- Stop with an error unless `b`. -/
def ensure (b : Bool) (e : ε) : Act σ ε Unit := if b then pure () else fail e

/-- Run `f` on the value, if there is one. -/
def forSome (o : Option α) (f : α → Act σ ε Unit) : Act σ ε Unit :=
  match o with
  | some a => f a
  | none => pure ()

/-- Run an action on a part of the state, with its errors translated. -/
def zoom (get : σ → τ) (put : τ → σ → σ) (err : ε → ε') (x : Act τ ε α) : Act σ ε' α := fun s =>
  ((x (get s)).1.mapError err, put (x (get s)).2 s)

/-- An error becomes a result. -/
def caught (x : Act σ ε α) : Act σ ε' (Except ε α) := fun s => (.ok (x s).1, (x s).2)

/-- An error takes back what the action did, as far as `undo` can. -/
def atomically (undo : σ → σ → σ) (x : Act σ ε α) : Act σ ε α := fun s =>
  match x s with
  | (.ok a, s') => (.ok a, s')
  | (.error e, s') => (.error e, undo s s')

/-- A postcondition for the result and one for the error. -/
def post (Q : α → σ → Prop) (E : ε → σ → Prop) : Except ε α × σ → Prop
  | (.ok a, s) => Q a s
  | (.error e, s) => E e s

/-- The action ends in one of the postconditions. -/
def wp (x : Act σ ε α) (Q : α → σ → Prop) (E : ε → σ → Prop) (s : σ) : Prop := post Q E (x s)

section Rules

variable {Q Q' : α → σ → Prop} {E E' : ε → σ → Prop} {s : σ}

@[simp] theorem wp_pure (a : α) : wp (pure a : Act σ ε α) Q E s ↔ Q a s := Iff.rfl

@[simp] theorem wp_fail (e : ε) : wp (fail e : Act σ ε α) Q E s ↔ E e s := Iff.rfl

@[simp] theorem wp_read (f : σ → α) : wp (read f : Act σ ε α) Q E s ↔ Q (f s) s := Iff.rfl

@[simp] theorem wp_write (f : σ → σ) {Q : Unit → σ → Prop} : wp (write f : Act σ ε Unit) Q E s ↔ Q () (f s) := Iff.rfl

@[simp] theorem wp_step (f : σ → α × σ) : wp (step f : Act σ ε α) Q E s ↔ Q (f s).1 (f s).2 := Iff.rfl

@[simp] theorem wp_bind (x : Act σ ε α) (f : α → Act σ ε β) {R : β → σ → Prop} :
    wp (x >>= f) R E s ↔ wp x (fun a s' => wp (f a) R E s') E s := by
  unfold wp
  change post R E (match x s with
    | (.ok a, s') => f a s'
    | (.error e, s') => (.error e, s')) ↔ _
  rcases x s with ⟨e | a, s'⟩ <;> rfl

@[simp] theorem wp_map (f : α → β) (x : Act σ ε α) {R : β → σ → Prop} :
    wp (f <$> x) R E s ↔ wp x (fun a s' => R (f a) s') E s := by
  rw [← bind_pure_comp, wp_bind]
  rfl

@[simp] theorem wp_attempt (x : Except ε α) :
    wp (attempt x) Q E s ↔ (∀ a, x = .ok a → Q a s) ∧ ∀ e, x = .error e → E e s := by
  cases x with
  | ok a => exact ⟨fun h => ⟨fun _ e => by cases e; exact h, fun _ e => by (cases e)⟩, fun h => h.1 a rfl⟩
  | error e => exact ⟨fun h => ⟨fun _ e => by (cases e), fun _ e => by cases e; exact h⟩, fun h => h.2 e rfl⟩

@[simp] theorem wp_choose (b : Bool) (x y : Act σ ε α) :
    wp (choose b x y) Q E s ↔ (b = true → wp x Q E s) ∧ (b = false → wp y Q E s) := by
  cases b <;> simp [choose]

@[simp] theorem wp_ensure (b : Bool) (e : ε) {Q : Unit → σ → Prop} :
    wp (ensure b e) Q E s ↔ (b = true → Q () s) ∧ (b = false → E e s) := by
  cases b <;> simp [ensure]

@[simp] theorem wp_forSome (o : Option α) (f : α → Act σ ε Unit) {Q : Unit → σ → Prop} :
    wp (forSome o f) Q E s ↔ (∀ a, o = some a → wp (f a) Q E s) ∧ (o = none → Q () s) := by
  cases o <;> simp [forSome]

@[simp] theorem wp_zoom (get : σ → τ) (put : τ → σ → σ) (err : ε' → ε) (x : Act τ ε' α) :
    wp (zoom get put err x) Q E s ↔
      wp x (fun a t => Q a (put t s)) (fun e t => E (err e) (put t s)) (get s) := by
  unfold wp zoom
  rcases x (get s) with ⟨e | a, t⟩ <;> rfl

@[simp] theorem wp_caught (x : Act σ ε' α) {Q : Except ε' α → σ → Prop} :
    wp (caught x : Act σ ε (Except ε' α)) Q E s ↔ wp x (fun a => Q (.ok a)) (fun e => Q (.error e)) s := by
  change Q (x s).1 (x s).2 ↔ post _ _ (x s)
  rcases x s with ⟨e | a, s'⟩ <;> rfl

@[simp] theorem wp_atomically (undo : σ → σ → σ) (x : Act σ ε α) :
    wp (atomically undo x) Q E s ↔ wp x Q (fun e s' => E e (undo s s')) s := by
  unfold wp atomically
  rcases x s with ⟨e | a, s'⟩ <;> rfl

theorem wp_mono {x : Act σ ε α} (hQ : ∀ a s, Q a s → Q' a s) (hE : ∀ e s, E e s → E' e s) (h : wp x Q E s) :
    wp x Q' E' s := by
  unfold wp at h ⊢
  generalize x s = out at h
  rcases out with ⟨e | a, s'⟩
  · exact hE e s' h
  · exact hQ a s' h

/-- A loop keeps what its body keeps. -/
theorem wp_forM {I : σ → Prop} (f : α → Act σ ε PUnit) (xs : List α)
    (hf : ∀ a ∈ xs, ∀ s, I s → wp (f a) (fun _ => I) E s) (h : I s) : wp (xs.forM f) (fun _ => I) E s := by
  induction xs generalizing s with
  | nil => exact h
  | cons a xs ih =>
    change wp (f a >>= fun _ => xs.forM f) _ E s
    rw [wp_bind]
    refine wp_mono (fun _ s' hs => ?_) (fun _ _ he => he) (hf a List.mem_cons_self s h)
    exact ih (fun b hb => hf b (List.mem_cons_of_mem a hb)) hs

/-- The two ways in which a run can end. -/
theorem wp_of_run {x : Act σ ε α} (hQ : ∀ a s', x s = (.ok a, s') → Q a s')
    (hE : ∀ e s', x s = (.error e, s') → E e s') : wp x Q E s := by
  unfold wp
  rcases hx : x s with ⟨e | a, s'⟩
  · exact hE e s' hx
  · exact hQ a s' hx

/-- What a run that succeeds tells. -/
theorem wp_ok {x : Act σ ε α} (h : wp x Q E s) {a : α} {s' : σ} (hx : x s = (.ok a, s')) : Q a s' := by
  unfold wp at h
  rwa [hx] at h

/-- What a run that fails tells. -/
theorem wp_error {x : Act σ ε α} (h : wp x Q E s) {e : ε} {s' : σ} (hx : x s = (.error e, s')) : E e s' := by
  unfold wp at h
  rwa [hx] at h

end Rules

/-! ## What holds across an action, whatever its result -/

/-- Whatever the result, the state moves along `R`. -/
def Moves (R : σ → σ → Prop) (x : Act σ ε α) : Prop := ∀ s, R s (x s).2

section Moves

variable {R : σ → σ → Prop} (refl : ∀ s, R s s) (trans : ∀ s t u, R s t → R t u → R s u)
include refl

theorem moves_pure (a : α) : (pure a : Act σ ε α).Moves R := fun s => refl s

theorem moves_read (f : σ → α) : (read f : Act σ ε α).Moves R := fun s => refl s

theorem moves_attempt (x : Except ε α) : (attempt x : Act σ ε α).Moves R := fun s => refl s

theorem moves_ensure (b : Bool) (e : ε) : (ensure b e : Act σ ε Unit).Moves R := fun s => by cases b <;> exact refl s

theorem moves_forSome {o : Option α} {f : α → Act σ ε Unit} (hf : ∀ a, (f a).Moves R) : (forSome o f).Moves R := by
  cases o with
  | none => exact fun s => refl s
  | some a => exact hf a

omit refl in
/-- A relation that holds however a run ends. -/
theorem moves_of_wp {x : Act σ ε α} (h : ∀ s, wp x (fun _ => R s) (fun _ => R s) s) : x.Moves R := by
  intro s
  have hs := h s
  unfold wp at hs
  generalize x s = out at hs ⊢
  rcases out with ⟨e | a, s'⟩
  · exact hs
  · exact hs

omit refl in
include trans in
theorem moves_bind {x : Act σ ε α} {f : α → Act σ ε β} (hx : x.Moves R) (hf : ∀ a, (f a).Moves R) :
    (x >>= f).Moves R := by
  intro s
  have hs := hx s
  change R s (match x s with
    | (.ok a, s') => f a s'
    | (.error e, s') => (.error e, s')).2
  generalize x s = out at hs ⊢
  rcases out with ⟨e | a, s'⟩
  · exact hs
  · exact trans s s' _ hs (hf a s')

include trans in
theorem moves_forM {f : α → Act σ ε PUnit} (xs : List α) (hf : ∀ a, (f a).Moves R) : (xs.forM f).Moves R := by
  induction xs with
  | nil => exact fun s => refl s
  | cons a xs ih => exact moves_bind trans (hf a) fun _ => ih

end Moves

-- As for programs: the rules take a goal `wp x Q E s` apart, and unfolding it would run `x`.
attribute [irreducible] wp

end Act
