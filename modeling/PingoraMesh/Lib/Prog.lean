import Mathlib

/-!
# Programs made of calls

A program of the interface `S` makes calls `c : S.Call` and goes on with the answer, of type `S.Ans c`. The calls are
the atomic steps: nothing is known of what happens between two of them.

* `Prog.run` runs a program alone, against a handler that answers a call and moves a state (`run_bind`: a sequence
  runs as its parts);
* `Prog.interpret` carries out each call of one interface by a program of another;
* `Prog.wp` is the weakest precondition of a program over a `Spec`, which says when a call is allowed and what it may
  answer; it composes along `bind` (`wp_bind`), is monotone (`wp_mono`) and bounds every run (`wp_run`);
* `Prog.Only` bounds the calls that a program can make at all, and `Only.wp` is the frame rule it gives;
  `Only.run_related` compares its runs against two handlers;
* `Fallible` programs may stop with an error; `Fallible.wp` has one postcondition for the result and one for the error,
  and a rule for each construct. `Fallible.Safe` asks nothing of the result, and its rules follow the program's text.
* `Prog.runFor` stops a program that runs alone after a number of calls, and `Prog.observing` adds an observer to it;
  `wp_runFor`: what a specification of the run keeps at every call holds wherever it is stopped;
* `Runs.forall_prefix_iff`: a property holds all along a run of steps exactly if no step of it is bad where it is made.
-/

namespace Calls

/-- An interface: the calls and the type of the answer to each. -/
structure Sig where
  Call : Type
  Ans : Call → Type

/-- A program that makes calls of `S` and returns an `α`. -/
inductive Prog (S : Sig) (α : Type) : Type where
  | ret (a : α)
  | call (c : S.Call) (k : S.Ans c → Prog S α)

/-- What answers the calls: an answer and the state after the call. -/
abbrev Handler (S : Sig) (σ : Type) := (c : S.Call) → σ → S.Ans c × σ

/-- What is asked of a call in a state `γ`, and what may be its answer and the state after it. -/
structure Spec (S : Sig) (γ : Type) where
  ok : S.Call → γ → Prop
  can : (c : S.Call) → γ → S.Ans c → γ → Prop

/-- The calls are answered by a handler, and nobody else moves its state; the invariant `I` holds between calls. -/
def Spec.alone {S : Sig} {σ : Type} (h : Handler S σ) (ok : S.Call → σ → Prop) (I : σ → Prop) : Spec S σ :=
  ⟨ok, fun c s r s' => r = (h c s).1 ∧ s' = (h c s).2 ∧ I s'⟩

/-- Any answer may come back; `next` is what the program has seen of the calls so far. -/
def Spec.protocol {S : Sig} {γ : Type} (ok : S.Call → γ → Prop) (next : (c : S.Call) → S.Ans c → γ → γ) : Spec S γ :=
  ⟨ok, fun c g r g' => g' = next c r g⟩

/-- Only calls that satisfy `K` are allowed. -/
def Spec.only {S : Sig} (K : S.Call → Prop) : Spec S Unit := .protocol (fun c _ => K c) fun _ _ g => g

namespace Prog

variable {S T : Sig} {α β ε : Type}

/-- Sequencing. -/
def bind : Prog S α → (α → Prog S β) → Prog S β
  | .ret a, f => f a
  | .call c k, f => .call c fun r => (k r).bind f

/-- One call. -/
def perform (c : S.Call) : Prog S (S.Ans c) := .call c .ret

instance : Monad (Prog S) where
  pure := .ret
  bind := bind

@[simp] theorem pure_eq (a : α) : (pure a : Prog S α) = .ret a := rfl

@[simp] theorem ret_bind (a : α) (f : α → Prog S β) : (Prog.ret a >>= f) = f a := rfl

@[simp] theorem call_bind (c : S.Call) (k : S.Ans c → Prog S α) (f : α → Prog S β) :
    (Prog.call c k >>= f) = .call c fun r => k r >>= f := rfl

@[simp] theorem perform_bind (c : S.Call) (f : S.Ans c → Prog S β) : (perform c >>= f) = .call c f := rfl

theorem bind_ret (p : Prog S α) : (p >>= Prog.ret) = p := by
  induction p with
  | ret a => rfl
  | call c k ih => exact congrArg (Prog.call c) (funext ih)

theorem bind_bind {γ : Type} (p : Prog S α) (f : α → Prog S β) (g : β → Prog S γ) :
    (p >>= f) >>= g = p >>= fun a => f a >>= g := by
  induction p with
  | ret a => rfl
  | call c k ih => exact congrArg (Prog.call c) (funext ih)

instance : LawfulMonad (Prog S) :=
  LawfulMonad.mk' (Prog S) (fun p => bind_ret p) (fun _ _ => rfl) (fun p f g => bind_bind p f g)

/-- `if let Some(a) = x { f(a) }`. -/
def forSome (x : Option α) (f : α → Prog S Unit) : Prog S Unit :=
  match x with
  | some a => f a
  | none => .ret ()

/-- Carry out each call of `S` by a program of `T`. -/
def interpret (d : (c : S.Call) → Prog T (S.Ans c)) : Prog S α → Prog T α
  | .ret a => .ret a
  | .call c k => d c >>= fun r => interpret d (k r)

/-- Some calls are not made: `f` gives their answers, by how many it has given before. -/
def answering (f : (c : S.Call) → Nat → Option (S.Ans c)) : Prog S α → Nat → Prog S α
  | .ret a, _ => .ret a
  | .call c k, n =>
    match f c n with
    | some r => answering f (k r) (n + 1)
    | none => .call c fun r => answering f (k r) n

/-! ## Running a program alone -/

section Run

variable {σ : Type} (h : Handler S σ)

/-- The result of running a program alone, and the state it leaves. -/
def run : Prog S α → σ → α × σ
  | .ret a, s => (a, s)
  | .call c k, s => run (k (h c s).1) (h c s).2

@[simp] theorem run_ret (a : α) (s : σ) : run h (.ret a) s = (a, s) := rfl

@[simp] theorem run_call (c : S.Call) (k : S.Ans c → Prog S α) (s : σ) :
    run h (.call c k) s = run h (k (h c s).1) (h c s).2 := rfl

@[simp] theorem run_perform (c : S.Call) (s : σ) : run h (perform c) s = h c s := rfl

/-- The calls of a run, each with the state it was made in. -/
def log : Prog S α → σ → List (S.Call × σ)
  | .ret _, _ => []
  | .call c k, s => (c, s) :: log (k (h c s).1) (h c s).2

/-- The handler that also writes down the calls. -/
def recording : Handler S (σ × List (S.Call × σ)) := fun c g => ((h c g.1).1, (h c g.1).2, g.2 ++ [(c, g.1)])

theorem run_recording (p : Prog S α) (s : σ) (l : List (S.Call × σ)) :
    run (recording h) p (s, l) = ((run h p s).1, (run h p s).2, l ++ log h p s) := by
  induction p generalizing s l with
  | ret a => simp [log]
  | call c k ih =>
    rw [run_call, run_call, log]
    simp [recording, ih]

/-- A sequence runs as its parts. -/
@[simp] theorem run_bind (p : Prog S α) (f : α → Prog S β) (s : σ) :
    run h (p >>= f) s = run h (f (run h p s).1) (run h p s).2 := by
  induction p generalizing s with
  | ret a => rfl
  | call c k ih => exact ih _ _

/-- What every call keeps, a run keeps. -/
theorem run_keeps {h : Handler S σ} {I : σ → Prop} (hI : ∀ c s, I s → I (h c s).2) (p : Prog S α) {s : σ} (hs : I s) :
    I (run h p s).2 := by
  induction p generalizing s with
  | ret a => exact hs
  | call c k ih => exact ih _ (hI c s hs)

end Run

/-! ## Weakest preconditions -/

section Wp

variable {γ : Type} {T : Spec S γ} {Q Q' : α → γ → Prop} {g : γ}

/-- Every call is allowed when it is made, and `Q` holds of what the program returns, whatever the answers. -/
def wp (T : Spec S γ) : Prog S α → (α → γ → Prop) → γ → Prop
  | .ret a, Q, g => Q a g
  | .call c k, Q, g => T.ok c g ∧ ∀ r g', T.can c g r g' → wp T (k r) Q g'

@[simp] theorem wp_ret (a : α) : wp T (.ret a) Q g ↔ Q a g := Iff.rfl

theorem wp_call {c : S.Call} {k : S.Ans c → Prog S α} :
    wp T (.call c k) Q g ↔ T.ok c g ∧ ∀ r g', T.can c g r g' → wp T (k r) Q g' := Iff.rfl

theorem wp_bind (p : Prog S α) (f : α → Prog S β) {R : β → γ → Prop} :
    wp T (p >>= f) R g ↔ wp T p (fun a g' => wp T (f a) R g') g := by
  induction p generalizing g with
  | ret a => rfl
  | call c k ih =>
    rw [call_bind, wp_call, wp_call]
    simp only [ih]

theorem wp_forSome (x : Option α) (f : α → Prog S Unit) {R : Unit → γ → Prop} :
    wp T (forSome x f) R g ↔ (∀ a, x = some a → wp T (f a) R g) ∧ (x = none → R () g) := by
  cases x with
  | none => simp [forSome]
  | some a => simp [forSome]

theorem wp_mono {p : Prog S α} (hQ : ∀ a g, Q a g → Q' a g) (h : wp T p Q g) : wp T p Q' g := by
  induction p generalizing g with
  | ret a => exact hQ a g h
  | call c k ih => exact ⟨h.1, fun r g' hc => ih r (h.2 r g' hc)⟩

theorem wp_congr {p : Prog S α} (hQ : ∀ a g, Q a g ↔ Q' a g) : wp T p Q g ↔ wp T p Q' g :=
  ⟨wp_mono fun a g => (hQ a g).1, wp_mono fun a g => (hQ a g).2⟩

/-- A run alone keeps an invariant that the allowed calls keep, and ends in the postcondition. -/
theorem wp_run {σ : Type} {h : Handler S σ} {ok : S.Call → σ → Prop} {I : σ → Prop} {p : Prog S α}
    {Q : α → σ → Prop} {s : σ} (hI : ∀ c s, ok c s → I s → I (h c s).2) (hs : I s) (hw : wp (.alone h ok I) p Q s) :
    Q (run h p s).1 (run h p s).2 ∧ I (run h p s).2 := by
  induction p generalizing s with
  | ret a => exact ⟨hw, hs⟩
  | call c k ih =>
    have hc := hI c s hw.1 hs
    exact ih _ hc (hw.2 _ _ ⟨rfl, rfl, hc⟩)

/-- Every call of a run alone is made in a state with the invariant, and is allowed there. -/
theorem wp_log {σ : Type} {h : Handler S σ} {ok : S.Call → σ → Prop} {I : σ → Prop} {p : Prog S α} {Q : α → σ → Prop}
    {s : σ} (hI : ∀ c s, ok c s → I s → I (h c s).2) (hs : I s) (hw : wp (.alone h ok I) p Q s) :
    ∀ e ∈ log h p s, ok e.1 e.2 ∧ I e.2 := by
  induction p generalizing s with
  | ret a => exact fun e he => by (cases he)
  | call c k ih =>
    have hc := hI c s hw.1 hs
    intro e he
    rcases List.mem_cons.1 he with rfl | he
    · exact ⟨hw.1, hs⟩
    · exact ih _ hc (hw.2 _ _ ⟨rfl, rfl, hc⟩) e he

/-- A run that writes down its calls may keep an invariant of what it has written. -/
theorem wp_recording {σ : Type} {h : Handler S σ} {ok : S.Call → σ → Prop} {I : σ → Prop} {p : Prog S α}
    {Q : α → σ → Prop} {J : σ × List (S.Call × σ) → Prop} (hJ : ∀ g, J g → I g.1) {g : σ × List (S.Call × σ)}
    (hw : wp (.alone h ok I) p Q g.1) :
    wp (.alone (recording h) (fun c g => ok c g.1) J) p (fun a g => Q a g.1) g := by
  induction p generalizing g with
  | ret a => exact hw
  | call c k ih =>
    refine ⟨hw.1, ?_⟩
    rintro r g' ⟨rfl, rfl, hj⟩
    exact ih _ (hw.2 _ _ ⟨rfl, rfl, hJ _ hj⟩)

/-- What two specifications ask of the calls of a run alone may be asked at once. -/
theorem wp_alone_and {σ : Type} {h : Handler S σ} {ok ok' : S.Call → σ → Prop} {I : σ → Prop} {p : Prog S α}
    {Q Q' : α → σ → Prop} {s : σ} (hw : wp (.alone h ok I) p Q s) (hw' : wp (.alone h ok' I) p Q' s) :
    wp (.alone h (fun c s => ok c s ∧ ok' c s) I) p (fun a s => Q a s ∧ Q' a s) s := by
  induction p generalizing s with
  | ret a => exact ⟨hw, hw'⟩
  | call c k ih => exact ⟨⟨hw.1, hw'.1⟩, fun r s' hc => ih r (hw.2 r s' hc) (hw'.2 r s' hc)⟩

/-- A run alone follows a specification whose ghost state is related to the state of the handler. -/
theorem wp_simulate {σ : Type} {h : Handler S σ} {R : γ → σ → Prop} {s : σ}
    (hstep : ∀ c g s, T.ok c g → R g s → ∃ g', T.can c g (h c s).1 g' ∧ R g' (h c s).2) {p : Prog S α} {g : γ}
    (hw : wp T p Q g) (hR : R g s) : ∃ g', Q (run h p s).1 g' ∧ R g' (run h p s).2 := by
  induction p generalizing g s with
  | ret a => exact ⟨g, hw, hR⟩
  | call c k ih =>
    obtain ⟨g', hcan, hR'⟩ := hstep c g s hw.1 hR
    exact ih _ (hw.2 _ g' hcan) hR'

/-- What every call keeps holds at the end too. -/
theorem wp_keep {R : γ → Prop} (hR : ∀ c g r g', T.can c g r g' → R g → R g') {p : Prog S α} {g : γ} (hw : wp T p Q g)
    (hg : R g) : wp T p (fun a g' => Q a g' ∧ R g') g := by
  induction p generalizing g with
  | ret a => exact ⟨hw, hg⟩
  | call c k ih => exact ⟨hw.1, fun r g' hc => ih r (hw.2 r g' hc) (hR c g r g' hc hg)⟩

/-- Calls of one interface carried out by programs of another, call by call. -/
theorem wp_interpret {U : Sig} {γ : Type} {T : Spec S γ} {T' : Spec U γ} {d : (c : S.Call) → Prog U (S.Ans c)}
    (hd : ∀ c g (R : S.Ans c → γ → Prop), T.ok c g → (∀ r g', T.can c g r g' → R r g') → wp T' (d c) R g)
    {p : Prog S α} {Q : α → γ → Prop} {g : γ} (h : wp T p Q g) : wp T' (interpret d p) Q g := by
  induction p generalizing g with
  | ret a => exact h
  | call c k ih =>
    change wp T' (d c >>= fun r => interpret d (k r)) Q g
    rw [wp_bind]
    exact hd c g _ h.1 fun r g' hc => ih r (h.2 r g' hc)

/-- As `wp_interpret`, over ghost states that are only related to each other. -/
theorem wp_interpret_rel {U : Sig} {γ δ : Type} {T : Spec S γ} {V : Spec U δ} {R : γ → δ → Prop}
    {d : (c : S.Call) → Prog U (S.Ans c)}
    (hd : ∀ c g x, R g x → T.ok c g → wp V (d c) (fun r x' => ∃ g', T.can c g r g' ∧ R g' x') x) {p : Prog S α}
    {Q : α → γ → Prop} {g : γ} {x : δ} (h : wp T p Q g) (hR : R g x) :
    wp V (interpret d p) (fun a x' => ∃ g', Q a g' ∧ R g' x') x := by
  induction p generalizing g x with
  | ret a => exact ⟨g, h, hR⟩
  | call c k ih =>
    change wp V (d c >>= fun r => interpret d (k r)) _ x
    rw [wp_bind]
    refine wp_mono ?_ (hd c g x hR h.1)
    rintro r x' ⟨g', hcan, hR'⟩
    exact ih r (h.2 r g' hcan) hR'

/-- Whatever the answers, the program only makes calls that satisfy `K`. -/
def Only (K : S.Call → Prop) (p : Prog S α) : Prop := wp (.only K) p (fun _ _ => True) ()

theorem only_ret {K : S.Call → Prop} (a : α) : (ret a : Prog S α).Only K := trivial

theorem only_call {K : S.Call → Prop} {c : S.Call} {k : S.Ans c → Prog S α} (h : K c) (hk : ∀ r, (k r).Only K) :
    (call c k).Only K :=
  ⟨h, fun r _ _ => hk r⟩

theorem only_bind {K : S.Call → Prop} {p : Prog S α} {f : α → Prog S β} (hp : p.Only K) (hf : ∀ a, (f a).Only K) :
    (p >>= f).Only K :=
  (wp_bind p f).2 (wp_mono (fun a _ _ => hf a) hp)

/-- What the calls of a program keep, the program keeps. -/
theorem Only.wp {K : S.Call → Prop} {p : Prog S α} (h : p.Only K) {I : γ → Prop} {g : γ}
    (hok : ∀ c g, K c → I g → T.ok c g) (hcan : ∀ c g r g', K c → I g → T.can c g r g' → I g') (hg : I g) :
    Prog.wp T p (fun _ g' => I g') g := by
  induction p generalizing g with
  | ret a => exact hg
  | call c k ih => exact ⟨hok c g h.1 hg, fun r g' hc => ih r (h.2 r () rfl) (hcan c g r g' h.1 hg hc)⟩

/-- What the calls of a program keep, a run of it keeps. -/
theorem Only.run_keeps {σ : Type} {h : Handler S σ} {K : S.Call → Prop} {p : Prog S α} (hp : p.Only K) {I : σ → Prop}
    (hI : ∀ c s, K c → I s → I (h c s).2) {s : σ} (hs : I s) : I (run h p s).2 := by
  induction p generalizing s with
  | ret a => exact hs
  | call c k ih => exact ih _ (hp.2 _ () rfl) (hI c s hp.1 hs)

end Wp

end Prog

/-! ## Programs that may stop with an error -/

/-- A program that may stop with an error of type `ε`. -/
abbrev Fallible (S : Sig) (ε : Type) := ExceptT ε (Prog S)

/-- A sequence of results is a result of both parts. -/
theorem bind_eq_ok {ε α β : Type} {x : Except ε α} {f : α → Except ε β} {b : β} :
    (x >>= f) = .ok b ↔ ∃ a, x = .ok a ∧ f a = .ok b := by
  cases x with
  | ok a => exact ⟨fun h => ⟨a, rfl, h⟩, fun ⟨_, e, h⟩ => by cases e; exact h⟩
  | error e => exact ⟨fun h => by (cases h), fun ⟨_, e, _⟩ => by (cases e)⟩

namespace Fallible

variable {S : Sig} {ε α β : Type}

/-- One call. -/
def call (c : S.Call) : Fallible S ε (S.Ans c) := ExceptT.mk (.call c fun r => .ret (.ok r))

/-- Stop with `e` unless `b`. -/
def ensure (b : Bool) (e : ε) : Fallible S ε Unit := if b then pure () else throw e

/-- The value, or stop with `e`. -/
def okOr (o : Option α) (e : ε) : Fallible S ε α :=
  match o with
  | some a => pure a
  | none => throw e

/-- The result of a pure computation. -/
def attempt (x : Except ε α) : Fallible S ε α := ExceptT.mk (.ret x)

/-- Run `x` only if `b`. -/
def onlyIf (b : Bool) (x : Fallible S ε α) : Fallible S ε (Option α) := if b then some <$> x else pure none

/-- The value, or what `x` gives instead. -/
def getOr (o : Option α) (x : Fallible S ε α) : Fallible S ε α :=
  match o with
  | some a => pure a
  | none => x

/-- Run `f` on the value, if there is one. -/
def forSome (o : Option α) (f : α → Fallible S ε Unit) : Fallible S ε Unit :=
  match o with
  | some a => f a
  | none => pure ()

/-- The errors translated. -/
def mapError {ε' : Type} (f : ε → ε') (x : Fallible S ε α) : Fallible S ε' α :=
  ExceptT.mk (Except.mapError f <$> ExceptT.run x)

/-- An error becomes a result. -/
def caught {ε' : Type} (x : Fallible S ε α) : Fallible S ε' (Except ε α) := ExceptT.mk (Except.ok <$> ExceptT.run x)

/-- The result of running a program alone, and the state it leaves. -/
def run {σ : Type} (h : Handler S σ) (x : Fallible S ε α) (s : σ) : Except ε α × σ := Prog.run h (ExceptT.run x) s

/-- A postcondition for the result and one for the error. -/
def post {γ : Type} (Q : α → γ → Prop) (E : ε → γ → Prop) : Except ε α → γ → Prop
  | .ok a, g => Q a g
  | .error e, g => E e g

/-- As `Prog.wp`, with a postcondition for the result and one for the error. -/
def wp {γ : Type} (T : Spec S γ) (x : Fallible S ε α) (Q : α → γ → Prop) (E : ε → γ → Prop) (g : γ) : Prop :=
  Prog.wp T (ExceptT.run x) (post Q E) g

/-- Every call is allowed when it is made, wherever the program starts. -/
def Safe {γ : Type} (T : Spec S γ) (x : Fallible S ε α) : Prop := ∀ g, wp T x (fun _ _ => True) (fun _ _ => True) g

/-- As `Prog.Only`. -/
abbrev Only (K : S.Call → Prop) (x : Fallible S ε α) : Prop := Safe (.only K) x

section Run

variable {σ τ : Type} {h : Handler S σ} {s : σ}

theorem run_pure (a : α) : run h (pure a : Fallible S ε α) s = (.ok a, s) := rfl

theorem run_attempt (x : Except ε α) : run h (attempt x : Fallible S ε α) s = (x, s) := rfl

theorem run_call (c : S.Call) : run h (call c : Fallible S ε (S.Ans c)) s = (.ok (h c s).1, (h c s).2) := rfl

theorem run_bind (x : Fallible S ε α) (f : α → Fallible S ε β) (s : σ) :
    run h (x >>= f) s = match run h x s with
      | (.ok a, s') => run h (f a) s'
      | (.error e, s') => (.error e, s') := by
  unfold run
  rw [ExceptT.run_bind, Prog.run_bind]
  rcases Prog.run h (ExceptT.run x) s with ⟨e | a, s'⟩ <;> rfl

theorem run_caught {ε' : Type} (x : Fallible S ε α) :
    run h (caught x : Fallible S ε' (Except ε α)) s = (.ok (run h x s).1, (run h x s).2) := by
  show Prog.run h (Except.ok <$> ExceptT.run x) s = _
  rw [← bind_pure_comp, Prog.run_bind]
  rfl

/-- A loop goes on after a turn that succeeds. -/
theorem run_forM_cons (f : α → Fallible S ε PUnit) (a : α) (as : List α) (s : σ) :
    run h ((a :: as).forM f) s = match run h (f a) s with
      | (.ok _, s') => run h (as.forM f) s'
      | (.error e, s') => (.error e, s') := by
  show run h (f a >>= fun _ => as.forM f) s = _
  rw [run_bind]
  rcases run h (f a) s with ⟨e | u, s'⟩ <;> rfl

/-- Where two handlers answer alike and keep their states related, so do they in a program of such calls. -/
theorem Only.run_related {k : Handler S τ} {K : S.Call → Prop} {x : Fallible S ε α} (hx : x.Only K) {R : σ → τ → Prop}
    (hR : ∀ c s t, K c → R s t → (h c s).1 = (k c t).1 ∧ R (h c s).2 (k c t).2) {t : τ} (hst : R s t) :
    (run h x s).1 = (run k x t).1 ∧ R (run h x s).2 (run k x t).2 := by
  have hprog : ∀ (p : Prog S (Except ε α)) (s : σ) (t : τ), p.Only K → R s t →
      (Prog.run h p s).1 = (Prog.run k p t).1 ∧ R (Prog.run h p s).2 (Prog.run k p t).2 := by
    intro p
    induction p with
    | ret a => exact fun s t _ hst => ⟨rfl, hst⟩
    | call c next ih =>
      intro s t hp hst
      obtain ⟨hc, hnext⟩ := Prog.wp_call.1 hp
      obtain ⟨hans, hst⟩ := hR c s t hc hst
      rw [Prog.run_call, Prog.run_call, hans]
      exact ih _ _ _ (hnext _ () rfl) hst
  exact hprog _ s t (Prog.wp_mono (fun _ _ _ => trivial) (hx ())) hst

/-- Where two handlers do the same, so do they in a program of such calls. -/
theorem Only.run_eq {k : Handler S τ} {K : S.Call → Prop} {x : Fallible S ε α} (hx : x.Only K) {f : σ → τ}
    (hf : ∀ c s, K c → k c (f s) = ((h c s).1, f (h c s).2)) (s : σ) :
    run k x (f s) = ((run h x s).1, f (run h x s).2) := by
  obtain ⟨hans, hst⟩ := hx.run_related (h := h) (k := k) (R := fun s t => t = f s) (fun c s t hc hst => by
    rw [hst, hf c s hc]
    exact ⟨rfl, rfl⟩) (rfl : f s = f s)
  rw [Prod.ext_iff]
  exact ⟨hans.symm, hst⟩

end Run

section Rules

variable {γ : Type} {T : Spec S γ} {Q Q' : α → γ → Prop} {E E' : ε → γ → Prop} {g : γ}

theorem Safe.run {x : Fallible S ε α} (h : x.Safe T) : Prog.wp T (ExceptT.run x) (fun _ _ => True) g :=
  Prog.wp_mono (fun _ _ _ => trivial) (h g)

/-- What the calls of a program keep, a run of it keeps. -/
theorem Only.run_keeps {σ : Type} {h : Handler S σ} {K : S.Call → Prop} {x : Fallible S ε α} (hx : x.Only K)
    {I : σ → Prop} (hI : ∀ c s, K c → I s → I (h c s).2) {s : σ} (hs : I s) : I (Fallible.run h x s).2 :=
  Prog.Only.run_keeps hx.run hI hs

/-- What the calls of a program keep, the program keeps. -/
theorem Only.wp {K : S.Call → Prop} {x : Fallible S ε α} (h : x.Only K) {I : γ → Prop}
    (hok : ∀ c g, K c → I g → T.ok c g) (hcan : ∀ c g r g', K c → I g → T.can c g r g' → I g') (hg : I g) :
    Fallible.wp T x (fun _ g' => I g') (fun _ g' => I g') g := by
  refine Prog.wp_mono (fun r g' hg' => ?_) (Prog.Only.wp h.run hok hcan hg)
  cases r with
  | ok a => exact hg'
  | error e => exact hg'

@[simp] theorem wp_pure (a : α) : wp T (pure a) Q E g ↔ Q a g := Iff.rfl

@[simp] theorem wp_throw (e : ε) : wp T (throw e) Q E g ↔ E e g := Iff.rfl

@[simp] theorem wp_bind (x : Fallible S ε α) (f : α → Fallible S ε β) {R : β → γ → Prop} :
    wp T (x >>= f) R E g ↔ wp T x (fun a g' => wp T (f a) R E g') E g := by
  unfold wp
  rw [ExceptT.run_bind, Prog.wp_bind]
  refine Prog.wp_congr fun r g' => ?_
  cases r with
  | ok a => rfl
  | error e => rfl

@[simp] theorem wp_map (f : α → β) (x : Fallible S ε α) {R : β → γ → Prop} :
    wp T (f <$> x) R E g ↔ wp T x (fun a g' => R (f a) g') E g := by
  rw [← bind_pure_comp, wp_bind]
  rfl

@[simp] theorem wp_discard (x : Fallible S ε α) {R : PUnit → γ → Prop} :
    wp T (discard x) R E g ↔ wp T x (fun _ g' => R ⟨⟩ g') E g := by
  unfold discard
  rw [LawfulFunctor.map_const]
  exact wp_map _ x

theorem wp_call (c : S.Call) {Q : S.Ans c → γ → Prop} :
    wp T (call c : Fallible S ε (S.Ans c)) Q E g ↔ T.ok c g ∧ ∀ r g', T.can c g r g' → Q r g' := Iff.rfl

@[simp] theorem wp_call_alone {σ : Type} {h : Handler S σ} {ok : S.Call → σ → Prop} {I : σ → Prop} (c : S.Call)
    {Q : S.Ans c → σ → Prop} {E : ε → σ → Prop} {s : σ} :
    @wp S ε (no_index (S.Ans c)) σ (.alone h ok I) (call c) Q E s ↔
      ok c s ∧ (I (h c s).2 → Q (h c s).1 (h c s).2) := by
  rw [wp_call]
  refine and_congr_right fun _ => ⟨fun hq hi => hq _ _ ⟨rfl, rfl, hi⟩, ?_⟩
  rintro hq r s' ⟨rfl, rfl, hi⟩
  exact hq hi

@[simp] theorem wp_call_protocol {ok : S.Call → γ → Prop} {next : (c : S.Call) → S.Ans c → γ → γ} (c : S.Call)
    {Q : S.Ans c → γ → Prop} :
    @wp S ε (no_index (S.Ans c)) γ (.protocol ok next) (call c) Q E g ↔ ok c g ∧ ∀ r, Q r (next c r g) := by
  rw [wp_call]
  refine and_congr_right fun _ => ⟨fun hq r => hq r _ rfl, ?_⟩
  rintro hq r g' rfl
  exact hq r

@[simp] theorem wp_ensure (b : Bool) (e : ε) {Q : Unit → γ → Prop} :
    wp T (ensure b e) Q E g ↔ (b = true → Q () g) ∧ (b = false → E e g) := by
  cases b <;> simp [ensure]

@[simp] theorem wp_okOr (o : Option α) (e : ε) :
    wp T (okOr o e) Q E g ↔ (∀ a, o = some a → Q a g) ∧ (o = none → E e g) := by
  cases o <;> simp [okOr]

@[simp] theorem wp_attempt (x : Except ε α) :
    wp T (attempt x) Q E g ↔ (∀ a, x = .ok a → Q a g) ∧ (∀ e, x = .error e → E e g) := by
  cases x with
  | ok a => exact ⟨fun h => ⟨fun _ e => by cases e; exact h, fun _ e => by cases e⟩, fun h => h.1 a rfl⟩
  | error e => exact ⟨fun h => ⟨fun _ e => by (cases e), fun _ e => by cases e; exact h⟩, fun h => h.2 e rfl⟩

theorem wp_onlyIf (b : Bool) (x : Fallible S ε α) {Q : Option α → γ → Prop} :
    wp T (onlyIf b x) Q E g ↔ (b = true → wp T x (fun a => Q (some a)) E g) ∧ (b = false → Q none g) := by
  cases b <;> simp [onlyIf]

@[simp] theorem wp_getOr (o : Option α) (x : Fallible S ε α) :
    wp T (getOr o x) Q E g ↔ (∀ a, o = some a → Q a g) ∧ (o = none → wp T x Q E g) := by
  cases o <;> simp [getOr]

@[simp] theorem wp_forSome (o : Option α) (f : α → Fallible S ε Unit) {Q : Unit → γ → Prop} :
    wp T (forSome o f) Q E g ↔ (∀ a, o = some a → wp T (f a) Q E g) ∧ (o = none → Q () g) := by
  cases o <;> simp [forSome]

@[simp] theorem wp_mapError {ε' : Type} (f : ε → ε') (x : Fallible S ε α) {E : ε' → γ → Prop} :
    wp T (mapError f x) Q E g ↔ wp T x Q (fun e => E (f e)) g := by
  unfold wp
  change Prog.wp T (Except.mapError f <$> ExceptT.run x) _ g ↔ _
  rw [← bind_pure_comp, Prog.wp_bind]
  refine Prog.wp_congr fun r g' => ?_
  cases r with
  | ok a => rfl
  | error e => rfl

@[simp] theorem wp_caught {ε' : Type} (x : Fallible S ε α) {Q : Except ε α → γ → Prop} {E : ε' → γ → Prop} :
    wp T (caught x : Fallible S ε' (Except ε α)) Q E g ↔ wp T x (fun a => Q (.ok a)) (fun e => Q (.error e)) g := by
  unfold wp
  change Prog.wp T (Except.ok <$> ExceptT.run x) _ g ↔ _
  rw [← bind_pure_comp, Prog.wp_bind]
  refine Prog.wp_congr fun r g' => ?_
  cases r with
  | ok a => rfl
  | error e => rfl

theorem wp_mono {x : Fallible S ε α} (hQ : ∀ a g, Q a g → Q' a g) (hE : ∀ e g, E e g → E' e g)
    (h : wp T x Q E g) : wp T x Q' E' g :=
  Prog.wp_mono (fun r g' => by
    cases r with
    | ok a => exact hQ a g'
    | error e => exact hE e g') h

/-- What `x` makes true and what holds already. -/
theorem wp_onlyIf_of {b : Bool} {x : Fallible S ε α} {R : γ → Prop} (hx : wp T x (fun _ g' => R g') E g) (h : R g) :
    wp T (onlyIf b x) (fun _ g' => R g') E g :=
  (wp_onlyIf b x).2 ⟨fun _ => hx, fun _ => h⟩

/-- A loop keeps what its body keeps. -/
theorem wp_forM {I : γ → Prop} (f : α → Fallible S ε PUnit) (xs : List α)
    (hf : ∀ a ∈ xs, ∀ g, I g → wp T (f a) (fun _ g' => I g') E g) (h : I g) :
    wp T (xs.forM f) (fun _ g' => I g') E g := by
  induction xs generalizing g with
  | nil => exact h
  | cons a xs ih =>
    change wp T (f a >>= fun _ => xs.forM f) _ E g
    rw [wp_bind]
    refine wp_mono (fun _ g' hg => ?_) (fun _ _ he => he) (hf a List.mem_cons_self g h)
    exact ih (fun b hb => hf b (List.mem_cons_of_mem a hb)) hg

/-- The two postconditions as one. -/
theorem wp_iff_run {x : Fallible S ε α} : wp T x Q E g ↔ Prog.wp T (ExceptT.run x) (post Q E) g := Iff.rfl

/-- What holds however a program ends. -/
theorem wp.either {R : γ → Prop} {x : Fallible S ε α} (h : wp T x (fun _ => R) (fun _ => R) g) :
    Prog.wp T (ExceptT.run x) (fun _ => R) g := by
  refine Prog.wp_mono (fun r g' hr => ?_) h
  cases r with
  | ok a => exact hr
  | error e => exact hr

/-- A loop whose body only checks something of each element. -/
theorem wp_forM_check {P : α → Prop} (f : α → Fallible S ε PUnit) (xs : List α)
    (hf : ∀ a ∈ xs, wp T (f a) (fun _ g' => g' = g ∧ P a) E g) :
    wp T (xs.forM f) (fun _ g' => g' = g ∧ ∀ a ∈ xs, P a) E g := by
  induction xs with
  | nil => exact (wp_pure _).2 ⟨rfl, nofun⟩
  | cons a xs ih =>
    change wp T (f a >>= fun _ => xs.forM f) _ E g
    rw [wp_bind]
    refine wp_mono ?_ (fun _ _ he => he) (hf a List.mem_cons_self)
    rintro _ _ ⟨rfl, ha⟩
    refine wp_mono ?_ (fun _ _ he => he) (ih fun b hb => hf b (List.mem_cons_of_mem a hb))
    rintro _ _ ⟨rfl, has⟩
    exact ⟨rfl, List.forall_mem_cons.2 ⟨ha, has⟩⟩

section Safe

theorem safe_bind {x : Fallible S ε α} {f : α → Fallible S ε β} (hx : x.Safe T) (hf : ∀ a, (f a).Safe T) :
    (x >>= f).Safe T := fun g =>
  (wp_bind x f).2 (wp_mono (fun a g' _ => hf a g') (fun _ _ _ => trivial) (hx g))

theorem safe_call {c : S.Call} (h : ∀ g, T.ok c g) : (call c : Fallible S ε (S.Ans c)).Safe T := fun g =>
  (wp_call c).2 ⟨h g, fun _ _ _ => trivial⟩

theorem only_call {K : S.Call → Prop} {c : S.Call} (h : K c) : (call c : Fallible S ε (S.Ans c)).Only K :=
  safe_call fun _ => h

theorem safe_pure (a : α) : (pure a : Fallible S ε α).Safe T := fun _ => (wp_pure a).2 trivial

theorem safe_throw (e : ε) : (throw e : Fallible S ε α).Safe T := fun _ => (wp_throw e).2 trivial

theorem safe_ensure (b : Bool) (e : ε) : (ensure b e : Fallible S ε Unit).Safe T := fun _ =>
  (wp_ensure b e).2 ⟨fun _ => trivial, fun _ => trivial⟩

theorem safe_okOr (o : Option α) (e : ε) : (okOr o e : Fallible S ε α).Safe T := fun _ =>
  (wp_okOr o e).2 ⟨fun _ _ => trivial, fun _ => trivial⟩

theorem safe_attempt (x : Except ε α) : (attempt x : Fallible S ε α).Safe T := fun _ =>
  (wp_attempt x).2 ⟨fun _ _ => trivial, fun _ _ => trivial⟩

theorem safe_onlyIf {b : Bool} {x : Fallible S ε α} (hx : x.Safe T) : (onlyIf b x).Safe T := fun g =>
  wp_onlyIf_of (hx g) trivial

theorem safe_getOr {o : Option α} {x : Fallible S ε α} (hx : x.Safe T) : (getOr o x).Safe T := fun g =>
  (wp_getOr o x).2 ⟨fun _ _ => trivial, fun _ => hx g⟩

theorem safe_forSome {o : Option α} {f : α → Fallible S ε Unit} (hf : ∀ a, (f a).Safe T) : (forSome o f).Safe T :=
  fun g => (wp_forSome o f).2 ⟨fun a _ => hf a g, fun _ => trivial⟩

theorem safe_forM {xs : List α} {f : α → Fallible S ε PUnit} (hf : ∀ a, (f a).Safe T) : (xs.forM f).Safe T := fun _ =>
  wp_forM f xs (fun a _ g _ => hf a g) trivial

theorem safe_caught {ε' : Type} {x : Fallible S ε α} (hx : x.Safe T) :
    (caught x : Fallible S ε' (Except ε α)).Safe T := fun g => (wp_caught x).2 (hx g)

theorem safe_discard {x : Fallible S ε α} (hx : x.Safe T) : (discard x).Safe T := fun g => (wp_discard x).2 (hx g)

/-- Calls that are always allowed are allowed in every program. -/
theorem Only.safe {K : S.Call → Prop} {x : Fallible S ε α} (h : x.Only K) (hok : ∀ c g, K c → T.ok c g) : x.Safe T :=
  fun _ => wp_mono (fun _ _ _ => trivial) (fun _ _ _ => trivial)
    (h.wp (I := fun _ => True) (fun c g hc _ => hok c g hc) (fun _ _ _ _ _ _ _ => trivial) trivial)

end Safe

/-- What two specifications ask of the calls of a run alone may be asked at once. -/
theorem wp_alone_and {σ : Type} {h : Handler S σ} {ok ok' : S.Call → σ → Prop} {I : σ → Prop} {x : Fallible S ε α}
    {s : σ} (hw : wp (.alone h ok I) x (fun _ _ => True) (fun _ _ => True) s)
    (hw' : wp (.alone h ok' I) x (fun _ _ => True) (fun _ _ => True) s) :
    wp (.alone h (fun c s => ok c s ∧ ok' c s) I) x (fun _ _ => True) (fun _ _ => True) s :=
  Prog.wp_mono (fun _ _ hq => hq.1) (Prog.wp_alone_and hw hw')

/-- A run alone keeps an invariant that the allowed calls keep, and ends in one of the postconditions. -/
theorem wp_run {σ : Type} {h : Handler S σ} {ok : S.Call → σ → Prop} {I : σ → Prop} {x : Fallible S ε α}
    {Q : α → σ → Prop} {E : ε → σ → Prop} {s : σ} (hI : ∀ c s, ok c s → I s → I (h c s).2) (hs : I s)
    (hw : wp (.alone h ok I) x Q E s) : post Q E (run h x s).1 (run h x s).2 ∧ I (run h x s).2 :=
  Prog.wp_run hI hs hw

end Rules

end Fallible

-- A goal of the form `wp T p Q g` is taken apart by the rules; unfolding it would run the program `p`.
attribute [irreducible] Prog.wp Fallible.wp

/-! ## Runs that stop early -/

namespace Prog

variable {S : Sig} {α σ τ : Type}

/-- Run a program for at most `n` calls: what is left of it, and the state. -/
def runFor (h : Handler S σ) : Nat → Prog S α → σ → Prog S α × σ
  | 0, p, s => (p, s)
  | _ + 1, .ret a, s => (.ret a, s)
  | n + 1, .call c k, s => runFor h n (k (h c s).1) (h c s).2

/-- The handler with an observer of the calls. -/
def observing (h : Handler S σ) (see : τ → (c : S.Call) → S.Ans c → τ) : Handler S (σ × τ) := fun c g =>
  ((h c g.1).1, (h c g.1).2, see g.2 c (h c g.1).1)

/-- A run that is stopped early has kept the invariant, and what is left of it follows the specification. -/
theorem wp_runFor {h : Handler S σ} {ok : S.Call → σ → Prop} {I : σ → Prop} {Q : α → σ → Prop}
    (hI : ∀ c s, ok c s → I s → I (h c s).2) (n : Nat) {p : Prog S α} {s : σ} (hs : I s)
    (hw : wp (.alone h ok I) p Q s) : I (runFor h n p s).2 ∧ wp (.alone h ok I) (runFor h n p s).1 Q
      (runFor h n p s).2 := by
  induction n generalizing p s with
  | zero => exact ⟨hs, hw⟩
  | succ n ih =>
    cases p with
    | ret a => exact ⟨hs, hw⟩
    | call c k =>
      obtain ⟨hok, hw⟩ := wp_call.1 hw
      have hc := hI c s hok hs
      exact ih hc (hw _ _ ⟨rfl, rfl, hc⟩)

end Prog

end Calls

/-! ## Runs of steps -/

namespace Runs

variable {σ ρ : Type} {step : σ → ρ → σ} {I Good : σ → Prop} {Bad : σ → ρ → Prop} {Never : σ → List ρ → Prop}

/-- `Good` holds after every prefix of a run if and only if no step of it is bad in the state that it finds. -/
theorem forall_prefix_iff (hnil : ∀ s, Never s []) (hcons : ∀ s r rs, Never s (r :: rs) ↔ ¬ Bad s r ∧
    Never (step s r) rs) (hgood : ∀ s, I s → Good s) (hbad : ∀ s r, I s → Bad s r → ¬ Good (step s r))
    (hkeep : ∀ s r, I s → ¬ Bad s r → I (step s r)) {s : σ} (hs : I s) (rs : List ρ) :
    (∀ pre, pre <+: rs → Good (pre.foldl step s)) ↔ Never s rs := by
  induction rs generalizing s with
  | nil =>
    constructor
    · exact fun _ => hnil s
    · intro _ pre hp
      rw [List.prefix_nil.1 hp]
      exact hgood s hs
  | cons r rs ih =>
    rw [hcons]
    constructor
    · intro hall
      have hr : ¬ Bad s r := fun hr => hbad s r hs hr (hall [r] (List.prefix_append [r] rs))
      refine ⟨hr, (ih (hkeep s r hs hr)).1 fun pre hp => ?_⟩
      exact hall (r :: pre) ((List.prefix_cons_inj r).2 hp)
    · rintro ⟨hr, hn⟩ pre hp
      cases pre with
      | nil => exact hgood s hs
      | cons r' pre =>
        obtain ⟨rfl, hpre⟩ := List.cons_prefix_cons.1 hp
        exact (ih (hkeep s r' hs hr)).2 hn pre hpre

end Runs
