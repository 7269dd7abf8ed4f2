import PingoraMesh.Lib.Prog

/-!
# Programs whose calls may fail

A call may come back with its answer, with an error, or not at all, because the process stops. `Fallible.faulty` runs a
program over such calls: it passes every error of a call on as its own, and ends when the process stops. The error
`none` stands for a process that has stopped, and `some e` for an error that a caller may go on from
(`Fallible.survived`).

* `faulty_bind`, `faulty_pure`, `faulty_call`: the program over faulty calls has the same text;
* `wp_faulty`: it follows what the program follows over the calls that are answered;
* `run_failing_keeps`: where calls fail at given positions, it keeps what its calls keep.
-/

namespace Calls

/-- What comes back of a call. -/
inductive Outcome (ε α : Type) where
  | answer (a : α)
  | error (e : ε)
  | stopped
  deriving DecidableEq, Repr

/-- The same calls, each of which may fail. -/
@[reducible] def Sig.faulty (S : Sig) (ε : Type) : Sig := ⟨S.Call, fun c => Outcome ε (S.Ans c)⟩

namespace Fallible

variable {S : Sig} {ε α β : Type}

/-- The answer, or an end. -/
def ofOutcome {T : Sig} : Outcome ε α → Fallible T (Option ε) α
  | .answer a => pure a
  | .error e => throw (some e)
  | .stopped => throw none

/-- One call that may fail. -/
def tryCall (c : S.Call) : Fallible (S.faulty ε) (Option ε) (S.Ans c) := do
  let r ← @Fallible.call (S.faulty ε) (Option ε) c
  ofOutcome r

/-- The steps of a program over calls that may fail. -/
def faultySteps : Prog S (Except ε α) → Fallible (S.faulty ε) (Option ε) α
  | .ret r => attempt (r.mapError some)
  | .call c k => tryCall c >>= fun r => faultySteps (k r)

/-- A program over calls that may fail: an error of a call is an error of the program. -/
def faulty (x : Fallible S ε α) : Fallible (S.faulty ε) (Option ε) α := faultySteps (ExceptT.run x)

/-- An error becomes a result; a process that has stopped does not go on. -/
def survived (x : Fallible S (Option ε) α) : Fallible S (Option ε) (Except ε α) := do
  match ← caught x with
  | .ok a => return .ok a
  | .error (some e) => return .error e
  | .error none => throw none

@[simp] theorem faulty_pure (a : α) : faulty (pure a : Fallible S ε α) = pure a := rfl

@[simp] theorem faulty_throw (e : ε) : faulty (throw e : Fallible S ε α) = throw (some e) := rfl

@[simp] theorem faulty_attempt (x : Except ε α) : faulty (attempt x : Fallible S ε α) = attempt (x.mapError some) := rfl

@[simp] theorem faulty_call (c : S.Call) : @faulty S ε (no_index (S.Ans c)) (call c) = tryCall c :=
  bind_pure (m := Fallible (S.faulty ε) (Option ε)) (tryCall c)

@[simp] theorem faulty_bind (x : Fallible S ε α) (f : α → Fallible S ε β) :
    faulty (x >>= f) = faulty x >>= fun a => faulty (f a) := by
  have hsteps : ∀ y : Prog S (Except ε α), faultySteps (y >>= ExceptT.bindCont f) =
      faultySteps y >>= fun a => faulty (f a) := by
    intro y
    induction y with
    | ret r =>
      cases r with
      | ok a => rfl
      | error e => rfl
    | call c k ih =>
      change (tryCall c >>= fun r => faultySteps (k r >>= ExceptT.bindCont f)) =
        (tryCall c >>= fun r => faultySteps (k r)) >>= _
      rw [bind_assoc]
      exact congrArg _ (funext ih)
  exact hsteps (ExceptT.run x)

@[simp] theorem faulty_map (f : α → β) (x : Fallible S ε α) : faulty (f <$> x) = f <$> faulty x := by
  rw [← bind_pure_comp, faulty_bind, ← bind_pure_comp]
  rfl

@[simp] theorem faulty_discard (x : Fallible S ε α) : faulty (discard x) = discard (faulty x) := by
  unfold discard
  rw [LawfulFunctor.map_const, LawfulFunctor.map_const]
  exact faulty_map _ x

@[simp] theorem faulty_ensure (b : Bool) (e : ε) : faulty (ensure b e : Fallible S ε Unit) = ensure b (some e) := by
  cases b with
  | false => rfl
  | true => rfl

@[simp] theorem faulty_okOr (o : Option α) (e : ε) : faulty (okOr o e : Fallible S ε α) = okOr o (some e) := by
  cases o with
  | none => rfl
  | some a => rfl

@[simp] theorem faulty_onlyIf (b : Bool) (x : Fallible S ε α) : faulty (onlyIf b x) = onlyIf b (faulty x) := by
  cases b with
  | false => rfl
  | true => exact faulty_map _ x

@[simp] theorem faulty_forSome (o : Option α) (f : α → Fallible S ε Unit) :
    faulty (forSome o f) = forSome o fun a => faulty (f a) := by
  cases o with
  | none => rfl
  | some a => rfl

section Rules

variable {γ : Type} {T : Spec (S.faulty ε) γ} {E : Option ε → γ → Prop} {g : γ}

@[simp] theorem wp_tryCall (c : S.Call) {Q : S.Ans c → γ → Prop} :
    @wp (S.faulty ε) (Option ε) (no_index (S.Ans c)) γ T (tryCall c) Q E g ↔ T.ok c g ∧
      (∀ a g', T.can c g (.answer a) g' → Q a g') ∧
      (∀ e g', T.can c g (.error e) g' → E (some e) g') ∧ ∀ g', T.can c g .stopped g' → E none g' := by
  unfold tryCall
  rw [wp_bind, wp_call]
  refine and_congr_right fun _ => ⟨fun h => ⟨fun a g' hc => ?_, fun e g' hc => ?_, fun g' hc => ?_⟩,
    fun h r g' hc => ?_⟩
  · exact (wp_pure a).1 (h _ g' hc)
  · exact (wp_throw _).1 (h _ g' hc)
  · exact (wp_throw _).1 (h _ g' hc)
  · cases r with
    | answer a => exact (wp_pure a).2 (h.1 a g' hc)
    | error e => exact (wp_throw _).2 (h.2.1 e g' hc)
    | stopped => exact (wp_throw _).2 (h.2.2 g' hc)

@[simp] theorem wp_attempt_mapError (x : Except ε α) {Q : α → γ → Prop} :
    wp T (attempt (x.mapError some)) Q E g ↔ (∀ a, x = .ok a → Q a g) ∧ (∀ e, x = .error e → E (some e) g) := by
  cases x with
  | ok a => simp [Except.mapError]
  | error e => simp [Except.mapError]

theorem wp_survived {x : Fallible (S.faulty ε) (Option ε) α} {Q : Except ε α → γ → Prop}
    (h : wp T x (fun a => Q (.ok a)) (fun e g' => (∀ e', e = some e' → Q (.error e') g') ∧ (e = none → E none g')) g) :
    wp T (survived x) Q E g := by
  unfold survived
  rw [wp_bind, wp_caught]
  refine wp_mono (fun a g' ha => (wp_pure _).2 ha) (fun e g' he => ?_) h
  cases e with
  | some e => exact (wp_pure _).2 (he.1 e rfl)
  | none => exact (wp_throw _).2 (he.2 rfl)

/-- What is asked of calls that may fail, for the calls that are answered. -/
def answered (T : Spec (S.faulty ε) γ) : Spec S γ := ⟨T.ok, fun c g r g' => T.can c g (.answer r) g'⟩

@[simp] theorem wp_call_answered {σ : Type} {h : Handler (S.faulty ε) σ} {ok : S.Call → σ → Prop} {I : σ → Prop}
    (c : S.Call) {Q : S.Ans c → σ → Prop} {E : ε → σ → Prop} {s : σ} :
    @wp S ε (no_index (S.Ans c)) σ (answered (.alone h ok I)) (call c) Q E s ↔
      ok c s ∧ ∀ r, (h c s).1 = .answer r → I (h c s).2 → Q r (h c s).2 := by
  rw [wp_call]
  refine and_congr_right fun _ => ⟨fun hq r hr hi => hq r _ ⟨hr.symm, rfl, hi⟩, ?_⟩
  rintro hq r s' ⟨hr, rfl, hi⟩
  exact hq r hr.symm hi

@[simp] theorem wp_call_answered_protocol {ok : S.Call → γ → Prop}
    {next : (c : S.Call) → Outcome ε (S.Ans c) → γ → γ} (c : S.Call) {Q : S.Ans c → γ → Prop}
      {E : ε → γ → Prop} {g : γ} :
    @wp S ε (no_index (S.Ans c)) γ (answered (.protocol (S := S.faulty ε) ok next)) (call c) Q E g ↔
      ok c g ∧ ∀ r, Q r (next c (.answer r) g) := by
  rw [wp_call]
  refine and_congr_right fun _ => ⟨fun hq r => hq r _ rfl, ?_⟩
  rintro hq r _ rfl
  exact hq r

/-- A program over calls that may fail does what it does over the calls that are answered, and ends with a call that is
not. -/
theorem wp_faulty {x : Fallible S ε α} {Q : α → γ → Prop} {E : ε → γ → Prop}
    (herror : ∀ c g e g', T.ok c g → T.can c g (.error e) g' → E e g') (h : wp (answered T) x Q E g) :
    wp T (faulty x) Q (fun e g' => ∀ e', e = some e' → E e' g') g := by
  have hsteps : ∀ (y : Prog S (Except ε α)) (g : γ), Prog.wp (answered T) y (post Q E) g →
      wp T (faultySteps y) Q (fun e g' => ∀ e', e = some e' → E e' g') g := by
    intro y
    induction y with
    | ret r =>
      intro g hy
      rw [Prog.wp_ret] at hy
      cases r with
      | ok a => exact (wp_attempt _).2 ⟨fun _ e => by cases e; exact hy, fun _ e => by (cases e)⟩
      | error e =>
        refine (wp_attempt _).2 ⟨fun _ e => by (cases e), fun _ he e' he' => ?_⟩
        cases he
        cases he'
        exact hy
    | call c k ih =>
      intro g hy
      obtain ⟨hok, hk⟩ := Prog.wp_call.1 hy
      change wp T (tryCall c >>= fun r => faultySteps (k r)) _ _ g
      rw [wp_bind, wp_tryCall]
      refine ⟨hok, fun a g' hc => ih a g' (hk a g' hc), fun e g' hc e' he => ?_, fun _ _ _ he => by (cases he)⟩
      cases he
      exact herror c g e g' hok hc
  exact hsteps (ExceptT.run x) g (wp_iff_run.1 h)

end Rules

/-- A program over calls that may fail makes the same calls. -/
theorem only_faulty {K : S.Call → Prop} {x : Fallible S ε α} (hx : x.Only K) : (faulty x).Only (S := S.faulty ε) K := by
  intro g
  refine wp_mono (fun _ _ _ => trivial) (fun _ _ _ => trivial) (wp_faulty (fun _ _ _ _ _ _ => trivial)
    (E := fun _ _ => True) (Q := fun _ _ => True) ?_)
  exact hx.safe (fun c g hc => hc) g

/-- Where the process is never stopped, a program ends with a result or an error. -/
theorem run_faulty_ne_stopped {σ : Type} {h : Handler (S.faulty ε) σ} (hgoes : ∀ c s, (h c s).1 ≠ .stopped)
    (x : Fallible S ε α) (s : σ) : (run h (faulty x) s).1 ≠ .error none := by
  have hsteps : ∀ (y : Prog S (Except ε α)) (s : σ), (run h (faultySteps y) s).1 ≠ .error none := by
    intro y
    induction y with
    | ret r =>
      intro s
      cases r with
      | ok a => exact fun e => by (cases e)
      | error e => exact fun e => by (cases e)
    | call c k ih =>
      intro s
      change (Prog.run h (.call c fun r => ExceptT.run (ofOutcome r >>= fun r => faultySteps (k r))) s).1 ≠ _
      rw [Prog.run_call]
      cases hr : (h c s).1 with
      | answer a => exact ih a _
      | error e => exact fun e => by (cases e)
      | stopped => exact absurd hr (hgoes c s)
  exact hsteps (ExceptT.run x) s

/-! ## Calls that fail at given positions -/

section Failing

variable {σ : Type} (h : Handler S σ) (counted : S.Call → Bool) (fault : Nat → Bool) (e : ε)

/-- The handler, where the counted calls fail at the positions in `fault`, and then do nothing. -/
def failing : Handler (S.faulty ε) (σ × Nat) := fun c s =>
  if counted c && fault s.2 then (.error e, s.1, s.2 + 1)
  else (.answer (h c s.1).1, (h c s.1).2, if counted c then s.2 + 1 else s.2)

variable {h counted fault e} {E : Option ε → σ × Nat → Prop} {s : σ} {k : Nat}

theorem wp_tryCall_failing {c : S.Call} {Q : S.Ans c → σ × Nat → Prop} :
    @wp (S.faulty ε) (Option ε) (no_index (S.Ans c)) _ (.alone (failing h counted fault e) (fun _ _ => True)
      fun _ => True) (tryCall c) Q E (s, k) ↔
      if counted c then (fault k = true → E (some e) (s, k + 1)) ∧ (fault k = false → Q (h c s).1 ((h c s).2, k + 1))
      else Q (h c s).1 ((h c s).2, k) := by
  simp only [wp_tryCall, Spec.alone, failing, true_and, and_true]
  cases counted c with
  | false => simp
  | true =>
    cases hk : fault k with
    | true => simp
    | false => simp

/-- What the calls of a program keep, it keeps when some of them fail. -/
theorem run_failing_keeps {ok : S.Call → σ → Prop} {I : σ → Prop} (hI : ∀ c s, ok c s → I s → I (h c s).2)
    {x : Fallible S ε α} (hs : I s) (hx : wp (.alone h ok I) x (fun _ _ => True) (fun _ _ => True) s) :
    I (run (failing h counted fault e) (faulty x) (s, k)).2.1 := by
  have hsteps : ∀ (y : Prog S (Except ε α)) (s : σ × Nat), I s.1 →
      Prog.wp (.alone h ok I) y (post (fun _ _ => True) fun _ _ => True) s.1 →
      I (run (failing h counted fault e) (faultySteps y) s).2.1 := by
    intro y
    induction y with
    | ret r =>
      intro s hs _
      cases r with
      | ok a => exact hs
      | error e => exact hs
    | call c k ih =>
      intro s hs hy
      obtain ⟨hok, hk⟩ := Prog.wp_call.1 hy
      have hkept := hI c s.1 hok hs
      change I (Prog.run (failing h counted fault e)
        (.call c fun r => ExceptT.run (ofOutcome r >>= fun r => faultySteps (k r))) s).2.1
      rw [Prog.run_call]
      unfold failing
      split
      · exact hs
      · exact ih _ _ hkept (hk _ _ ⟨rfl, rfl, hkept⟩)
  exact hsteps (ExceptT.run x) (s, k) hs (wp_iff_run.1 hx)

end Failing

end Fallible

end Calls
