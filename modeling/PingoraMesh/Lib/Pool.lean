import PingoraMesh.Lib.Prog

/-!
# Pools of programs

Any number of programs run at once over one state. A schedule is a list of moves: a request starts a program under a
fresh name, or a running program makes its next call; calls are atomic. A pool keeps the trace of the calls made.

* `Pool.exec` is the pool after a schedule, and `Pool.Admits` says that each move of a schedule meets a condition on
  the pool it is made in; `Pool.forall_prefix_iff_admits` takes apart what holds between any two states of a run;
* `Pool.invariant` is the rule for proving something of every pool that a schedule reaches: each program follows a
  `Spec` over a ghost state of its own, and the invariant relates the ghost states of all of them to the shared state
  and the trace; `Pool.admits_of_fits` is the rule for what holds at each move;
* `Pool.asked` is the request that a name stands for, and `Pool.replay` the state that a trace leads to.
-/

namespace Calls

/-- A call that was made, by whom, and its answer. -/
structure Event (S : Sig) (ι : Type) where
  thread : ι
  call : S.Call
  ans : S.Ans call

/-- A move of a schedule. -/
inductive Move (ι Req : Type) where
  | spawn (i : ι) (q : Req)
  | go (i : ι)
  deriving DecidableEq, Repr

/-- The programs under way, the shared state and the calls made so far. -/
structure Pool (S : Sig) (α ι σ : Type) where
  threads : ι → Option (Prog S α)
  state : σ
  trace : List (Event S ι)

namespace Pool

variable {S : Sig} {α ι σ Req : Type} [DecidableEq ι]

/-- Nothing has started yet. -/
def init (s : σ) : Pool S α ι σ := ⟨fun _ => none, s, []⟩

variable (h : Handler S σ) (prog : Req → Prog S α)

/-- The pool after a move. A name is used once; a program that has returned makes no more calls. -/
def move (P : Pool S α ι σ) : Move ι Req → Pool S α ι σ
  | .spawn i q =>
    match P.threads i with
    | none => { P with threads := Function.update P.threads i (some (prog q)) }
    | some _ => P
  | .go i =>
    match P.threads i with
    | some (.call c k) =>
      { threads := Function.update P.threads i (some (k (h c P.state).1))
        state := (h c P.state).2
        trace := P.trace ++ [⟨i, c, (h c P.state).1⟩] }
    | _ => P

/-- The call that a program makes next. -/
def next (P : Pool S α ι σ) (i : ι) : Option S.Call :=
  match P.threads i with
  | some (.call c _) => some c
  | _ => none

omit [DecidableEq ι] in
theorem next_eq {P : Pool S α ι σ} {i : ι} {c : S.Call} {k : S.Ans c → Prog S α} (h : P.threads i = some (.call c k)) :
    c ∈ P.next i := by
  simp [next, h]

/-- What a program has returned. -/
def result (P : Pool S α ι σ) (i : ι) : Option α :=
  match P.threads i with
  | some (.ret a) => some a
  | _ => none

omit [DecidableEq ι] in
theorem threads_of_result {P : Pool S α ι σ} {i : ι} {a : α} (h : P.result i = some a) :
    P.threads i = some (.ret a) := by
  unfold result at h
  split at h
  · cases h
    assumption
  · cases h

/-- The pool after a schedule. -/
def exec (P : Pool S α ι σ) (ms : List (Move ι Req)) : Pool S α ι σ := ms.foldl (move h prog) P

@[simp] theorem exec_nil (P : Pool S α ι σ) : exec h prog P [] = P := rfl

@[simp] theorem exec_cons (P : Pool S α ι σ) (m : Move ι Req) (ms : List (Move ι Req)) :
    exec h prog P (m :: ms) = exec h prog (move h prog P m) ms := rfl

theorem exec_append (P : Pool S α ι σ) (ms ns : List (Move ι Req)) :
    exec h prog P (ms ++ ns) = exec h prog (exec h prog P ms) ns := List.foldl_append

/-- Each move of the schedule meets `adm` in the pool it is made in. -/
def Admits (adm : Pool S α ι σ → Move ι Req → Prop) (P : Pool S α ι σ) : List (Move ι Req) → Prop
  | [] => True
  | m :: ms => adm P m ∧ Admits adm (move h prog P m) ms

instance decidableAdmits {adm : Pool S α ι σ → Move ι Req → Prop} [∀ P, DecidablePred (adm P)] :
    (P : Pool S α ι σ) → (ms : List (Move ι Req)) → Decidable (Admits h prog adm P ms)
  | _, [] => inferInstanceAs (Decidable True)
  | P, m :: ms =>
    have : Decidable (Admits h prog adm (move h prog P m) ms) := decidableAdmits _ ms
    inferInstanceAs (Decidable (adm P m ∧ Admits h prog adm (move h prog P m) ms))

theorem admits_append {adm : Pool S α ι σ → Move ι Req → Prop} (P : Pool S α ι σ) (ms ns : List (Move ι Req)) :
    Admits h prog adm P (ms ++ ns) ↔ Admits h prog adm P ms ∧ Admits h prog adm (exec h prog P ms) ns := by
  induction ms generalizing P with
  | nil => simp [Admits]
  | cons m ms ih => simp [Admits, ih, and_assoc]

theorem admits_and {adm adm' : Pool S α ι σ → Move ι Req → Prop} {P : Pool S α ι σ} {ms : List (Move ι Req)}
    (hA : Admits h prog adm P ms) (hA' : Admits h prog adm' P ms) :
    Admits h prog (fun P m => adm P m ∧ adm' P m) P ms := by
  induction ms generalizing P with
  | nil => trivial
  | cons m ms ih => exact ⟨⟨hA.1, hA'.1⟩, ih hA.2 hA'.2⟩

/-- A schedule is admitted if each of its moves is, after the moves before it. -/
theorem admits_iff {adm : Pool S α ι σ → Move ι Req → Prop} {P : Pool S α ι σ} {ms : List (Move ι Req)} :
    Admits h prog adm P ms ↔ ∀ pre m, pre ++ [m] <+: ms → adm (exec h prog P pre) m := by
  induction ms generalizing P with
  | nil => exact iff_of_true trivial fun pre m hp => absurd (List.prefix_nil.1 hp) (by simp)
  | cons m₀ ms ih =>
    rw [Admits, ih]
    constructor
    · rintro ⟨hfirst, hrest⟩ pre m hp
      cases pre with
      | nil =>
        obtain ⟨rfl, -⟩ := List.cons_prefix_cons.1 hp
        exact hfirst
      | cons x xs =>
        obtain ⟨rfl, hxs⟩ := List.cons_prefix_cons.1 hp
        exact hrest xs m hxs
    · intro hall
      refine ⟨hall [] m₀ (List.prefix_append [m₀] ms), fun pre m hp => ?_⟩
      exact hall (m₀ :: pre) m ((List.prefix_cons_inj m₀).2 hp)

/-- What holds of the states before and after each move holds of those before and after any part of the schedule. -/
theorem forall_prefix_iff_admits {R : σ → σ → Prop} (hrefl : ∀ s, R s s) (htrans : ∀ s t u, R s t → R t u → R s u)
    {P : Pool S α ι σ} {ms : List (Move ι Req)} :
    (∀ pre post, pre ++ post <+: ms → R (exec h prog P pre).state (exec h prog P (pre ++ post)).state) ↔
      Admits h prog (fun P m => R P.state (move h prog P m).state) P ms := by
  have hrun : ∀ (ms : List (Move ι Req)) (P : Pool S α ι σ),
      Admits h prog (fun P m => R P.state (move h prog P m).state) P ms → R P.state (exec h prog P ms).state := by
    intro ms
    induction ms with
    | nil => exact fun P _ => hrefl _
    | cons m ms ih => exact fun P hA => htrans _ _ _ hA.1 (ih _ hA.2)
  constructor
  · intro hall
    refine (admits_iff h prog).2 fun pre m hp => ?_
    have hstep := hall pre [m] hp
    rw [exec_append] at hstep
    exact hstep
  · rintro hA pre post ⟨rest, rfl⟩
    rw [admits_append, admits_append] at hA
    rw [exec_append]
    exact hrun post _ hA.1.2

/-- What every call keeps holds of every state that a schedule reaches. -/
theorem state_invariant {I : σ → Prop} (hI : ∀ c s, I s → I (h c s).2) {P : Pool S α ι σ} (hP : I P.state)
    (ms : List (Move ι Req)) : I (exec h prog P ms).state := by
  induction ms generalizing P with
  | nil => exact hP
  | cons m ms ih =>
    refine ih ?_
    cases m with
    | spawn i q => cases hi : P.threads i <;> simpa [move, hi] using hP
    | go i =>
      cases hi : P.threads i with
      | none => simpa [move, hi] using hP
      | some p =>
        cases p with
        | ret a => simpa [move, hi] using hP
        | call c k => simpa [move, hi] using hI c P.state hP

/-- What a program has returned stays. -/
theorem result_move {P : Pool S α ι σ} {i : ι} {a : α} (hi : P.result i = some a) (m : Move ι Req) :
    (move h prog P m).result i = some a := by
  have hthread := threads_of_result hi
  suffices hmove : (move h prog P m).threads i = P.threads i by rw [result, hmove, hthread]
  cases m with
  | spawn j q =>
    cases hj : P.threads j with
    | some p => simp [move, hj]
    | none =>
      have hne : i ≠ j := by
        rintro rfl
        rw [hthread] at hj
        cases hj
      simp [move, hj, Function.update_of_ne hne]
  | go j =>
    cases hj : P.threads j with
    | none => simp [move, hj]
    | some p =>
      cases p with
      | ret b => simp [move, hj]
      | call c k =>
        have hne : i ≠ j := by
          rintro rfl
          rw [hthread] at hj
          cases hj
        simp [move, hj, Function.update_of_ne hne]

/-- What every move keeps holds whenever a move is made. -/
theorem admits_of_kept {I : Pool S α ι σ → Prop} (hI : ∀ P m, I P → I (move h prog P m)) {P : Pool S α ι σ} (hP : I P)
    (ms : List (Move ι Req)) : Admits h prog (fun P _ => I P) P ms := by
  induction ms generalizing P with
  | nil => trivial
  | cons m ms ih => exact ⟨hP, ih (hI P m hP)⟩

/-! ## Requests and traces -/

/-- The request that a name stands for in a schedule: the first one that was started under it. -/
def asked : List (Move ι Req) → ι → Option Req
  | [], _ => none
  | .spawn j q :: ms, i => if j = i then some q else asked ms i
  | .go _ :: ms, i => asked ms i

/-- A start takes a free name for the request that it stands for in the schedule `ms`. -/
def AsAsked (ms : List (Move ι Req)) (P : Pool S α ι σ) : Move ι Req → Prop
  | .spawn i q => P.threads i = none → asked ms i = some q
  | .go _ => True

/-- A name that was free stays free, unless a program is started under it. -/
theorem threads_move_eq_none {P : Pool S α ι σ} {m : Move ι Req} {i : ι} (hi : (move h prog P m).threads i = none) :
    P.threads i = none ∧ ∀ q, m ≠ .spawn i q := by
  cases m with
  | spawn j q =>
    by_cases hji : j = i
    · subst hji
      cases hj : P.threads j with
      | none => simp [move, hj] at hi
      | some p => simp [move, hj] at hi
    · refine ⟨?_, fun q' e => hji (by cases e; rfl)⟩
      cases hj : P.threads j with
      | none => simpa [move, hj, Function.update_of_ne (Ne.symm hji)] using hi
      | some p => simpa [move, hj] using hi
  | go j =>
    refine ⟨?_, nofun⟩
    cases hj : P.threads j with
    | none => simpa [move, hj] using hi
    | some p =>
      cases p with
      | ret a => simpa [move, hj] using hi
      | call c k =>
        by_cases hji : i = j
        · subst hji
          simp [move, hj] at hi
        · simpa [move, hj, Function.update_of_ne hji] using hi

/-- Every schedule starts programs as it asks for them. -/
theorem admits_asked (s : σ) (ms : List (Move ι Req)) : Admits h prog (AsAsked ms) (init s) ms := by
  -- the names that are still free have the same meaning in the rest of the schedule
  suffices key : ∀ (P : Pool S α ι σ) (ns : List (Move ι Req)),
      (∀ i, P.threads i = none → asked ms i = asked ns i) → Admits h prog (AsAsked ms) P ns from
    key (init s) ms fun _ _ => rfl
  intro P ns
  induction ns generalizing P with
  | nil => exact fun _ => trivial
  | cons m ns ih =>
    intro hP
    refine ⟨?_, ih _ fun i hi => ?_⟩
    · cases m with
      | spawn i q => exact fun hi => (hP i hi).trans (by simp [asked])
      | go i => trivial
    · obtain ⟨hfree, hm⟩ := threads_move_eq_none h prog hi
      rw [hP i hfree]
      cases m with
      | spawn j q => exact if_neg fun e => hm q (by rw [e])
      | go j => rfl

/-- The state that a trace leads to. -/
def replay (s : σ) (tr : List (Event S ι)) : σ := tr.foldl (fun s e => (h e.call s).2) s

omit [DecidableEq ι] in
@[simp] theorem replay_concat (s : σ) (tr : List (Event S ι)) (e : Event S ι) :
    replay h s (tr ++ [e]) = (h e.call (replay h s tr)).2 := by
  simp [replay]

omit [DecidableEq ι] in
/-- A call of a trace is an old one or the last. -/
theorem mem_concat {h : Handler S σ} {s : σ} {tr : List (Event S ι)} {i j : ι} {c c' : S.Call} {a : S.Ans c'}
    (hm : ⟨j, c', a⟩ ∈ tr ++ [⟨i, c, (h c s).1⟩]) : ⟨j, c', a⟩ ∈ tr ∨ (j = i ∧ c' = c ∧ a = (h c' s).1) := by
  rcases List.mem_append.1 hm with hold | hlast
  · exact .inl hold
  · cases List.mem_singleton.1 hlast
    exact .inr ⟨rfl, rfl, rfl⟩

/-- What a program has seen, by its own calls: `f` is what one more call tells. -/
def seen {β : Type} (f : β → Event S ι → β) (b : β) (tr : List (Event S ι)) (i : ι) : β :=
  tr.foldl (fun last e => if e.thread = i then f last e else last) b

theorem seen_concat {β : Type} (f : β → Event S ι → β) (b : β) (tr : List (Event S ι)) (e : Event S ι) :
    seen f b (tr ++ [e]) = Function.update (seen f b tr) e.thread (f (seen f b tr e.thread) e) := by
  funext i
  by_cases hi : i = e.thread
  · subst hi
    simp [seen]
  · simp [seen, Function.update_of_ne hi, if_neg (Ne.symm hi)]

/-! ## The invariant rule -/

section Invariant

variable {γ : Type} (T : Spec S γ) (Inv : (ι → Option γ) → σ → List (Event S ι) → Prop) (Q : α → γ → Prop)

/-- The ghost states `g` fit the pool: every program under way follows its specification from its ghost state, and the
invariant holds. -/
structure Fits (P : Pool S α ι σ) (g : ι → Option γ) : Prop where
  follows : ∀ i p, P.threads i = some p → ∃ gi, g i = some gi ∧ Prog.wp T p Q gi
  fresh : ∀ i, P.threads i = none → g i = none
  inv : Inv g P.state P.trace

variable {T Inv Q} {h prog} {adm : Pool S α ι σ → Move ι Req → Prop}

/-- What is asked of a start: the program follows its specification from some ghost state, and the invariant is kept. -/
def SpawnKeeps (prog : Req → Prog S α) (T : Spec S γ) (Inv : (ι → Option γ) → σ → List (Event S ι) → Prop)
    (Q : α → γ → Prop) (adm : Pool S α ι σ → Move ι Req → Prop) : Prop :=
  ∀ (P : Pool S α ι σ) (g : ι → Option γ) (i : ι) (q : Req), adm P (.spawn i q) → P.threads i = none →
    Fits T Inv Q P g → ∃ gi, Prog.wp T (prog q) Q gi ∧ Inv (Function.update g i (some gi)) P.state P.trace

/-- What is asked of a call: its answer is one the specification knows, and the invariant is kept. -/
def CallKeeps (h : Handler S σ) (T : Spec S γ) (Inv : (ι → Option γ) → σ → List (Event S ι) → Prop)
    (Q : α → γ → Prop) (adm : Pool S α ι σ → Move ι Req → Prop) : Prop :=
  ∀ (P : Pool S α ι σ) (g : ι → Option γ) (i : ι) (c : S.Call) (k : S.Ans c → Prog S α) (gi : γ),
    adm P (.go i) → P.threads i = some (.call c k) → g i = some gi → T.ok c gi → Fits T Inv Q P g →
    ∃ gi', T.can c gi (h c P.state).1 gi' ∧
      Inv (Function.update g i (some gi')) (h c P.state).2 (P.trace ++ [⟨i, c, (h c P.state).1⟩])

omit T Inv Q h prog adm in
/-- What holds of the new ghost state and of those of the other programs. -/
theorem forall_update_ne {g : ι → Option γ} {i : ι} {gi : γ} {R : ι → γ → Prop} (hi : R i gi)
    (hg : ∀ j gj, j ≠ i → g j = some gj → R j gj) : ∀ j gj, Function.update g i (some gi) j = some gj → R j gj := by
  intro j gj hj
  by_cases hji : j = i
  · subst hji
    rw [Function.update_self] at hj
    cases hj
    exact hi
  · rw [Function.update_of_ne hji] at hj
    exact hg j gj hji hj

omit T Inv Q h prog adm in
/-- What holds of the new ghost state and of the old ones. -/
theorem forall_update {g : ι → Option γ} {i : ι} {gi : γ} {R : ι → γ → Prop} (hi : R i gi)
    (hg : ∀ j gj, g j = some gj → R j gj) : ∀ j gj, Function.update g i (some gi) j = some gj → R j gj :=
  forall_update_ne hi fun j gj _ => hg j gj

omit T Inv Q h prog adm in
/-- A part of the ghost states changes only for the program that goes on. -/
theorem bind_update {β : Type} {g : ι → Option γ} {i : ι} {gi : γ} (f : γ → Option β) :
    (fun j => (Function.update g i (some gi) j).bind f) = Function.update (fun j => (g j).bind f) i (f gi) := by
  funext j
  by_cases hj : j = i
  · subst hj
    simp
  · simp [Function.update_of_ne hj]

omit T Inv Q h prog adm in
/-- A part of the ghost states does not change if it is the same for the program that goes on. -/
theorem bind_update_same {β : Type} {g : ι → Option γ} {i : ι} {gi : γ} {f : γ → Option β} (hf : f gi = (g i).bind f) :
    (fun j => (Function.update g i (some gi) j).bind f) = fun j => (g j).bind f := by
  rw [bind_update, hf]
  exact Function.update_eq_self_iff.2 rfl

/-- One program is somewhere else, with its new ghost state; the others stand where they stood. -/
theorem Fits.set {P : Pool S α ι σ} {g : ι → Option γ} {i : ι} {p : Prog S α} {gi : γ} {s : σ}
    {tr : List (Event S ι)} (hF : Fits T Inv Q P g) (hw : Prog.wp T p Q gi)
    (hI : Inv (Function.update g i (some gi)) s tr) :
    Fits T Inv Q ⟨Function.update P.threads i (some p), s, tr⟩ (Function.update g i (some gi)) := by
  refine ⟨fun j q hj => ?_, fun j hj => ?_, hI⟩
  all_goals dsimp only at hj
  · by_cases hji : j = i
    · subst hji
      rw [Function.update_self] at hj ⊢
      cases hj
      exact ⟨gi, rfl, hw⟩
    · rw [Function.update_of_ne hji] at hj ⊢
      exact hF.follows j q hj
  · by_cases hji : j = i
    · subst hji
      rw [Function.update_self] at hj
      cases hj
    · rw [Function.update_of_ne hji] at hj ⊢
      exact hF.fresh j hj

theorem Fits.move (hS : SpawnKeeps prog T Inv Q adm) (hC : CallKeeps h T Inv Q adm) {P : Pool S α ι σ}
    {g : ι → Option γ} {m : Move ι Req} (hm : adm P m) (hF : Fits T Inv Q P g) :
    ∃ g', Fits T Inv Q (Pool.move h prog P m) g' := by
  cases m with
  | spawn i q =>
    cases hi : P.threads i with
    | some p => exact ⟨g, by simpa [Pool.move, hi] using hF⟩
    | none =>
      obtain ⟨gi, hw, hI⟩ := hS P g i q hm hi hF
      simp only [Pool.move, hi]
      exact ⟨_, hF.set hw hI⟩
  | go i =>
    cases hi : P.threads i with
    | none => exact ⟨g, by simpa [Pool.move, hi] using hF⟩
    | some p =>
      cases p with
      | ret a => exact ⟨g, by simpa [Pool.move, hi] using hF⟩
      | call c k =>
        obtain ⟨gi, hgi, hw⟩ := hF.follows i _ hi
        obtain ⟨hok, hw⟩ := Prog.wp_call.1 hw
        obtain ⟨gi', hcan, hI⟩ := hC P g i c k gi hm hi hgi hok hF
        simp only [Pool.move, hi]
        exact ⟨_, hF.set (hw _ _ hcan) hI⟩

/-- The invariant holds in every pool that an admitted schedule reaches. -/
theorem invariant (hS : SpawnKeeps prog T Inv Q adm) (hC : CallKeeps h T Inv Q adm) {P : Pool S α ι σ}
    {g : ι → Option γ} (hF : Fits T Inv Q P g) (ms : List (Move ι Req)) (hA : Admits h prog adm P ms) :
    ∃ g', Fits T Inv Q (exec h prog P ms) g' := by
  induction ms generalizing P g with
  | nil => exact ⟨g, hF⟩
  | cons m ms ih =>
    obtain ⟨g', hF'⟩ := hF.move hS hC hA.1
    exact ih hF' hA.2

/-- What the invariant gives at each move holds at every move of an admitted schedule. -/
theorem admits_of_fits (hS : SpawnKeeps prog T Inv Q adm) (hC : CallKeeps h T Inv Q adm)
    {adm' : Pool S α ι σ → Move ι Req → Prop} (hadm : ∀ P g m, adm P m → Fits T Inv Q P g → adm' P m) {P : Pool S α ι σ}
    {g : ι → Option γ} (hF : Fits T Inv Q P g) (ms : List (Move ι Req)) (hA : Admits h prog adm P ms) :
    Admits h prog adm' P ms := by
  induction ms generalizing P g with
  | nil => trivial
  | cons m ms ih =>
    obtain ⟨g', hF'⟩ := hF.move hS hC hA.1
    exact ⟨hadm P g m hA.1 hF, ih hF' hA.2⟩

omit [DecidableEq ι] in
/-- At the start there is nothing to fit. -/
theorem fits_init {s : σ} (hI : Inv (fun _ => none) s []) : Fits T Inv Q (init s) fun _ => none :=
  ⟨fun _ _ e => by (cases e), fun _ _ => rfl, hI⟩

end Invariant

end Pool

end Calls
