import PingoraMesh.Lib.Pool

/-!
# Programs that remember their calls

Whether a call may be made can depend on the calls that its program has made before and on their answers.

* `Spec.remembering` is the specification of such a condition, over the list of a program's own calls;
* `Prog.wp_always` is the rule for a program whose calls are all allowed from some point on, and `Only.wp_unmade` the
  one for calls that it never makes;
* `Pool.move_cases` says what a move can do, and `Pool.admits_invariant` is the rule for an invariant that admitted
  moves keep;
* `Pool.at_event` goes back from a call of the trace to the state in which it was made, and `Pool.exec_state` reads the
  state off the trace;
* `Pool.own` lists the calls of one program in a trace; `Pool.admits_remembered` says that in every schedule each call
  meets the condition of its program (`Pool.event_remembered` of those in the trace), and `Pool.result_remembered` what
  holds of the calls of a program that has returned.
-/

namespace Calls

/-- A call that was made, with its answer. -/
structure Made (S : Sig) where
  call : S.Call
  ans : S.Ans call

/-- `ok q l` says which calls the program of a request `q` may make after those in `l`. -/
abbrev Spec.remembering {S : Sig} {Req : Type} (ok : Req → List (Made S) → S.Call → Prop) :
    Spec S (Req × List (Made S)) :=
  .protocol (fun c g => ok g.1 g.2 c) fun c r g => (g.1, g.2 ++ [⟨c, r⟩])

variable {S : Sig} {α ε : Type}

/-- What allows every call and is kept by every answer holds at the end of any program. -/
theorem Prog.wp_always {γ : Type} {T : Spec S γ} {I : γ → Prop} (hok : ∀ c g, I g → T.ok c g)
    (hkeep : ∀ c g r g', T.can c g r g' → I g → I g') (p : Prog S α) {g : γ} (hg : I g) :
      Prog.wp T p (fun _ g' => I g') g := by
  induction p generalizing g with
  | ret a => exact (Prog.wp_ret a).2 hg
  | call c k ih => exact Prog.wp_call.2 ⟨hok c g hg, fun r g' hcan => ih r (hkeep c g r g' hcan hg)⟩

/-- As `Prog.wp_always`, for a program that may stop with an error. -/
theorem Fallible.wp_always {γ : Type} {T : Spec S γ} {I : γ → Prop} (hok : ∀ c g, I g → T.ok c g)
    (hkeep : ∀ c g r g', T.can c g r g' → I g → I g') (x : Fallible S ε α) {g : γ} (hg : I g) :
    Fallible.wp T x (fun _ g' => I g') (fun _ g' => I g') g := by
  refine Fallible.wp_iff_run.2 (Prog.wp_mono (fun r g' h => ?_) (Prog.wp_always hok hkeep _ hg))
  cases r with
  | error e => exact h
  | ok a => exact h

/-- The request stays the same. -/
theorem Prog.wp_remembering {Req : Type} {ok : Req → List (Made S) → S.Call → Prop} {p : Prog S α}
    {Q : α → Req × List (Made S) → Prop} {q : Req} {l : List (Made S)} (hw : Prog.wp (.remembering ok) p Q (q, l)) :
    Prog.wp (.remembering ok) p (fun a g => Q a g ∧ g.1 = q) (q, l) := by
  refine Prog.wp_keep (R := fun g => g.1 = q) ?_ hw rfl
  rintro c g r _ rfl hg
  exact hg

/-- None of the calls is one of those. -/
def Unmade (K : S.Call → Prop) (l : List (Made S)) : Prop := ∀ m ∈ l, ¬ K m.call

theorem Unmade.nil {K : S.Call → Prop} : Unmade K ([] : List (Made S)) := fun _ hm => absurd hm List.not_mem_nil

theorem Unmade.concat {K : S.Call → Prop} {l : List (Made S)} (h : Unmade K l) {c : S.Call} (hc : ¬ K c) (r : S.Ans c) :
    Unmade K (l ++ [⟨c, r⟩]) := by
  intro m hm
  rcases List.mem_append.1 hm with hm | hm
  · exact h m hm
  · rw [List.mem_singleton.1 hm]
    exact hc

/-- What a program does not call has not been made after it either. -/
theorem Fallible.Only.wp_unmade {Req : Type} {ok : Req → List (Made S) → S.Call → Prop} {K L : S.Call → Prop}
    {x : Fallible S ε α} (hx : x.Only L) (hok : ∀ q l c, L c → ok q l c) (hK : ∀ c, L c → ¬ K c) {q : Req}
    {l : List (Made S)} (hl : Unmade K l) :
    Fallible.wp (.remembering ok) x (fun _ g => Unmade K g.2) (fun _ g => Unmade K g.2) (q, l) := by
  refine hx.wp (I := fun g : Req × List (Made S) => Unmade K g.2) (fun c g hc _ => hok g.1 g.2 c hc) ?_ hl
  rintro c g r _ hc hg rfl
  exact hg.concat (hK c hc) r

namespace Pool

variable {ι σ Req : Type} [DecidableEq ι]

theorem admits_mono {h : Handler S σ} {prog : Req → Prog S α} {adm adm' : Pool S α ι σ → Move ι Req → Prop}
    (himp : ∀ P m, adm P m → adm' P m) {P : Pool S α ι σ} {ms : List (Move ι Req)} (hA : Admits h prog adm P ms) :
    Admits h prog adm' P ms :=
  (admits_iff h prog).2 fun pre m hp => himp _ m ((admits_iff h prog).1 hA pre m hp)

/-- A move leaves state and trace, or makes the next call of a program. -/
theorem move_cases (h : Handler S σ) (prog : Req → Prog S α) (P : Pool S α ι σ) (m : Move ι Req) :
    ((move h prog P m).state = P.state ∧ (move h prog P m).trace = P.trace) ∨
      ∃ i c, m = .go i ∧ c ∈ P.next i ∧ (move h prog P m).state = (h c P.state).2 ∧
        (move h prog P m).trace = P.trace ++ [⟨i, c, (h c P.state).1⟩] := by
  cases m with
  | spawn i q => cases hi : P.threads i <;> simp [move, hi]
  | go i =>
    cases hi : P.threads i with
    | none => simp [move, hi]
    | some p =>
      cases p with
      | ret a => simp [move, hi]
      | call c k => exact .inr ⟨i, c, rfl, next_eq hi, by simp [move, hi], by simp [move, hi]⟩

/-- The state is the one that the trace leads to. -/
theorem exec_state (h : Handler S σ) (prog : Req → Prog S α) (s : σ) (ms : List (Move ι Req)) :
    (exec h prog (init s) ms).state = replay h s (exec h prog (init s) ms).trace := by
  induction ms using List.reverseRecOn with
  | nil => rfl
  | append_singleton ms m ih =>
    rw [exec_append, exec_cons, exec_nil]
    rcases move_cases h prog (exec h prog (init s) ms) m with ⟨hstate, htrace⟩ | ⟨i, c, -, -, hstate, htrace⟩
    · rw [hstate, htrace, ih]
    · rw [hstate, htrace, replay_concat, ih]

/-- What each admitted move keeps holds at all of them. -/
theorem admits_invariant {h : Handler S σ} {prog : Req → Prog S α} {I : Pool S α ι σ → Prop}
    {adm : Pool S α ι σ → Move ι Req → Prop} (hI : ∀ P m, I P → adm P m → I (move h prog P m)) {P : Pool S α ι σ}
    (hP : I P) {ms : List (Move ι Req)} (hA : Admits h prog adm P ms) : Admits h prog (fun P _ => I P) P ms := by
  induction ms generalizing P with
  | nil => trivial
  | cons m ms ih => exact ⟨hP, ih (hI P m hP hA.1) hA.2⟩

/-- As `admits_invariant`, for the end of the schedule. -/
theorem exec_invariant {h : Handler S σ} {prog : Req → Prog S α} {I : Pool S α ι σ → Prop}
    {adm : Pool S α ι σ → Move ι Req → Prop} (hI : ∀ P m, I P → adm P m → I (move h prog P m)) {P : Pool S α ι σ}
    (hP : I P) {ms : List (Move ι Req)} (hA : Admits h prog adm P ms) : I (exec h prog P ms) := by
  induction ms generalizing P with
  | nil => exact hP
  | cons m ms ih => exact ih (hI P m hP hA.1) hA.2

/-- The calls of one program. -/
def own (tr : List (Event S ι)) (i : ι) : List (Made S) :=
  tr.filterMap fun e => if e.thread = i then some ⟨e.call, e.ans⟩ else none

@[simp] theorem own_nil (i : ι) : own ([] : List (Event S ι)) i = [] := rfl

theorem own_concat_self (tr : List (Event S ι)) (i : ι) (c : S.Call) (r : S.Ans c) :
    own (tr ++ [⟨i, c, r⟩]) i = own tr i ++ [⟨c, r⟩] := by
  simp [own]

theorem own_concat_ne (tr : List (Event S ι)) {i j : ι} (h : i ≠ j) (c : S.Call) (r : S.Ans c) :
    own (tr ++ [⟨i, c, r⟩]) j = own tr j := by
  simp [own, h]

theorem mem_own {tr : List (Event S ι)} {i : ι} {c : S.Call} {r : S.Ans c} : ⟨c, r⟩ ∈ own tr i ↔ ⟨i, c, r⟩ ∈ tr := by
  simp only [own, List.mem_filterMap, Option.ite_none_right_eq_some, Option.some.injEq]
  constructor
  · rintro ⟨⟨j, c', r'⟩, he, hj, heq⟩
    cases hj
    cases heq
    exact he
  · intro he
    exact ⟨_, he, rfl, rfl⟩

theorem own_append (tr tr' : List (Event S ι)) (i : ι) : own (tr ++ tr') i = own tr i ++ own tr' i :=
  List.filterMap_append

theorem own_cons_self (i : ι) (c : S.Call) (r : S.Ans c) (tr : List (Event S ι)) :
    own (⟨i, c, r⟩ :: tr) i = ⟨c, r⟩ :: own tr i := by
  simp [own]

theorem own_cons_ne {i j : ι} (h : j ≠ i) (c : S.Call) (r : S.Ans c) (tr : List (Event S ι)) :
    own (⟨j, c, r⟩ :: tr) i = own tr i := by
  simp [own, h]

theorem trace_prefix (h : Handler S σ) (prog : Req → Prog S α) (P : Pool S α ι σ) (ms : List (Move ι Req)) :
    P.trace <+: (exec h prog P ms).trace := by
  induction ms generalizing P with
  | nil => exact List.prefix_rfl
  | cons m ms ih =>
    refine List.IsPrefix.trans ?_ (ih (move h prog P m))
    rcases move_cases h prog P m with ⟨-, htrace⟩ | ⟨i, c, -, -, -, htrace⟩
    · rw [htrace]
    · rw [htrace]
      exact List.prefix_append _ _

/-- A call of the trace was made, and answered, at a state of the run. -/
theorem at_event {h : Handler S σ} {prog : Req → Prog S α} {P : Pool S α ι σ} {ms : List (Move ι Req)}
    {mid rest : List (Event S ι)} {e : Event S ι} (htr : (exec h prog P ms).trace = mid ++ e :: rest)
    (hP : P.trace.length ≤ mid.length) :
    ∃ before, before ++ [.go e.thread] <+: ms ∧ (exec h prog P before).trace = mid ∧
      e.call ∈ (exec h prog P before).next e.thread ∧ e.ans = (h e.call (exec h prog P before).state).1 := by
  induction ms using List.reverseRecOn generalizing rest with
  | nil =>
    have hlength := congrArg List.length htr
    simp only [exec_nil, List.length_append, List.length_cons] at hlength
    omega
  | append_singleton ms m ih =>
    rw [exec_append] at htr
    rcases move_cases h prog (exec h prog P ms) m with ⟨-, htrace⟩ | ⟨i, c, rfl, hc, -, htrace⟩
    · obtain ⟨before, hbefore, hmid⟩ := ih (htrace.symm.trans htr)
      exact ⟨before, hbefore.trans (List.prefix_append ms [m]), hmid⟩
    · have hsplit := htrace.symm.trans htr
      rcases List.eq_nil_or_concat rest with rfl | ⟨rest', last, rfl⟩
      · obtain ⟨hmid, hlast⟩ := List.append_inj' hsplit rfl
        obtain rfl := List.singleton_inj.1 hlast
        exact ⟨ms, List.prefix_rfl, hmid, hc, rfl⟩
      · rw [List.concat_eq_append, ← List.cons_append, ← List.append_assoc] at hsplit
        obtain ⟨hold, -⟩ := List.append_inj' hsplit rfl
        obtain ⟨before, hbefore, hmid⟩ := ih hold
        exact ⟨before, hbefore.trans (List.prefix_append ms _), hmid⟩

/-- Who has not started has made no calls. -/
theorem own_of_unborn {h : Handler S σ} {prog : Req → Prog S α} {P : Pool S α ι σ}
    (hP : ∀ i, P.threads i = none → own P.trace i = []) (ms : List (Move ι Req)) {i : ι}
    (hi : (exec h prog P ms).threads i = none) : own (exec h prog P ms).trace i = [] := by
  induction ms generalizing P with
  | nil => exact hP i hi
  | cons m ms ih =>
    refine ih (fun j hj => ?_) hi
    cases m with
    | spawn k q =>
      cases hk : P.threads k with
      | some _ => simpa [move, hk] using hP j (by simpa [move, hk] using hj)
      | none =>
        by_cases hjk : j = k
        · subst hjk
          simp [move, hk] at hj
        · simpa [move, hk] using hP j (by simpa [move, hk, Function.update_of_ne hjk] using hj)
    | go k =>
      cases hk : P.threads k with
      | none => simpa [move, hk] using hP j (by simpa [move, hk] using hj)
      | some p =>
        cases p with
        | ret a => simpa [move, hk] using hP j (by simpa [move, hk] using hj)
        | call c next =>
          by_cases hjk : j = k
          · subst hjk
            simp [move, hk] at hj
          · have hj' : P.threads j = none := by simpa [move, hk, Function.update_of_ne hjk] using hj
            simp only [move, hk]
            rw [own_concat_ne _ (Ne.symm hjk)]
            exact hP j hj'

/-- Every program that has started stands for a request and knows its own calls; the others have made none. -/
structure Remembers (ms : List (Move ι Req)) (g : ι → Option (Req × List (Made S))) (tr : List (Event S ι)) : Prop where
  asked : ∀ i gi, g i = some gi → asked ms i = some gi.1 ∧ gi.2 = own tr i
  unborn : ∀ i, g i = none → own tr i = []

variable {ok : Req → List (Made S) → S.Call → Prop} {h : Handler S σ} {prog : Req → Prog S α}
  {Q : α → Req × List (Made S) → Prop} {ms : List (Move ι Req)}

theorem Remembers.spawn {g : ι → Option (Req × List (Made S))} {tr : List (Event S ι)} (hg : Remembers ms g tr) {i : ι}
    (hi : g i = none) {q : Req} (hq : Pool.asked ms i = some q) :
    Remembers ms (Function.update g i (some (q, []))) tr := by
  refine ⟨forall_update ⟨hq, (hg.unborn i hi).symm⟩ hg.asked, fun j hj => ?_⟩
  by_cases hji : j = i
  · subst hji
    exact hg.unborn j hi
  · rw [Function.update_of_ne hji] at hj
    exact hg.unborn j hj

theorem Remembers.call {g : ι → Option (Req × List (Made S))} {tr : List (Event S ι)} (hg : Remembers ms g tr) {i : ι}
    {gi : Req × List (Made S)} (hi : g i = some gi) (c : S.Call) (r : S.Ans c) :
    Remembers ms (Function.update g i (some (gi.1, gi.2 ++ [⟨c, r⟩]))) (tr ++ [⟨i, c, r⟩]) := by
  obtain ⟨hasked, hown⟩ := hg.asked i gi hi
  constructor
  · refine forall_update_ne ⟨hasked, ?_⟩ fun j gj hji hj => ?_
    · rw [own_concat_self, hown]
    · rw [own_concat_ne tr (Ne.symm hji)]
      exact hg.asked j gj hj
  · intro j hj
    by_cases hji : j = i
    · subst hji
      rw [Function.update_self] at hj
      cases hj
    · rw [Function.update_of_ne hji] at hj
      rw [own_concat_ne tr (Ne.symm hji)]
      exact hg.unborn j hj

theorem spawn_remembers (hprog : ∀ q, Prog.wp (.remembering ok) (prog q) Q (q, [])) :
    SpawnKeeps prog (.remembering ok) (fun g (_ : σ) tr => Remembers ms g tr) Q (AsAsked ms) := by
  intro P g i q hadm hi hF
  exact ⟨(q, []), hprog q, hF.inv.spawn (hF.fresh i hi) (hadm hi)⟩

theorem call_remembers :
    CallKeeps h (.remembering ok) (fun g (_ : σ) tr => Remembers ms g tr) Q (AsAsked ms) := by
  intro P g i c k gi _ _ hgi _ hF
  exact ⟨_, rfl, hF.inv.call hgi c _⟩

/-- In every schedule each call meets the condition of its program. -/
theorem admits_remembered (hprog : ∀ q, Prog.wp (.remembering ok) (prog q) Q (q, [])) (s : σ) (ms : List (Move ι Req)) :
    Admits h prog (fun P m => ∀ i, m = .go i → ∀ c ∈ P.next i, ∃ q, asked ms i = some q ∧
      ok q (own P.trace i) c) (init s) ms := by
  refine admits_of_fits (spawn_remembers hprog) call_remembers (fun P g m _ hF => ?_)
    (fits_init ⟨fun _ _ e => by (cases e), fun _ _ => rfl⟩) ms (admits_asked h prog s ms)
  rintro i rfl c hc
  unfold next at hc
  split at hc
  · rename_i c' k hthread
    cases hc
    obtain ⟨gi, hgi, hw⟩ := hF.follows i _ hthread
    obtain ⟨hasked, hown⟩ := hF.inv.asked i gi hgi
    refine ⟨gi.1, hasked, ?_⟩
    rw [← hown]
    exact (Prog.wp_call.1 hw).1
  · cases hc

/-- As `admits_remembered`, for a call of the trace. -/
theorem event_remembered (hprog : ∀ q, Prog.wp (.remembering ok) (prog q) Q (q, [])) (s : σ) (ms : List (Move ι Req))
    {mid rest : List (Event S ι)} {e : Event S ι} (htr : (exec h prog (init s) ms).trace = mid ++ e :: rest) :
    ∃ q, asked ms e.thread = some q ∧ ok q (own mid e.thread) e.call := by
  obtain ⟨before, hbefore, hmid, hnext, -⟩ := at_event htr (Nat.zero_le _)
  have hadmits := (admits_iff h prog).1 (admits_remembered (h := h) hprog s ms) before (.go e.thread) hbefore
  obtain ⟨q, hq, hok⟩ := hadmits e.thread rfl e.call hnext
  rw [hmid] at hok
  exact ⟨q, hq, hok⟩

/-- What a program that has returned has made sure of. -/
theorem result_remembered (hprog : ∀ q, Prog.wp (.remembering ok) (prog q) Q (q, [])) (s : σ) (ms : List (Move ι Req))
    {i : ι} {a : α} (ha : (exec h prog (init s) ms).result i = some a) :
    ∃ q, asked ms i = some q ∧ Q a (q, own (exec h prog (init s) ms).trace i) := by
  obtain ⟨g, hF⟩ := invariant (spawn_remembers hprog) (call_remembers (h := h))
    (fits_init (s := s) ⟨fun _ _ e => by (cases e), fun _ _ => rfl⟩) ms (admits_asked h prog s ms)
  obtain ⟨gi, hgi, hw⟩ := hF.follows i _ (threads_of_result ha)
  obtain ⟨hasked, hown⟩ := hF.inv.asked i gi hgi
  refine ⟨gi.1, hasked, ?_⟩
  rw [← hown]
  exact (Prog.wp_ret a).1 hw

end Pool

end Calls
