import PingoraMesh.Lib.Text

/-!
# Templates

A template is a text with holes: keys between doubled braces. A key without braces makes holes that never overlap, so a
template is a row of characters and holes (`pieces`), and filling some of the holes at once is one pass over the row
(`fill`). Text that is filled in may complete a hole that was not there.

* `fill_pieces`: a template is what is left when nothing is filled in;
* `replaceChars_fill`: replacing a hole in a filled text fills the holes of that key, as long as the text has no other
  holes of it than the template;
* `occurrences_fill_mono`: a hole that was completed stays, whatever else is filled in.
-/

namespace Template

open Text

/-! ## Holes -/

/-- A key without braces. -/
def Plain (key : List Char) : Prop := '{' ∉ key ∧ '}' ∉ key

/-- The hole of a key. -/
def hole (key : List Char) : List Char := '{' :: '{' :: (key ++ ['}', '}'])

/-- The key of the hole that a text starts with. -/
def holeAt : List Char → Option (List Char)
  | '{' :: '{' :: cs =>
    let key := cs.takeWhile fun c => c != '{' && c != '}'
    if ['}', '}'].isPrefixOf (cs.drop key.length) then some key else none
  | _ => none

/-- How often a pattern occurs in a text. -/
def occurrences (pat : List Char) : List Char → Nat
  | [] => 0
  | c :: cs => (if pat.isPrefixOf (c :: cs) then 1 else 0) + occurrences pat cs

section Holes

variable {key key' cs rest : List Char}

/-- The characters before the first brace. -/
theorem takeWhile_plain (h : Plain key) (b : Char) (hb : b = '{' ∨ b = '}') :
    (key ++ b :: rest).takeWhile (fun c => c != '{' && c != '}') = key := by
  induction key with
  | nil =>
    rcases hb with rfl | rfl
    · rfl
    · rfl
  | cons c key ih =>
    have hc : c ≠ '{' ∧ c ≠ '}' := by
      constructor
      · rintro rfl
        exact h.1 List.mem_cons_self
      · rintro rfl
        exact h.2 List.mem_cons_self
    have hkey : Plain key := ⟨fun hm => h.1 (List.mem_cons_of_mem c hm), fun hm => h.2 (List.mem_cons_of_mem c hm)⟩
    rw [List.cons_append, List.takeWhile_cons_of_pos (by simp [hc]), ih hkey]

/-- A text starts with the hole of at most one key without braces. -/
theorem holeAt_eq_some : holeAt cs = some key ↔ Plain key ∧ hole key <+: cs := by
  constructor
  · intro h
    unfold holeAt at h
    split at h
    · rename_i cs
      dsimp only at h
      split at h
      · rename_i hend
        cases h
        have hplain : ∀ c ∈ cs.takeWhile (fun c => c != '{' && c != '}'), c ≠ '{' ∧ c ≠ '}' := fun c hc => by
          simpa using List.mem_takeWhile_imp hc
        obtain ⟨tail, htail⟩ := List.takeWhile_prefix (l := cs) fun c => c != '{' && c != '}'
        generalize cs.takeWhile (fun c => c != '{' && c != '}') = key at hend hplain htail
        subst htail
        rw [List.drop_left] at hend
        obtain ⟨rest, rfl⟩ := List.isPrefixOf_iff_prefix.1 hend
        exact ⟨⟨fun hm => (hplain _ hm).1 rfl, fun hm => (hplain _ hm).2 rfl⟩, rest, by simp [hole]⟩
      · cases h
    · cases h
  · rintro ⟨hplain, rest, rfl⟩
    have htake : (key ++ '}' :: '}' :: rest).takeWhile (fun c => c != '{' && c != '}') = key :=
      takeWhile_plain hplain '}' (.inr rfl)
    have hshape : hole key ++ rest = '{' :: '{' :: (key ++ '}' :: '}' :: rest) := by simp [hole]
    rw [hshape, holeAt]
    simp [htake]

/-- The hole of a key does not start inside the hole of another. -/
theorem not_hole_prefix_inside (hplain' : Plain key') {b : List Char} (hb : b ≠ [])
    (hsuf : b <:+ '{' :: (key' ++ ['}', '}'])) : ¬ hole key <+: b ++ rest := by
  rintro ⟨t, ht⟩
  rcases List.suffix_cons_iff.1 hsuf with rfl | hsuf
  · -- the brace before the key is followed by the key
    cases key' with
    | nil => simp [hole] at ht
    | cons c key' =>
      simp only [hole, List.cons_append, List.cons.injEq] at ht
      exact hplain'.1 (by simp [← ht.2.1])
  · obtain ⟨c, b, rfl⟩ := List.exists_cons_of_ne_nil hb
    simp only [hole, List.cons_append, List.cons.injEq] at ht
    have hc : c ∈ key' ++ ['}', '}'] := hsuf.subset List.mem_cons_self
    rw [← ht.1] at hc
    simp only [List.mem_append, List.mem_cons, List.not_mem_nil, or_false] at hc
    rcases hc with hc | hc | hc
    · exact hplain'.1 hc
    · cases hc
    · cases hc

/-- What is left of a hole, after its first characters, is not how another hole begins. -/
theorem not_rest_prefix_hole (hplain : Plain key) {b : List Char} (hb : b ≠ [])
    (hsuf : b <:+ '{' :: (key ++ ['}', '}'])) : ¬ b <+: hole key' ++ rest := by
  rintro ⟨t, ht⟩
  rcases List.suffix_cons_iff.1 hsuf with rfl | hsuf
  · cases key with
    | nil => simp [hole] at ht
    | cons c key =>
      simp only [hole, List.cons_append, List.cons.injEq] at ht
      exact hplain.1 (by simp [ht.2.1])
  · obtain ⟨c, b, rfl⟩ := List.exists_cons_of_ne_nil hb
    simp only [hole, List.cons_append, List.cons.injEq] at ht
    have hc : c ∈ key ++ ['}', '}'] := hsuf.subset List.mem_cons_self
    rw [ht.1] at hc
    simp only [List.mem_append, List.mem_cons, List.not_mem_nil, or_false] at hc
    rcases hc with hc | hc | hc
    · exact hplain.1 hc
    · cases hc
    · cases hc

end Holes

/-! ## Occurrences -/

section Occurrences

variable {pat rep w rest : List Char}

theorem occurrences_le_append (pat w rest : List Char) : occurrences pat rest ≤ occurrences pat (w ++ rest) := by
  induction w with
  | nil => exact Nat.le_refl _
  | cons c w ih =>
    rw [List.cons_append, occurrences]
    omega

/-- A text in which the pattern does not begin is passed over. -/
theorem occurrences_append (h : ∀ b, b ≠ [] → b <:+ w → ¬ pat <+: b ++ rest) :
    occurrences pat (w ++ rest) = occurrences pat rest := by
  induction w with
  | nil => rfl
  | cons c w ih =>
    have hhead : ¬ pat.isPrefixOf (c :: (w ++ rest)) = true := fun hp =>
      h (c :: w) (by simp) List.suffix_rfl (List.isPrefixOf_iff_prefix.1 hp)
    rw [List.cons_append, occurrences, if_neg hhead, ih fun b hb hsuf => h b hb (hsuf.trans (List.suffix_cons c w))]
    omega

/-- The pattern does not begin in a text that has no occurrences of its own. -/
theorem not_prefix_of_occurrences (h : occurrences pat (w ++ rest) = occurrences pat rest) :
    ∀ b, b ≠ [] → b <:+ w → ¬ pat <+: b ++ rest := by
  induction w with
  | nil =>
    intro b hb hsuf
    exact absurd (List.suffix_nil.1 hsuf) hb
  | cons c w ih =>
    have hle := occurrences_le_append pat w rest
    rw [List.cons_append, occurrences] at h
    intro b hb hsuf hp
    rcases List.suffix_cons_iff.1 hsuf with rfl | hsuf
    · have hhead : pat.isPrefixOf (c :: (w ++ rest)) = true := List.isPrefixOf_iff_prefix.2 hp
      rw [if_pos hhead] at h
      omega
    · exact ih (by omega) b hb hsuf hp

theorem replaceChars_append (h : ∀ b, b ≠ [] → b <:+ w → ¬ pat <+: b ++ rest) :
    replaceChars pat rep 0 (w ++ rest) = w ++ replaceChars pat rep 0 rest := by
  induction w with
  | nil => rfl
  | cons c w ih =>
    have hhead : ¬ pat.isPrefixOf (c :: (w ++ rest)) = true := fun hp =>
      h (c :: w) (by simp) List.suffix_rfl (List.isPrefixOf_iff_prefix.1 hp)
    rw [List.cons_append, replaceChars, if_neg hhead, ih fun b hb hsuf => h b hb (hsuf.trans (List.suffix_cons c w)),
      List.cons_append]

theorem replaceChars_skip (n : Nat) (cs : List Char) :
    replaceChars pat rep n cs = replaceChars pat rep 0 (cs.drop n) := by
  induction n generalizing cs with
  | zero => rfl
  | succ n ih =>
    cases cs with
    | nil => rfl
    | cons c cs => rw [replaceChars, ih, List.drop_succ_cons]

/-- The pattern itself is replaced. -/
theorem replaceChars_self (hpat : pat ≠ []) :
    replaceChars pat rep 0 (pat ++ rest) = rep ++ replaceChars pat rep 0 rest := by
  obtain ⟨c, cs, rfl⟩ := List.exists_cons_of_ne_nil hpat
  have hhead : (c :: cs).isPrefixOf (c :: (cs ++ rest)) = true :=
    List.isPrefixOf_iff_prefix.2 ⟨rest, by simp⟩
  rw [List.cons_append, replaceChars, if_pos hhead, replaceChars_skip]
  simp

theorem occurrences_pos_iff {cs : List Char} (hpat : pat ≠ []) :
    0 < occurrences pat cs ↔ (cs.tails.any fun t => pat.isPrefixOf t) = true := by
  induction cs with
  | nil => cases pat <;> simp_all [occurrences]
  | cons c cs ih =>
    rw [occurrences, List.tails_cons, List.any_cons, Bool.or_eq_true, ← ih]
    split
    · simp_all
    · simp_all

end Occurrences

section HoleOccurrences

variable {key key' rest : List Char}

theorem hole_ne_nil (key : List Char) : hole key ≠ [] := by simp [hole]

/-- A hole has one occurrence of a hole. -/
theorem occurrences_hole (hplain : Plain key) (hplain' : Plain key') :
    occurrences (hole key) (hole key' ++ rest) = (if key = key' then 1 else 0) + occurrences (hole key) rest := by
  have hinside : occurrences (hole key) (('{' :: (key' ++ ['}', '}'])) ++ rest) = occurrences (hole key) rest :=
    occurrences_append fun b hb hsuf => not_hole_prefix_inside hplain' hb hsuf
  have hshape : hole key' ++ rest = '{' :: (('{' :: (key' ++ ['}', '}'])) ++ rest) := by simp [hole]
  have hhead : (hole key).isPrefixOf (hole key' ++ rest) = true ↔ key = key' := by
    rw [List.isPrefixOf_iff_prefix]
    constructor
    · intro hp
      have h1 := holeAt_eq_some.2 ⟨hplain, hp⟩
      have h2 := holeAt_eq_some.2 ⟨hplain', List.prefix_append (hole key') rest⟩
      exact Option.some.inj (h1.symm.trans h2)
    · rintro rfl
      exact List.prefix_append _ _
  rw [hshape] at hhead ⊢
  rw [occurrences, hinside]
  by_cases h : key = key'
  · rw [if_pos (hhead.2 h), if_pos h]
  · rw [if_neg fun hp => h (hhead.1 hp), if_neg h]

/-- The hole of another key is passed over. -/
theorem replaceChars_hole (hplain : Plain key) (hplain' : Plain key') (hne : key ≠ key') (rep : List Char) :
    replaceChars (hole key) rep 0 (hole key' ++ rest) = hole key' ++ replaceChars (hole key) rep 0 rest := by
  apply replaceChars_append
  refine not_prefix_of_occurrences ?_
  rw [occurrences_hole hplain hplain', if_neg hne, Nat.zero_add]

end HoleOccurrences

/-! ## Pieces -/

/-- A character, or a hole. -/
inductive Piece where
  | char (c : Char)
  | hole (key : List Char)
  deriving DecidableEq, Repr

/-- The pieces of a template; `skip` characters are still part of the last hole. -/
def pieces : Nat → List Char → List Piece
  | _, [] => []
  | skip + 1, _ :: cs => pieces skip cs
  | 0, c :: cs =>
    match holeAt (c :: cs) with
    | some key => .hole key :: pieces ((hole key).length - 1) cs
    | none => .char c :: pieces 0 cs

/-- The text of a piece: a hole that is not filled stays as it is. -/
def Piece.text (value : List Char → Option (List Char)) : Piece → List Char
  | .char c => [c]
  | .hole key => (value key).getD (Template.hole key)

/-- The pieces, with the holes that have a value filled in. -/
def fill (value : List Char → Option (List Char)) (ps : List Piece) : List Char := ps.flatMap (Piece.text value)

/-- The holes of a key that are left. -/
def left (value : List Char → Option (List Char)) (key : List Char) (ps : List Piece) : Nat :=
  if value key = none then ps.count (.hole key) else 0

/-- Every key is without braces. -/
def PlainPieces (ps : List Piece) : Prop := ∀ key, .hole key ∈ ps → Plain key

theorem pieces_skip (n : Nat) (cs : List Char) : pieces n cs = pieces 0 (cs.drop n) := by
  induction n generalizing cs with
  | zero => rfl
  | succ n ih =>
    cases cs with
    | nil => rfl
    | cons c cs => rw [pieces, ih, List.drop_succ_cons]

/-- A rule for what is true of every text, from the pieces of its rest. -/
theorem pieces_induct {motive : List Char → List Piece → Prop} (hnil : motive [] [])
    (hhole : ∀ key rest, Plain key → motive rest (pieces 0 rest) → motive (hole key ++ rest)
      (.hole key :: pieces 0 rest))
    (hchar : ∀ c rest, (∀ key, Plain key → ¬ hole key <+: c :: rest) → motive rest (pieces 0 rest) →
      motive (c :: rest) (.char c :: pieces 0 rest)) (cs : List Char) : motive cs (pieces 0 cs) := by
  induction h : cs.length using Nat.strong_induction_on generalizing cs with
  | _ n ih =>
    cases cs with
    | nil => exact hnil
    | cons c cs =>
      rw [pieces]
      split
      · rename_i key hkey
        obtain ⟨hplain, rest, hrest⟩ := holeAt_eq_some.1 hkey
        have hdrop : cs.drop ((hole key).length - 1) = rest := by
          have hdrop := congrArg (List.drop (hole key).length) hrest
          rw [List.drop_left] at hdrop
          rw [hdrop]
          rfl
        have hlen : rest.length < n := by
          have hlen := congrArg List.length hrest
          have hpos := List.length_pos_iff.2 (hole_ne_nil key)
          rw [List.length_append] at hlen
          omega
        rw [pieces_skip, hdrop, ← hrest]
        exact hhole key rest hplain (ih _ hlen rest rfl)
      · rename_i hnone
        refine hchar c cs (fun key hplain hp => ?_) (ih _ (by simp at h; omega) cs rfl)
        rw [holeAt_eq_some.2 ⟨hplain, hp⟩] at hnone
        cases hnone

theorem plainPieces_pieces (cs : List Char) : PlainPieces (pieces 0 cs) := by
  induction cs using pieces_induct with
  | hnil => intro key h; cases h
  | hhole key rest hplain ih =>
    intro key' h
    rcases List.mem_cons.1 h with h | h
    · cases h
      exact hplain
    · exact ih key' h
  | hchar c rest hno ih =>
    intro key' h
    rcases List.mem_cons.1 h with h | h
    · cases h
    · exact ih key' h

/-- With nothing filled in, the pieces are the template. -/
theorem fill_pieces (cs : List Char) : fill (fun _ => none) (pieces 0 cs) = cs := by
  induction cs using pieces_induct with
  | hnil => rfl
  | hhole key rest hplain ih =>
    rw [fill, List.flatMap_cons, ← fill, ih]
    rfl
  | hchar c rest hno ih =>
    rw [fill, List.flatMap_cons, ← fill, ih]
    rfl

/-- The holes of a key are its occurrences in the template. -/
theorem count_pieces {key : List Char} (hplain : Plain key) (cs : List Char) :
    (pieces 0 cs).count (.hole key) = occurrences (hole key) cs := by
  induction cs using pieces_induct with
  | hnil => rfl
  | hhole key' rest hplain' ih =>
    rw [List.count_cons, ih, occurrences_hole hplain hplain', Nat.add_comm]
    by_cases h : key = key'
    · subst h
      simp
    · have hne : ¬ (Piece.hole key' == Piece.hole key) = true := by
        simp only [beq_iff_eq, Piece.hole.injEq]
        exact fun e => h e.symm
      rw [if_neg h, if_neg hne]
  | hchar c rest hno ih =>
    have hhead : ¬ (hole key).isPrefixOf (c :: rest) = true := fun hp =>
      hno key hplain (List.isPrefixOf_iff_prefix.1 hp)
    rw [List.count_cons, ih, occurrences, if_neg hhead]
    simp

section Fill

variable {f g : List Char → Option (List Char)} {key : List Char} {ps : List Piece}

theorem fill_cons (f : List Char → Option (List Char)) (p : Piece) (ps : List Piece) :
    fill f (p :: ps) = p.text f ++ fill f ps := List.flatMap_cons

theorem PlainPieces.tail {p : Piece} (h : PlainPieces (p :: ps)) : PlainPieces ps := fun key hk =>
  h key (List.mem_cons_of_mem p hk)

/-- A piece is a hole that is left, or has a text of its own. -/
theorem Piece.cases_left (f : List Char → Option (List Char)) (p : Piece) :
    (∃ key, p = .hole key ∧ f key = none ∧ p.text f = Template.hole key) ∨ ∀ key, f key = none → p ≠ .hole key := by
  cases p with
  | char c => exact .inr (by simp)
  | hole key =>
    cases h : f key with
    | none => exact .inl ⟨key, rfl, h, by simp [Piece.text, h]⟩
    | some v =>
      refine .inr fun key' hkey' e => ?_
      cases e
      rw [h] at hkey'
      cases hkey'

theorem left_cons_self (h : f key = none) : left f key (.hole key :: ps) = 1 + left f key ps := by
  simp [left, h, Nat.add_comm]

theorem left_cons_of_ne {p : Piece} (h : f key = none → p ≠ .hole key) : left f key (p :: ps) = left f key ps := by
  unfold left
  split
  · exact List.count_cons_of_ne (h (by assumption))
  · rfl

/-- The holes that are left occur in the text. -/
theorem left_le_occurrences (hplain : Plain key) (hps : PlainPieces ps) :
    left f key ps ≤ occurrences (hole key) (fill f ps) := by
  induction ps with
  | nil => simp [left]
  | cons p ps ih =>
    have ih := ih hps.tail
    rw [fill_cons]
    rcases p.cases_left f with ⟨key', rfl, hnone, htext⟩ | hp
    · rw [htext, occurrences_hole hplain (hps key' List.mem_cons_self)]
      by_cases hkey : key = key'
      · subst hkey
        rw [left_cons_self hnone, if_pos rfl]
        omega
      · rw [left_cons_of_ne fun _ e => hkey (Piece.hole.inj e).symm]
        omega
    · rw [left_cons_of_ne (hp key)]
      exact ih.trans (occurrences_le_append _ _ _)

/-- If the text has no holes of a key but those of the template, replacing them fills them. -/
theorem replaceChars_fill (hplain : Plain key) (hps : PlainPieces ps) (hfree : f key = none)
    (h : occurrences (hole key) (fill f ps) = left f key ps) (value : List Char) :
    replaceChars (hole key) value 0 (fill f ps) = fill (Function.update f key (some value)) ps := by
  induction ps with
  | nil => rfl
  | cons p ps ih =>
    have hle := left_le_occurrences (f := f) hplain hps.tail
    rw [fill_cons, fill_cons]
    rw [fill_cons] at h
    rcases p.cases_left f with ⟨key', rfl, hnone, htext⟩ | hp
    · rw [htext, occurrences_hole hplain (hps key' List.mem_cons_self)] at h
      by_cases hkey : key = key'
      · subst hkey
        rw [left_cons_self hnone, if_pos rfl] at h
        rw [htext, replaceChars_self (hole_ne_nil key), ih hps.tail (by omega)]
        simp [Piece.text]
      · rw [left_cons_of_ne fun _ e => hkey (Piece.hole.inj e).symm, if_neg hkey] at h
        rw [htext, replaceChars_hole hplain (hps key' List.mem_cons_self) hkey, ih hps.tail (by omega)]
        have hother : Function.update f key (some value) key' = none := by
          rw [Function.update_of_ne (Ne.symm hkey), hnone]
        simp [Piece.text, hother]
    · rw [left_cons_of_ne (hp key)] at h
      have hquiet : occurrences (hole key) (p.text f ++ fill f ps) = occurrences (hole key) (fill f ps) := by
        have hmore := occurrences_le_append (hole key) (p.text f) (fill f ps)
        omega
      rw [replaceChars_append (not_prefix_of_occurrences hquiet), ih hps.tail (by omega)]
      have htext : p.text (Function.update f key (some value)) = p.text f := by
        cases p with
        | char c => rfl
        | hole key' =>
          have hne : key' ≠ key := by
            rintro rfl
            exact hp key' hfree rfl
          simp [Piece.text, Function.update_of_ne hne]
      rw [htext]

/-- A value for a key without holes changes nothing. -/
theorem fill_update (hfree : f key = none) (h : left f key ps = 0) (value : List Char) :
    fill (Function.update f key (some value)) ps = fill f ps := by
  rw [left, if_pos hfree, List.count_eq_zero] at h
  refine List.flatMap_congr fun p hp => ?_
  cases p with
  | char c => rfl
  | hole key' =>
    have hne : key' ≠ key := by
      rintro rfl
      exact h hp
    simp [Piece.text, Function.update_of_ne hne]

/-- The text of a piece that is not left stays when more is filled in. -/
theorem Piece.text_mono (hfg : ∀ k v, f k = some v → g k = some v) {p : Piece} (hp : ∀ key, f key = none →
    p ≠ .hole key) : p.text g = p.text f := by
  cases p with
  | char c => rfl
  | hole key' =>
    cases hv : f key' with
    | none => exact absurd rfl (hp key' hv)
    | some v => simp [Piece.text, hv, hfg key' v hv]

/-- What follows the beginning of a hole is there, whatever else is filled in. -/
theorem prefix_fill_mono (hplain : Plain key) (hps : PlainPieces ps) (hfg : ∀ k v, f k = some v →
    g k = some v) {b : List Char}
    (hsuf : b <:+ '{' :: (key ++ ['}', '}'])) (h : b <+: fill f ps) : b <+: fill g ps := by
  induction ps generalizing b with
  | nil => exact h
  | cons p ps ih =>
    rw [fill_cons] at h ⊢
    by_cases hb : b = []
    · subst hb
      exact List.nil_prefix
    · rcases p.cases_left f with ⟨key', rfl, hnone, htext⟩ | hp
      · rw [htext] at h
        exact absurd h (not_rest_prefix_hole hplain hb hsuf)
      · rw [Piece.text_mono hfg hp]
        rcases List.prefix_or_prefix_of_prefix h (List.prefix_append _ _) with hshort | ⟨b', rfl⟩
        · exact hshort.trans (List.prefix_append _ _)
        · have hlong := (List.prefix_append_right_inj _).1 h
          exact (List.prefix_append_right_inj _).2 (ih hps.tail ((List.suffix_append _ _).trans hsuf) hlong)

/-- The holes that begin in a text which stays are still there. -/
theorem occurrences_text_mono (hplain : Plain key) (hps : PlainPieces ps) (hfg : ∀ k v, f k = some v → g k = some v)
    (w : List Char) :
    occurrences (hole key) (w ++ fill f ps) + occurrences (hole key) (fill g ps) ≤
      occurrences (hole key) (w ++ fill g ps) + occurrences (hole key) (fill f ps) := by
  induction w with
  | nil => simp [Nat.add_comm]
  | cons c w ih =>
    rw [List.cons_append, List.cons_append, occurrences, occurrences]
    by_cases hp : hole key <+: c :: (w ++ fill f ps)
    · have hkeep : hole key <+: c :: (w ++ fill g ps) := by
        have hstart : c :: w <+: c :: (w ++ fill f ps) := List.prefix_append (c :: w) (fill f ps)
        rcases List.prefix_or_prefix_of_prefix hp hstart with hshort | ⟨b, hb⟩
        · exact hshort.trans (List.prefix_append (c :: w) (fill g ps))
        · rw [← hb] at hp ⊢
          have hsuf : b <:+ '{' :: (key ++ ['}', '}']) := by
            have hb : c :: (w ++ b) = '{' :: '{' :: (key ++ ['}', '}']) := hb
            rw [List.cons.injEq] at hb
            exact ⟨w, hb.2⟩
          have hlong : b <+: fill f ps := (List.prefix_append_right_inj (c :: w)).1 hp
          exact (List.prefix_append_right_inj (c :: w)).2 (prefix_fill_mono hplain hps hfg hsuf hlong)
      rw [if_pos (List.isPrefixOf_iff_prefix.2 hp), if_pos (List.isPrefixOf_iff_prefix.2 hkeep)]
      omega
    · rw [if_neg fun h => hp (List.isPrefixOf_iff_prefix.1 h)]
      omega

/-- The holes of a key that were completed stay when more is filled in. -/
theorem occurrences_fill_mono (hplain : Plain key) (hps : PlainPieces ps) (hfg : ∀ k v, f k = some v → g k = some v) :
    occurrences (hole key) (fill f ps) + left g key ps ≤ occurrences (hole key) (fill g ps) + left f key ps := by
  induction ps with
  | nil => simp [left, fill]
  | cons p ps ih =>
    have ih := ih hps.tail
    rw [fill_cons, fill_cons]
    rcases p.cases_left f with ⟨key', rfl, hnone, htext⟩ | hp
    · rw [htext, occurrences_hole hplain (hps key' List.mem_cons_self)]
      have hmore := occurrences_le_append (hole key) ((Piece.hole key').text g) (fill g ps)
      by_cases hkey : key = key'
      · subst hkey
        rw [if_pos rfl, left_cons_self hnone]
        cases hg : g key with
        | none =>
          rw [left_cons_self hg]
          have htext' : (Piece.hole key).text g = hole key := by simp [Piece.text, hg]
          rw [htext', occurrences_hole hplain hplain, if_pos rfl]
          omega
        | some v =>
          rw [left_cons_of_ne fun h => by rw [hg] at h; cases h]
          omega
      · rw [if_neg hkey, left_cons_of_ne fun _ e => hkey (Piece.hole.inj e).symm,
          left_cons_of_ne fun _ e => hkey (Piece.hole.inj e).symm]
        omega
    · have hp' : g key = none → p ≠ .hole key := by
        intro hg
        refine hp key ?_
        cases hf : f key with
        | none => rfl
        | some v =>
          rw [hfg key v hf] at hg
          cases hg
      rw [left_cons_of_ne (hp key), left_cons_of_ne hp', Piece.text_mono hfg hp]
      have htext := occurrences_text_mono hplain hps.tail hfg (p.text f)
      omega

end Fill

end Template
