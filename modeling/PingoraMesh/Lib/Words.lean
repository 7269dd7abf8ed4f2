import PingoraMesh.Lib.Text

/-!
# Words between separators

Texts as words of a language, and the words between the occurrences of a separator (`Text.splitChars`).

* `mem_kstar_letters`, `mem_bounded`: the words over a set of characters, and those that begin and end with characters
  of a smaller set;
* `splitChars_append_sep`, `splitChars_suffix_iff`: the words of a text with a separator in it, and of its ends;
* `mem_joined_iff`, `mem_separated_iff`: a text is of the form `l (c l)*` exactly if each of its words is in `l`, and of
  the form `l (c l)+` if it has the separator `c` as well.
-/

namespace Text

open scoped Computability

variable {c : Char} {cs ds w : List Char}

/-! ## Languages of characters -/

/-- The words of one character with a property. -/
def letters (p : Char → Prop) : Language Char := {cs | ∃ x, p x ∧ cs = [x]}

/-- `p` or `p q* p`. -/
def bounded (p q : Char → Prop) : Language Char := letters p + letters p * (letters q)∗ * letters p

/-- `l (c l)*`. -/
def joined (c : Char) (l : Language Char) : Language Char := l * ({[c]} * l)∗

/-- `l (c l)+`. -/
def separated (c : Char) (l : Language Char) : Language Char := l * ({[c]} * l) * ({[c]} * l)∗

theorem mem_kstar_letters {p : Char → Prop} : cs ∈ (letters p)∗ ↔ ∀ x ∈ cs, p x := by
  rw [Language.mem_kstar]
  constructor
  · rintro ⟨L, rfl, hL⟩ x hx
    obtain ⟨w, hw, hx⟩ := List.mem_flatten.1 hx
    obtain ⟨y, hy, rfl⟩ := hL w hw
    rwa [List.mem_singleton.1 hx]
  · intro h
    refine ⟨cs.map fun x => [x], by rw [← List.flatMap_def, List.flatMap_singleton'], fun y hy => ?_⟩
    obtain ⟨x, hx, rfl⟩ := List.mem_map.1 hy
    exact ⟨x, h x hx, rfl⟩

/-- A word of one character or more. -/
theorem mem_letters_plus {p : Char → Prop} : cs ∈ letters p * (letters p)∗ ↔ cs ≠ [] ∧ ∀ x ∈ cs, p x := by
  rw [Language.mem_mul]
  constructor
  · rintro ⟨_, ⟨x, hx, rfl⟩, w, hw, rfl⟩
    exact ⟨by simp, List.forall_mem_cons.2 ⟨hx, mem_kstar_letters.1 hw⟩⟩
  · rintro ⟨hne, hall⟩
    cases cs with
    | nil => exact absurd rfl hne
    | cons x w =>
      obtain ⟨hx, hw⟩ := List.forall_mem_cons.1 hall
      exact ⟨[x], ⟨x, hx, rfl⟩, w, mem_kstar_letters.2 hw, rfl⟩

/-- A word begins and ends with `p`, and is one of `q`. -/
theorem mem_bounded {p q : Char → Prop} (hpq : ∀ x, p x → q x) :
    cs ∈ bounded p q ↔ (∃ x ∈ cs.head?, p x) ∧ (∃ x ∈ cs.getLast?, p x) ∧ ∀ x ∈ cs, q x := by
  rw [bounded, Language.mem_add]
  constructor
  · rintro (⟨x, hx, rfl⟩ | h)
    · exact ⟨⟨x, rfl, hx⟩, ⟨x, rfl, hx⟩, by simpa using hpq x hx⟩
    · obtain ⟨_, ⟨_, ⟨x, hx, rfl⟩, mid, hmid, rfl⟩, _, ⟨y, hy, rfl⟩, rfl⟩ := Language.mem_mul.1 h
      refine ⟨⟨x, rfl, hx⟩, ⟨y, List.getLast?_concat, hy⟩, fun z hz => ?_⟩
      rcases List.mem_append.1 hz with hz | hz
      · rcases List.mem_cons.1 hz with rfl | hz
        · exact hpq _ hx
        · exact mem_kstar_letters.1 hmid z hz
      · rw [List.mem_singleton.1 hz]
        exact hpq y hy
  · rintro ⟨⟨x, hhead, hx⟩, ⟨y, hlast, hy⟩, hall⟩
    cases cs with
    | nil => cases hhead
    | cons a cs =>
      obtain rfl : a = x := Option.some.inj hhead
      rcases List.eq_nil_or_concat cs with rfl | ⟨mid, b, rfl⟩
      · exact .inl ⟨a, hx, rfl⟩
      · right
        rw [List.concat_eq_append] at hlast hall ⊢
        have hshape : a :: (mid ++ [b]) = (a :: mid) ++ [b] := rfl
        obtain rfl : b = y := by
          rw [hshape, List.getLast?_concat] at hlast
          exact Option.some.inj hlast
        rw [hshape]
        have hmid : mid ∈ (letters q)∗ := mem_kstar_letters.2 fun z hz => hall z (by simp [hz])
        have hfirst : [a] ∈ letters p := ⟨a, hx, rfl⟩
        have hend : [b] ∈ letters p := ⟨b, hy, rfl⟩
        exact Language.append_mem_mul (Language.append_mem_mul hfirst hmid) hend

/-! ## The words of a text -/

theorem splitChars_ne_nil : splitChars c cs ≠ [] := by
  cases cs with
  | nil => simp [splitChars]
  | cons x cs =>
    rw [splitChars]
    split
    · simp
    · split <;> simp

/-- The words with the separators in front of them are the text. -/
theorem flatten_splitChars (c : Char) (cs : List Char) : ((splitChars c cs).map (c :: ·)).flatten = c :: cs := by
  induction cs with
  | nil => rfl
  | cons x cs ih =>
    rw [splitChars]
    split
    · rename_i hx
      rw [List.map_cons, List.flatten_cons, ih, hx]
      rfl
    · split
      · rename_i hnil
        exact absurd hnil splitChars_ne_nil
      · rename_i w ws hws
        rw [hws] at ih
        simp only [List.map_cons, List.flatten_cons, List.cons_append, List.cons.injEq, true_and] at ih ⊢
        exact ih

theorem splitChars_inj (h : splitChars c cs = splitChars c ds) : cs = ds := by
  have hflat := flatten_splitChars c cs
  rw [h, flatten_splitChars] at hflat
  exact (List.cons.inj hflat).2.symm

theorem splitChars_append_sep (c : Char) (cs ds : List Char) :
    splitChars c (cs ++ c :: ds) = splitChars c cs ++ splitChars c ds := by
  induction cs with
  | nil => simp [splitChars]
  | cons x cs ih =>
    rw [List.cons_append, splitChars, splitChars, ih]
    split
    · rfl
    · cases hw : splitChars c cs with
      | nil => exact absurd hw splitChars_ne_nil
      | cons w ws => rfl

theorem splitChars_of_notMem (h : c ∉ cs) : splitChars c cs = [cs] := by
  induction cs with
  | nil => rfl
  | cons x cs ih =>
    rw [List.mem_cons, not_or] at h
    rw [splitChars, if_neg (fun e => h.1 e.symm), ih h.2]

theorem mem_of_mem_splitChars (h : w ∈ splitChars c cs) : ∀ x ∈ w, x ∈ cs ∧ x ≠ c := by
  induction cs generalizing w with
  | nil =>
    rw [splitChars, List.mem_singleton] at h
    simp [h]
  | cons y cs ih =>
    rw [splitChars] at h
    split at h
    · rcases List.mem_cons.1 h with rfl | h
      · simp
      · exact fun x hx => (ih h x hx).imp_left (List.mem_cons_of_mem y)
    · rename_i hy
      split at h
      · rename_i hnil
        exact absurd hnil splitChars_ne_nil
      · rename_i v vs hvs
        rcases List.mem_cons.1 h with rfl | h
        · intro x hx
          rcases List.mem_cons.1 hx with rfl | hx
          · exact ⟨List.mem_cons_self, hy⟩
          · exact (ih (hvs ▸ List.mem_cons_self) x hx).imp_left (List.mem_cons_of_mem y)
        · exact fun x hx => (ih (hvs ▸ List.mem_cons_of_mem v h) x hx).imp_left (List.mem_cons_of_mem y)

/-- A character more at the end of a text is one more at the end of its last word. -/
theorem splitChars_concat {x : Char} (hx : x ≠ c) (cs : List Char) :
    ∃ ws u, splitChars c cs = ws ++ [u] ∧ splitChars c (cs ++ [x]) = ws ++ [u ++ [x]] := by
  induction cs with
  | nil =>
    refine ⟨[], [], rfl, ?_⟩
    rw [List.nil_append, splitChars, if_neg hx]
    rfl
  | cons y cs ih =>
    obtain ⟨ws, u, hcs, hcsx⟩ := ih
    rw [List.cons_append, splitChars, splitChars, hcs, hcsx]
    split
    · exact ⟨[] :: ws, u, rfl, rfl⟩
    · cases ws with
      | nil => exact ⟨[], y :: u, rfl, rfl⟩
      | cons w ws => exact ⟨(y :: w) :: ws, u, rfl, rfl⟩

/-- A character of a text is the separator or in one of the words. -/
theorem mem_splitChars {x : Char} (h : x ∈ cs) : x = c ∨ ∃ w ∈ splitChars c cs, x ∈ w := by
  have hmem : x ∈ ((splitChars c cs).map (c :: ·)).flatten := by
    rw [flatten_splitChars]
    exact List.mem_cons_of_mem c h
  obtain ⟨v, hv, hx⟩ := List.mem_flatten.1 hmem
  obtain ⟨w, hw, rfl⟩ := List.mem_map.1 hv
  exact (List.mem_cons.1 hx).imp_right fun hx => ⟨w, hw, hx⟩

/-- The words of one text are the last words of another if it is the end of the other, after a separator. -/
theorem splitChars_suffix_iff : splitChars c ds <:+ splitChars c cs ↔ cs = ds ∨ c :: ds <:+ cs := by
  constructor
  · rintro ⟨pre, hpre⟩
    have hflat := flatten_splitChars c cs
    rw [← hpre, List.map_append, List.flatten_append, flatten_splitChars] at hflat
    cases pre with
    | nil => exact .inl (List.cons.inj hflat).2.symm
    | cons w pre =>
      right
      rw [List.map_cons, List.flatten_cons, List.cons_append, List.cons_append, List.cons.injEq] at hflat
      exact ⟨_, hflat.2⟩
  · rintro (rfl | ⟨pre, rfl⟩)
    · exact List.suffix_refl _
    · rw [splitChars_append_sep]
      exact List.suffix_append _ _

/-- The same of strings, as the program tests it. -/
theorem ends_at_word_iff (v w : String) :
    (v == w || endsWith v ("." ++ w)) = true ↔ splitChars '.' w.toList <:+ splitChars '.' v.toList := by
  rw [splitChars_suffix_iff, Bool.or_eq_true, beq_iff_eq, endsWith, List.isSuffixOf_iff_suffix, String.toList_append,
    ← String.toList_inj]
  rfl

/-! ## Words of a language -/

variable {l : Language Char}

/-- `(c l)*`. -/
theorem mem_kstar_sep_iff (hl : ∀ w ∈ l, c ∉ w) :
    cs ∈ ({[c]} * l)∗ ↔ cs = [] ∨ ∃ ds, cs = c :: ds ∧ ∀ w ∈ splitChars c ds, w ∈ l := by
  constructor
  · rintro ⟨L, rfl, hL⟩
    induction L with
    | nil => exact .inl rfl
    | cons v L ih =>
      obtain ⟨_, rfl, w, hw, rfl⟩ := Language.mem_mul.1 (hL v List.mem_cons_self)
      right
      rcases ih fun y hy => hL y (List.mem_cons_of_mem _ hy) with hnil | ⟨ds, hds, hwords⟩
      · refine ⟨w, by rw [List.flatten_cons, hnil]; simp, fun u hu => ?_⟩
        rw [splitChars_of_notMem (hl w hw), List.mem_singleton] at hu
        exact hu ▸ hw
      · refine ⟨w ++ c :: ds, by rw [List.flatten_cons, hds]; simp, fun u hu => ?_⟩
        rw [splitChars_append_sep, splitChars_of_notMem (hl w hw)] at hu
        rcases List.mem_append.1 hu with hu | hu
        · exact List.mem_singleton.1 hu ▸ hw
        · exact hwords u hu
  · rintro (rfl | ⟨ds, rfl, hwords⟩)
    · exact Language.nil_mem_kstar _
    · rw [← flatten_splitChars c ds]
      refine Language.join_mem_kstar fun y hy => ?_
      obtain ⟨w, hw, rfl⟩ := List.mem_map.1 hy
      exact Language.append_mem_mul (Set.mem_singleton _) (hwords w hw)

/-- Each word of a text is in a language exactly if the text is of the form `l (c l)*`. -/
theorem mem_joined_iff (hl : ∀ w ∈ l, c ∉ w) : cs ∈ joined c l ↔ ∀ w ∈ splitChars c cs, w ∈ l := by
  rw [joined, Language.mem_mul]
  constructor
  · rintro ⟨w, hw, b, hb, rfl⟩ u hu
    rcases (mem_kstar_sep_iff hl).1 hb with rfl | ⟨ds, rfl, hwords⟩
    · rw [List.append_nil, splitChars_of_notMem (hl w hw), List.mem_singleton] at hu
      exact hu ▸ hw
    · rw [splitChars_append_sep, splitChars_of_notMem (hl w hw)] at hu
      rcases List.mem_append.1 hu with hu | hu
      · exact List.mem_singleton.1 hu ▸ hw
      · exact hwords u hu
  · intro hwords
    by_cases hc : c ∈ cs
    · obtain ⟨w, ds, rfl, hw⟩ := List.eq_append_cons_of_mem hc
      rw [splitChars_append_sep, splitChars_of_notMem hw] at hwords
      have htail : c :: ds ∈ ({[c]} * l)∗ :=
        (mem_kstar_sep_iff hl).2 (.inr ⟨ds, rfl, fun u hu => hwords u (List.mem_append_right _ hu)⟩)
      exact ⟨w, hwords w (by simp), c :: ds, htail, rfl⟩
    · rw [splitChars_of_notMem hc] at hwords
      exact ⟨cs, hwords cs (List.mem_singleton.2 rfl), [], Language.nil_mem_kstar _, List.append_nil cs⟩

/-- With a separator at least. -/
theorem mem_separated_iff (hl : ∀ w ∈ l, c ∉ w) :
    cs ∈ separated c l ↔ c ∈ cs ∧ ∀ w ∈ splitChars c cs, w ∈ l := by
  rw [← mem_joined_iff hl, separated, joined, mul_assoc, Language.mem_mul]
  constructor
  · rintro ⟨w, hw, b, hb, rfl⟩
    have hstar : b ∈ ({[c]} * l)∗ := by
      rw [← Language.one_add_self_mul_kstar_eq_kstar]
      exact .inr hb
    refine ⟨?_, w, hw, b, hstar, rfl⟩
    obtain ⟨a, ha, d, -, rfl⟩ := Language.mem_mul.1 hb
    obtain ⟨_, rfl, v, -, rfl⟩ := Language.mem_mul.1 ha
    simp
  · rintro ⟨hc, w, hw, b, hb, rfl⟩
    refine ⟨w, hw, b, ?_, rfl⟩
    rw [← Language.one_add_self_mul_kstar_eq_kstar] at hb
    rcases hb with rfl | hmem
    · exact absurd (by simpa using hc) (hl w hw)
    · exact hmem

end Text
