import PingoraMesh.Lib.Text

/-!
# Substring search

`str::contains` of a pattern in a text that is put together of others.

* `contains_iff`: it is `List.IsInfix`;
* `infix_append_of_endsApart`, `infix_append_of_startsApart`: an occurrence does not go over the end of a part if no
  proper beginning of the pattern fits there;
* `contains_append_sep`: around a separator that no occurrence touches, a text has the pattern if one of its sides has.
-/

namespace Text

variable {pat pre sep xs ys : List Char}

theorem contains_iff (s sub : String) : contains s sub = true ↔ sub.toList <:+: s.toList := by
  rw [contains, List.any_eq_true]
  constructor
  · rintro ⟨t, ht, hsub⟩
    exact (List.isPrefixOf_iff_prefix.1 hsub).isInfix.trans ((List.mem_tails _ _).1 ht).isInfix
  · intro h
    obtain ⟨t, hprefix, hsuffix⟩ := List.infix_iff_prefix_suffix.1 h
    exact ⟨t, (List.mem_tails _ _).2 hsuffix, List.isPrefixOf_iff_prefix.2 hprefix⟩

/-- No proper beginning of the pattern fits the end of `sep`, nor the other way round. -/
def EndsApart (sep pat : List Char) : Prop :=
  ∀ l ∈ pat.inits, l ≠ [] → l ≠ pat → ¬ l <:+ sep ∧ ¬ sep <:+ l

/-- No proper end of the pattern fits the beginning of `sep`. -/
def StartsApart (sep pat : List Char) : Prop := ∀ l ∈ pat.tails, l ≠ [] → l ≠ pat → ¬ l <+: sep

instance (sep pat : List Char) : Decidable (EndsApart sep pat) := inferInstanceAs (Decidable (∀ l ∈ pat.inits, _))

instance (sep pat : List Char) : Decidable (StartsApart sep pat) := inferInstanceAs (Decidable (∀ l ∈ pat.tails, _))

/-- No occurrence of the pattern touches `sep`. -/
structure Separates (sep pat : List Char) : Prop where
  absent : ¬ pat <:+: sep
  ends : EndsApart sep pat
  starts : StartsApart sep pat

theorem infix_append_of_endsApart (h : EndsApart sep pat) :
    pat <:+: xs ++ sep ++ ys ↔ pat <:+: xs ++ sep ∨ pat <:+: ys := by
  rw [List.infix_append_iff_ne_nil]
  constructor
  · rintro (hx | hy | ⟨l, l', hl, hl', rfl, hsuffix, -⟩)
    · exact .inl hx
    · exact .inr hy
    · have hproper : l ≠ l ++ l' := fun e => hl' (List.self_eq_append_right.1 e)
      obtain ⟨hnot, hnot'⟩ := h l ((List.mem_inits _ _).2 (List.prefix_append _ _)) hl hproper
      rcases List.suffix_or_suffix_of_suffix hsuffix (List.suffix_append xs sep) with hfit | hfit
      · exact absurd hfit hnot
      · exact absurd hfit hnot'
  · rintro (hx | hy)
    · exact .inl hx
    · exact .inr (.inl hy)

theorem infix_append_of_startsApart (h : StartsApart sep pat) : pat <:+: xs ++ sep ↔ pat <:+: xs ∨ pat <:+: sep := by
  rw [List.infix_append_iff_ne_nil]
  constructor
  · rintro (hx | hy | ⟨l, l', hl, hl', rfl, -, hprefix⟩)
    · exact .inl hx
    · exact .inr hy
    · have hproper : l' ≠ l ++ l' := fun e => hl (List.self_eq_append_left.1 e)
      exact absurd hprefix (h l' ((List.mem_tails _ _).2 (List.suffix_append _ _)) hl' hproper)
  · rintro (hx | hy)
    · exact .inl hx
    · exact .inr (.inl hy)

/-- A text has the pattern on one of the sides of a separator that no occurrence touches, or not at all. -/
theorem contains_append_sep {sep pat : String} (h : Separates sep.toList pat.toList) (a b : String) :
    contains (a ++ sep ++ b) pat = true ↔ contains a pat = true ∨ contains b pat = true := by
  rw [contains_iff, contains_iff, contains_iff, String.toList_append, String.toList_append,
    infix_append_of_endsApart h.ends, infix_append_of_startsApart h.starts]
  constructor
  · rintro ((ha | hsep) | hb)
    · exact .inl ha
    · exact absurd hsep h.absent
    · exact .inr hb
  · rintro (ha | hb)
    · exact .inl (.inl ha)
    · exact .inr hb

end Text
