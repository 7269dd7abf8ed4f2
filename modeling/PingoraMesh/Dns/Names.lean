import PingoraMesh.Dns.Effects
import PingoraMesh.Lib.Words

/-!
# Names of certificates

`normalize_certificate_identifier` brings a name to one spelling and checks its labels one after the other;
`unique_identifiers` of the worker reads what the hub has stored.

* `normalizeCertificateIdentifier_ok`: the names that are accepted are the words of `certificateNames`, in their one
  spelling, which is accepted as it is;
* `normalizeCertificateSans_ok`: the names of an order, each of them once;
* `certificate_names_agree`: for the certificate of every order that the hub accepts, the worker finds one identifier.
-/

namespace PingoraMesh

open Calls Fallible HubService
open scoped Computability

/-! ## The language of names -/

/-- A small letter or a digit. -/
def LabelEnd (x : Char) : Prop := ('a' ≤ x ∧ x ≤ 'z') ∨ ('0' ≤ x ∧ x ≤ '9')

/-- A small letter, a digit or a hyphen. -/
def LabelInner (x : Char) : Prop := LabelEnd x ∨ x = '-'

/-- `[a-z0-9] | [a-z0-9][a-z0-9-]*[a-z0-9]`. -/
def certificateLabel : Language Char := Text.bounded LabelEnd LabelInner

/-- `("*.")? label ("." label)+`. -/
def certificateNames : Language Char := (1 + {['*', '.']}) * Text.separated '.' certificateLabel

/-- A name without white space around it and dots at its end, in small letters. -/
def canonicalIdentifier (raw : String) : String := Text.toAsciiLowercase (Text.trimEndMatches '.' (Text.trim raw))

section Names

variable {cs ds : List Char} {v raw : String}

theorem mem_certificateLabel : cs ∈ certificateLabel ↔
    (∃ x ∈ cs.head?, LabelEnd x) ∧ (∃ x ∈ cs.getLast?, LabelEnd x) ∧ ∀ x ∈ cs, LabelInner x :=
  Text.mem_bounded fun _ hx => .inl hx

theorem LabelInner.ne {x : Char} (h : LabelInner x) : x ≠ '.' ∧ x ≠ '*' ∧ x ≠ ':' ∧ x ≠ '/' := by
  rcases h with (h | h) | rfl
  · refine ⟨?_, ?_, ?_, ?_⟩ <;> rintro rfl <;> revert h <;> decide
  · refine ⟨?_, ?_, ?_, ?_⟩ <;> rintro rfl <;> revert h <;> decide
  · decide

/-- A text with labels between its dots, at least two of them. -/
theorem mem_separated_label : cs ∈ Text.separated '.' certificateLabel ↔
    '.' ∈ cs ∧ ∀ w ∈ Text.splitChars '.' cs, w ∈ certificateLabel := by
  refine Text.mem_separated_iff fun w hw hdot => ?_
  exact ((mem_certificateLabel.1 hw).2.2 '.' hdot).ne.1 rfl

theorem inner_of_mem_separated {x : Char} (h : cs ∈ Text.separated '.' certificateLabel) (hx : x ∈ cs) :
    x = '.' ∨ LabelInner x := by
  refine (Text.mem_splitChars hx).imp_right ?_
  rintro ⟨w, hw, hxw⟩
  exact (mem_certificateLabel.1 ((mem_separated_label.1 h).2 w hw)).2.2 x hxw

theorem certificateDnsDomain_toList (v : String) : (certificateDnsDomain v).toList =
    if Text.startsWith v "*." = true then v.toList.drop 2 else v.toList := by
  unfold certificateDnsDomain Text.stripStart
  split
  · exact String.toList_ofList
  · rfl

theorem startsWith_wildcard : Text.startsWith v "*." = true ↔ ∃ ds, v.toList = '*' :: '.' :: ds := by
  rw [Text.startsWith, List.isPrefixOf_iff_prefix]
  constructor
  · rintro ⟨ds, hds⟩
    exact ⟨ds, hds.symm⟩
  · rintro ⟨ds, hds⟩
    exact ⟨ds, hds.symm⟩

/-- A name is in the language if its labels are, without a wildcard in front. -/
theorem mem_certificateNames : v.toList ∈ certificateNames ↔
    (certificateDnsDomain v).toList ∈ Text.separated '.' certificateLabel := by
  rw [certificateDnsDomain_toList, certificateNames, Language.mem_mul]
  constructor
  · rintro ⟨a, ha, b, hb, hab⟩
    rcases (Language.mem_add _ _ _).1 ha with rfl | rfl
    · rw [if_neg]
      · exact hab ▸ hb
      · intro hstar
        obtain ⟨ds, hds⟩ := startsWith_wildcard.1 hstar
        have hmem : '*' ∈ b := by
          rw [show b = v.toList from hab, hds]
          exact List.mem_cons_self
        rcases inner_of_mem_separated hb hmem with h | h
        · cases h
        · exact h.ne.2.1 rfl
    · rw [if_pos (startsWith_wildcard.2 ⟨b, hab.symm⟩), ← hab]
      exact hb
  · intro h
    split at h
    · rename_i hstar
      obtain ⟨ds, hds⟩ := startsWith_wildcard.1 hstar
      rw [hds] at h ⊢
      exact ⟨['*', '.'], .inr rfl, ds, h, rfl⟩
    · exact ⟨[], .inl rfl, v.toList, h, rfl⟩

/-! ## The checks -/

theorem isAlphanum_iff {x : Char} (h : ¬ ('A' ≤ x ∧ x ≤ 'Z')) : x.isAlphanum = true ↔ LabelEnd x := by
  have hupper : x.isUpper = false := decide_eq_false h
  rw [Char.isAlphanum, Char.isAlpha, hupper, Bool.false_or, Bool.or_eq_true, Char.isLower, Char.isDigit,
    Bool.and_eq_true, Bool.and_eq_true]
  simp only [decide_eq_true_iff]
  rfl

theorem startsWith_dash {w : List Char} : Text.startsWith (.ofList w) "-" = true ↔ w.head? = some '-' := by
  have hlist : (String.ofList w).toList = w := String.toList_ofList
  rw [Text.startsWith, hlist, List.isPrefixOf_iff_prefix]
  cases w with
  | nil => simp
  | cons x w =>
    constructor
    · rintro ⟨t, ht⟩
      cases ht
      rfl
    · intro h
      rw [Option.some.inj h]
      exact ⟨w, rfl⟩

theorem endsWith_dash {w : List Char} : Text.endsWith (.ofList w) "-" = true ↔ w.getLast? = some '-' := by
  have hlist : (String.ofList w).toList = w := String.toList_ofList
  rw [Text.endsWith, hlist, List.isSuffixOf_iff_suffix, List.getLast?_eq_some_iff]
  constructor
  · rintro ⟨t, ht⟩
    exact ⟨t, ht.symm⟩
  · rintro ⟨t, ht⟩
    exact ⟨t, ht.symm⟩

theorem not_labelEnd_dash : ¬ LabelEnd '-' := by
  unfold LabelEnd
  decide

/-- The check of a label. -/
theorem validLabel_iff {w : List Char} (h : ∀ x ∈ w, ¬ ('A' ≤ x ∧ x ≤ 'Z')) :
    validLabel (.ofList w) = true ↔ w ∈ certificateLabel := by
  have hinner : (w.all fun x => x.isAlphanum || x == '-') = true ↔ ∀ x ∈ w, LabelInner x := by
    rw [List.all_eq_true]
    refine forall₂_congr fun x hx => ?_
    rw [Bool.or_eq_true, beq_iff_eq, isAlphanum_iff (h x hx)]
    rfl
  rw [mem_certificateLabel, ← hinner]
  simp only [validLabel, Bool.and_eq_true, Bool.not_eq_true', ← Bool.not_eq_true, startsWith_dash, endsWith_dash,
    String.toList_ofList, Text.isEmpty, hinner]
  cases w with
  | nil => simp
  | cons x w =>
    have hlast : (x :: w).getLast? = some ((x :: w).getLast (by simp)) := List.getLast?_eq_some_getLast (by simp)
    rw [hlast]
    constructor
    · rintro ⟨⟨⟨-, hstart⟩, hend⟩, hall⟩
      refine ⟨⟨x, rfl, ?_⟩, ⟨_, rfl, ?_⟩, hall⟩
      · exact (hall x List.mem_cons_self).resolve_right fun e => hstart (congrArg some e)
      · exact (hall _ (List.getLast_mem _)).resolve_right fun e => hend (congrArg some e)
    · rintro ⟨⟨y, hy, hstart⟩, ⟨z, hz, hend⟩, hall⟩
      refine ⟨⟨⟨by simp, fun e => ?_⟩, fun e => ?_⟩, hall⟩
      · rw [e] at hy
        cases hy
        exact not_labelEnd_dash hstart
      · rw [e] at hz
        cases hz
        exact not_labelEnd_dash hend

/-- No capital letter is in the one spelling of a name. -/
theorem canonicalIdentifier_not_upper {x : Char} (h : x ∈ (canonicalIdentifier raw).toList) :
    ¬ ('A' ≤ x ∧ x ≤ 'Z') := by
  rw [canonicalIdentifier, Text.toAsciiLowercase, String.toList_ofList] at h
  obtain ⟨y, -, rfl⟩ := List.mem_map.1 h
  exact Text.lowerChar_not_upper y

theorem certificateDnsDomain_subset {x : Char} (h : x ∈ (certificateDnsDomain v).toList) : x ∈ v.toList := by
  rw [certificateDnsDomain_toList] at h
  split at h
  · exact List.mem_of_mem_drop h
  · exact h

/-- The labels of a name in its one spelling are checked. -/
theorem labels_valid_iff (hv : ∀ x ∈ v.toList, ¬ ('A' ≤ x ∧ x ≤ 'Z')) :
    (Text.containsChar (certificateDnsDomain v) '.' = true ∧
      (Text.split (certificateDnsDomain v) '.').all validLabel = true) ↔ v.toList ∈ certificateNames := by
  rw [mem_certificateNames, mem_separated_label, Text.containsChar, List.contains_iff_mem, Text.split, List.all_map,
    List.all_eq_true]
  refine and_congr_right fun _ => forall₂_congr fun w hw => ?_
  exact validLabel_iff fun x hx => hv x (certificateDnsDomain_subset (Text.mem_of_mem_splitChars hw x hx).1)

/-- The characters of a name in the language. -/
theorem inner_of_mem_names {x : Char} (h : v.toList ∈ certificateNames) (hx : x ∈ v.toList) :
    x = '*' ∨ x = '.' ∨ LabelInner x := by
  have hbase := mem_certificateNames.1 h
  rw [certificateDnsDomain_toList] at hbase
  split at hbase
  · rename_i hstar
    obtain ⟨ds, hds⟩ := startsWith_wildcard.1 hstar
    rw [hds] at hbase hx
    rcases List.mem_cons.1 hx with rfl | hx
    · exact .inl rfl
    · rcases List.mem_cons.1 hx with rfl | hx
      · exact .inr (.inl rfl)
      · exact .inr (inner_of_mem_separated hbase hx)
  · exact .inr (inner_of_mem_separated hbase hx)

/-- What the other checks ask for holds of a name in the language. -/
theorem checks_of_mem (h : v.toList ∈ certificateNames) : Text.isEmpty v = false ∧
    (Text.contains v "://" || Text.containsChar v '/' || Text.containsChar v ':') = false ∧
    (Text.containsChar v '*' && !Text.startsWith v "*.") = false := by
  have hbase := mem_certificateNames.1 h
  have hnot : ∀ x, (x = ':' ∨ x = '/') → x ∉ v.toList := by
    intro x hx hmem
    rcases inner_of_mem_names h hmem with rfl | rfl | hinner
    · revert hx; decide
    · revert hx; decide
    · exact hx.elim hinner.ne.2.2.1 hinner.ne.2.2.2
  refine ⟨?_, ?_, ?_⟩
  · rw [Text.isEmpty, List.isEmpty_eq_false_iff]
    exact List.ne_nil_of_mem (certificateDnsDomain_subset (mem_separated_label.1 hbase).1)
  · have hcolon : Text.containsChar v ':' = false := by
      rw [Text.containsChar, Bool.eq_false_iff, ne_eq, List.contains_iff_mem]
      exact hnot ':' (.inl rfl)
    have hslash : Text.containsChar v '/' = false := by
      rw [Text.containsChar, Bool.eq_false_iff, ne_eq, List.contains_iff_mem]
      exact hnot '/' (.inr rfl)
    have hscheme : Text.contains v "://" = false := by
      rw [Text.contains, List.any_eq_false]
      intro t ht hp
      obtain ⟨rest, hrest⟩ := List.isPrefixOf_iff_prefix.1 hp
      have hmem : ':' ∈ t := by
        rw [← hrest]
        exact List.mem_cons_self
      exact hnot ':' (.inl rfl) (((List.mem_tails _ _).1 ht).subset hmem)
    rw [hscheme, hslash, hcolon]
    rfl
  · -- a star is in front, or nowhere
    rw [Bool.and_eq_false_iff, Bool.not_eq_false', or_iff_not_imp_right, Bool.not_eq_true]
    intro hstart
    rw [certificateDnsDomain_toList, if_neg (by rw [hstart]; exact Bool.false_ne_true)] at hbase
    rw [Text.containsChar, Bool.eq_false_iff, ne_eq, List.contains_iff_mem]
    intro hmem
    rcases inner_of_mem_separated hbase hmem with h | h
    · cases h
    · exact h.ne.2.1 rfl

/-- **The names that the hub accepts.** -/
theorem normalizeCertificateIdentifier_ok : normalizeCertificateIdentifier raw = .ok v ↔
    v = canonicalIdentifier raw ∧ v.toList ∈ certificateNames := by
  have hlabels := labels_valid_iff (v := canonicalIdentifier raw) fun x hx => canonicalIdentifier_not_upper hx
  constructor
  · intro h
    unfold normalizeCertificateIdentifier at h
    dsimp only at h
    split at h
    · cases h
    · split at h
      · cases h
      · split at h
        · cases h
        · split at h
          · cases h
          · rename_i hdot
            split at h
            · rename_i hvalid
              have hv : canonicalIdentifier raw = v := Except.ok.inj h
              rw [Bool.not_eq_true', Bool.not_eq_false] at hdot
              exact ⟨hv.symm, hv ▸ hlabels.1 ⟨hdot, hvalid⟩⟩
            · cases h
  · rintro ⟨rfl, h⟩
    obtain ⟨hempty, hscheme, hstar⟩ := checks_of_mem h
    obtain ⟨hdot, hvalid⟩ := hlabels.2 h
    unfold canonicalIdentifier at hempty hscheme hstar hdot hvalid ⊢
    unfold normalizeCertificateIdentifier
    dsimp only
    rw [hempty, hscheme, hstar, hdot, hvalid]
    rfl

/-! ## One spelling -/

/-- The one spelling of a name has no dot at its end. -/
theorem trimEnd_canonicalIdentifier (raw : String) :
    Text.trimEndMatches '.' (canonicalIdentifier raw) = canonicalIdentifier raw := by
  have hdot : (fun x => x == '.') ∘ Text.lowerChar = fun x => x == '.' := by
    funext x
    by_cases h : 'A' ≤ x ∧ x ≤ 'Z'
    · have hx : x ≠ '.' := by
        rintro rfl
        revert h
        decide
      have hlow : Text.lowerChar x ≠ '.' := by
        intro e
        have hn := Text.toNat_lowerChar h
        have h₁ : 65 ≤ x.toNat := UInt32.le_iff_toNat_le.1 h.1
        rw [e] at hn
        have h46 : ('.' : Char).toNat = 46 := rfl
        omega
      simp [hx, hlow]
    · rw [Function.comp_apply, Text.lowerChar_of_not_upper h]
  simp only [canonicalIdentifier, Text.toAsciiLowercase, Text.trimEndMatches, String.toList_ofList, ← List.map_reverse,
    List.dropWhile_map, List.reverse_reverse, hdot, List.dropWhile_idempotent (fun x => x == '.')
      (Text.trim raw).toList.reverse]

theorem LabelInner.not_whitespace {x : Char} (h : LabelInner x) : Text.isWhitespace x = false := by
  rcases h with (h | h) | rfl
  · have h₁ : 97 ≤ x.toNat := UInt32.le_iff_toNat_le.1 h.1
    have h₂ : x.toNat ≤ 122 := UInt32.le_iff_toNat_le.1 h.2
    exact Text.isWhitespace_eq_false (by omega) (by omega)
  · have h₁ : 48 ≤ x.toNat := UInt32.le_iff_toNat_le.1 h.1
    have h₂ : x.toNat ≤ 57 := UInt32.le_iff_toNat_le.1 h.2
    exact Text.isWhitespace_eq_false (by omega) (by omega)
  · decide

theorem not_whitespace_of_mem_names {x : Char} (h : v.toList ∈ certificateNames) (hx : x ∈ v.toList) :
    Text.isWhitespace x = false := by
  rcases inner_of_mem_names h hx with rfl | rfl | hinner
  · decide
  · decide
  · exact hinner.not_whitespace

/-- An accepted name is accepted as it is. -/
theorem normalizeCertificateIdentifier_idem (h : normalizeCertificateIdentifier raw = .ok v) :
    normalizeCertificateIdentifier v = .ok v := by
  obtain ⟨rfl, hmem⟩ := normalizeCertificateIdentifier_ok.1 h
  refine normalizeCertificateIdentifier_ok.2 ⟨?_, hmem⟩
  have htrim : Text.trim (canonicalIdentifier raw) = canonicalIdentifier raw :=
    Text.trim_eq_self fun x hx => not_whitespace_of_mem_names hmem hx
  have hlower : Text.toAsciiLowercase (canonicalIdentifier raw) = canonicalIdentifier raw := by
    rw [Text.toAsciiLowercase, List.map_congr_left fun x hx =>
      Text.lowerChar_of_not_upper (canonicalIdentifier_not_upper hx)]
    simp
  conv_rhs => rw [canonicalIdentifier]
  rw [htrim, trimEnd_canonicalIdentifier, hlower]

/-! ## The names of an order -/

/-- Each value where it is first, without those to be left out. -/
def firsts (skip : String → Bool) (values : List String) : List String :=
  (values.foldl (fun ids v => if skip v || ids.contains v then ids else v :: ids) []).reverse

/-- The loop adds each value once, before what it has. -/
theorem firsts_loop (skip : String → Bool) (values acc : List String) (hacc : acc.Nodup) :
    ∃ new, values.foldl (fun ids v => if skip v || ids.contains v then ids else v :: ids) acc = new ++ acc ∧
      (new ++ acc).Nodup ∧ ∀ x, x ∈ new ++ acc ↔ x ∈ acc ∨ x ∈ values ∧ skip x = false := by
  induction values generalizing acc with
  | nil => exact ⟨[], rfl, hacc, fun x => by simp⟩
  | cons v values ih =>
    rw [List.foldl_cons]
    split
    · rename_i h
      obtain ⟨new, hnew, hnodup, hmem⟩ := ih acc hacc
      refine ⟨new, hnew, hnodup, fun x => ?_⟩
      rw [hmem, List.mem_cons]
      constructor
      · rintro (hx | ⟨hx, hskip⟩)
        · exact .inl hx
        · exact .inr ⟨.inr hx, hskip⟩
      · rintro (hx | ⟨rfl | hx, hskip⟩)
        · exact .inl hx
        · rw [hskip, Bool.false_or, List.contains_iff_mem] at h
          exact .inl h
        · exact .inr ⟨hx, hskip⟩
    · rename_i h
      rw [Bool.or_eq_true, not_or, Bool.not_eq_true, List.contains_iff_mem] at h
      obtain ⟨new, hnew, hnodup, hmem⟩ := ih (v :: acc) (List.nodup_cons.2 ⟨h.2, hacc⟩)
      refine ⟨new ++ [v], by rw [hnew]; simp, by simpa using hnodup, fun x => ?_⟩
      rw [List.append_assoc, List.singleton_append, hmem, List.mem_cons, List.mem_cons]
      constructor
      · rintro ((rfl | hx) | ⟨hx, hskip⟩)
        · exact .inr ⟨.inl rfl, h.1⟩
        · exact .inl hx
        · exact .inr ⟨.inr hx, hskip⟩
      · rintro (hx | ⟨rfl | hx, hskip⟩)
        · exact .inl (.inr hx)
        · exact .inl (.inl rfl)
        · exact .inr ⟨hx, hskip⟩

theorem firsts_nodup (skip : String → Bool) (values : List String) : (firsts skip values).Nodup := by
  obtain ⟨new, hnew, hnodup, -⟩ := firsts_loop skip values [] List.nodup_nil
  rw [firsts, hnew]
  exact List.nodup_reverse.2 hnodup

theorem mem_firsts {skip : String → Bool} {values : List String} {x : String} :
    x ∈ firsts skip values ↔ x ∈ values ∧ skip x = false := by
  obtain ⟨new, hnew, -, hmem⟩ := firsts_loop skip values [] List.nodup_nil
  rw [firsts, hnew, List.mem_reverse, hmem]
  simp

/-- The first value stays in front. -/
theorem head?_firsts {skip : String → Bool} {x : String} (hx : skip x = false) (values : List String) :
    (firsts skip (x :: values)).head? = some x := by
  obtain ⟨new, hnew, -, -⟩ := firsts_loop skip values [x] (List.nodup_singleton x)
  rw [firsts, List.foldl_cons, if_neg (by simp [hx]), hnew]
  simp

theorem mapM_eq_ok {ε α β : Type} {f : α → Except ε β} {as : List α} {bs : List β} :
    as.mapM f = .ok bs ↔ List.Forall₂ (fun a b => f a = .ok b) as bs := by
  induction as generalizing bs with
  | nil =>
    rw [List.mapM_nil, List.forall₂_nil_left_iff]
    exact ⟨fun h => (Except.ok.inj h).symm, fun h => h ▸ rfl⟩
  | cons a as ih =>
    rw [List.mapM_cons, bind_eq_ok, List.forall₂_cons_left_iff]
    simp only [bind_eq_ok, ih]
    constructor
    · rintro ⟨b, hb, bs', hbs, h⟩
      exact ⟨b, bs', hb, hbs, (Except.ok.inj h).symm⟩
    · rintro ⟨b, bs', hb, hbs, rfl⟩
      exact ⟨b, hb, bs', hbs, rfl⟩

theorem mem_of_mapM {ε α β : Type} {f : α → Except ε β} {as : List α} {bs : List β} {b : β} (h : as.mapM f = .ok bs) :
    b ∈ bs ↔ ∃ a ∈ as, f a = .ok b := by
  induction mapM_eq_ok.1 h with
  | nil => simp
  | cons hab hall ih =>
    rename_i a b' as bs
    rw [List.mem_cons, ih (mapM_eq_ok.2 hall)]
    constructor
    · rintro (rfl | ⟨a', ha', hb⟩)
      · exact ⟨a, List.mem_cons_self, hab⟩
      · exact ⟨a', List.mem_cons_of_mem a ha', hb⟩
    · rintro ⟨a', ha', hb⟩
      rcases List.mem_cons.1 ha' with rfl | ha'
      · exact .inl (Except.ok.inj (hb.symm.trans hab))
      · exact .inr ⟨a', ha', hb⟩

theorem mapM_isOk_iff {ε α β : Type} {f : α → Except ε β} {as : List α} :
    (∃ bs, as.mapM f = .ok bs) ↔ ∀ a ∈ as, ∃ b, f a = .ok b := by
  induction as with
  | nil => simp [pure, Except.pure]
  | cons a as ih =>
    simp only [List.mapM_cons, bind_eq_ok, List.forall_mem_cons, ← ih]
    constructor
    · rintro ⟨_, b, hb, bs, hbs, -⟩
      exact ⟨⟨b, hb⟩, bs, hbs⟩
    · rintro ⟨⟨b, hb⟩, bs, hbs⟩
      exact ⟨_, b, hb, bs, hbs, rfl⟩

/-- The names of an order, each of them once, with the common name in front. -/
theorem normalizeCertificateSans_ok {commonName : String} {rawSans out : List String}
    (h : normalizeCertificateSans commonName rawSans = .ok out) :
    out.Nodup ∧ (∃ v, normalizeCertificateIdentifier commonName = .ok v ∧ out.head? = some v) ∧
      ∀ v, v ∈ out ↔ ∃ raw ∈ commonName :: rawSans, normalizeCertificateIdentifier raw = .ok v := by
  obtain ⟨identifiers, hall, hout⟩ := bind_eq_ok.1 h
  have hout : firsts (fun _ => false) identifiers = out := Except.ok.inj hout
  subst hout
  refine ⟨firsts_nodup _ _, ?_, fun v => ?_⟩
  · obtain ⟨v, rest, hv, -, rfl⟩ := List.forall₂_cons_left_iff.1 (mapM_eq_ok.1 hall)
    exact ⟨v, hv, head?_firsts rfl rest⟩
  · rw [mem_firsts, mem_of_mapM hall]
    exact and_iff_left rfl

/-- All names are accepted if each of them is. -/
theorem normalizeCertificateSans_ok_iff {commonName : String} {rawSans : List String} :
    (∃ out, normalizeCertificateSans commonName rawSans = .ok out) ↔
      ∀ raw ∈ commonName :: rawSans, ∃ v, normalizeCertificateIdentifier raw = .ok v := by
  rw [← mapM_isOk_iff]
  unfold normalizeCertificateSans
  simp only [bind_eq_ok]
  constructor
  · rintro ⟨out, identifiers, hall, -⟩
    exact ⟨identifiers, hall⟩
  · rintro ⟨identifiers, hall⟩
    exact ⟨_, identifiers, hall, rfl⟩

/-- Of the names of an order that names nothing else, the worker finds one. -/
theorem uniqueIdentifiers_self (h : v.toList ∈ certificateNames) : uniqueIdentifiers v [v] = [v] := by
  have htrim : Text.trim v = v := Text.trim_eq_self fun x hx => not_whitespace_of_mem_names h hx
  simp [uniqueIdentifiers, htrim, (checks_of_mem h).1]

end Names

/-! ## Certificates of orders -/

/-- The worker finds one identifier for the stored certificate. -/
def OneIdentifier (s : CertState) (certificateId : Option Uuid) : Prop :=
  ∃ (id : Uuid) (c : CertificateRecord), certificateId = some id ∧ s.world.store.certificates[id]? = some c ∧
    (uniqueIdentifiers c.commonName c.sans).length = 1

section Orders

variable {p : Platform} {rows : RowOrder} {s : CertState}

/-- The hub over the tables, alone. -/
abbrev hubAlone (p : Platform) (rows : RowOrder) : Spec (hubSig.faulty AppError) CertState :=
  .alone (certHubHandler p rows) (fun _ _ => True) fun _ => True

/-- A new certificate is stored with its names. -/
theorem orderCertificate_stores (commonName : String) (sans : List String) :
    wp (answered (hubAlone p rows)) (orderCertificate none commonName sans)
      (fun id s' => ∃ c, s'.world.store.certificates[id]? = some c ∧ c.commonName = commonName ∧ c.sans = sans)
      (fun _ _ => True) s := by
  rw [orderCertificate, wp_getOr]
  refine ⟨fun id hid => by (cases hid), fun _ => ?_⟩
  simp only [repo, wp_bind, wp_call_answered, wp_pure]
  refine ⟨trivial, fun id _ _ => ⟨trivial, fun code _ _ => ⟨trivial, fun stub _ _ => ⟨trivial, fun now _ _ =>
    ⟨trivial, fun _ _ _ => ?_⟩⟩⟩⟩⟩
  exact ⟨_, Std.ExtTreeMap.getElem?_insert_self, rfl, rfl⟩

/-- The calls after it leave it as it is. -/
theorem OneIdentifier.call {id : Uuid} {c : HubCall} (h : OneIdentifier s (some id))
    (hc : c.effect ≠ some .certificate) : OneIdentifier (certHubHandler p rows c s).2 (some id) := by
  obtain ⟨id, certificate, hid, hstored, hone⟩ := h
  refine ⟨id, certificate, hid, ?_, hone⟩
  rw [certificates_of_effect hc]
  exact hstored

/-- An order for a new certificate, of one name. -/
theorem issueCertificateOrder_one {v : String} (hv : v.toList ∈ certificateNames) (siteId : Option Uuid) (zoneId : Uuid)
    (zoneName acmeProvider orderType : String) :
    wp (answered (hubAlone p rows)) (issueCertificateOrder siteId none v [v] zoneId zoneName acmeProvider orderType)
      (fun response s' => OneIdentifier s' response.certificateId) (fun _ _ => True) s := by
  rw [issueCertificateOrder, wp_bind]
  refine wp_mono (fun id s' hs => ?_) (fun _ _ _ => trivial) (orderCertificate_stores v [v])
  obtain ⟨c, hc, hname, hsans⟩ := hs
  have hone : OneIdentifier s' (some id) := by
    refine ⟨id, c, rfl, hc, ?_⟩
    rw [hname, hsans, uniqueIdentifiers_self hv]
    rfl
  simp only [repo, wp_bind, wp_call_answered, wp_pure]
  refine ⟨trivial, fun token _ _ => ⟨trivial, fun orderId _ _ => ⟨trivial, fun now _ _ => ⟨trivial, fun _ _ _ => ?_⟩⟩⟩⟩
  have huuid : OneIdentifier (certHubHandler p rows .newUuid (certHubHandler p rows .newUuid s').2).2 (some id) :=
    (hone.call (by simp [HubCall.effect])).call (by simp [HubCall.effect])
  exact (huuid.call (by simp [HubCall.effect])).call (by simp [HubCall.effect])

/-- `create_certificate_order`. -/
theorem createCertificateOrder_one (request : CreateCertificateOrderRequest) :
    wp (answered (hubAlone p rows)) (createCertificateOrder request)
      (fun response s' => OneIdentifier s' response.certificateId) (fun _ _ => True) s := by
  have hsite : wp (answered (hubAlone p rows)) (requestedSite request.siteId) (fun _ _ => True)
    (fun _ _ => True) s := by
    cases request.siteId with
    | none => exact (wp_pure _).2 trivial
    | some id => simp [requestedSite, repo]
  simp only [createCertificateOrder, wp_bind, wp_ensure, implies_true, and_true]
  refine fun _ => wp_mono ?_ (fun _ _ _ => trivial) hsite
  intro site s' _
  simp only [repo, wp_call_answered, wp_okOr, wp_attempt, implies_true, and_true, true_and]
  intro domain _ commonName hcommon sans hsans hcount found _ zone _ _ _
  have hnames := (normalizeCertificateIdentifier_ok.1 hcommon).2
  have hsingle : sans = [commonName] := by
    obtain ⟨-, ⟨v, hv, hhead⟩, -⟩ := normalizeCertificateSans_ok hsans
    rw [normalizeCertificateIdentifier_idem hcommon] at hv
    obtain rfl : commonName = v := Except.ok.inj hv
    rw [Bool.not_eq_true', decide_eq_false_iff_not, not_lt] at hcount
    cases sans with
    | nil => cases hhead
    | cons first rest =>
      obtain rfl : first = commonName := Option.some.inj hhead
      obtain rfl : rest = [] := List.length_eq_zero_iff.1 (Nat.le_zero.1 (Nat.le_of_succ_le_succ hcount))
      rfl
  rw [hsingle]
  exact fun _ => issueCertificateOrder_one hnames _ _ _ _ _

/-- `renew_site_certificate` of a site without a certificate. -/
theorem renewSiteCertificate_one {siteId : Uuid} (hnone : s.siteCertificates siteId = []) :
    wp (answered (hubAlone p rows)) (renewSiteCertificate siteId)
      (fun response s' => OneIdentifier s' response.certificateId) (fun _ _ => True) s := by
  simp only [renewSiteCertificate, repo, wp_bind, wp_call_answered, wp_okOr, wp_ensure, wp_forSome,
    wp_throw, wp_attempt, wp_pure, implies_true, and_true, true_and]
  intro found _ _ site _ _ certificates hcertificates _ orders _ _ _ commonName hcommon zones _ _ zone _
  have hempty : certificates = [] := by
    cases hcertificates
    exact hnone
  rw [hempty]
  exact issueCertificateOrder_one (normalizeCertificateIdentifier_ok.1 hcommon).2 _ _ _ _ _

/-- What a request of the hub returns, if it is not refused, holds of the tables it leaves. -/
theorem holds_of_accepted {α : Type} {x : HubM α} {a : α} {P : α → CertState → Prop}
    (hwp : wp (answered (hubAlone p rows)) x P (fun _ _ => True) s)
    (h : (Fallible.run (certHubHandler p rows) (faulty x) s).1 = .ok a) :
    P a (Fallible.run (certHubHandler p rows) (faulty x) s).2 := by
  have hfaulty := wp_faulty (fun _ _ _ _ _ _ => trivial) hwp
  have hend := (wp_run (fun _ _ _ _ => trivial) trivial hfaulty).1
  rw [h] at hend
  exact hend

end Orders

/-- **The names of certificates.** The hub accepts the names of the language in any spelling, and brings them to one
spelling; the names of an order are those that it was given, each of them once; and for the certificate of each order
that is accepted for a new certificate, the worker finds one identifier. -/
theorem certificate_names_agree :
    (∀ raw v, normalizeCertificateIdentifier raw = .ok v ↔
      v = canonicalIdentifier raw ∧ v.toList ∈ certificateNames) ∧
    (∀ raw v, normalizeCertificateIdentifier raw = .ok v → normalizeCertificateIdentifier v = .ok v) ∧
    (∀ commonName rawSans, ((∃ out, normalizeCertificateSans commonName rawSans = .ok out) ↔
        ∀ raw ∈ commonName :: rawSans, ∃ v, normalizeCertificateIdentifier raw = .ok v) ∧
      ∀ out, normalizeCertificateSans commonName rawSans = .ok out →
        out.Nodup ∧ (∃ v, normalizeCertificateIdentifier commonName = .ok v ∧ out.head? = some v) ∧
          ∀ v, v ∈ out ↔ ∃ raw ∈ commonName :: rawSans, normalizeCertificateIdentifier raw = .ok v) ∧
    ∀ (p : Platform) (rows : RowOrder) (s : CertState),
      (∀ request response,
        (Fallible.run (certHubHandler p rows) (faulty (createCertificateOrder request)) s).1 = .ok response →
          OneIdentifier (Fallible.run (certHubHandler p rows) (faulty (createCertificateOrder request)) s).2
            response.certificateId) ∧
      ∀ siteId response, s.siteCertificates siteId = [] →
        (Fallible.run (certHubHandler p rows) (faulty (renewSiteCertificate siteId)) s).1 = .ok response →
          OneIdentifier (Fallible.run (certHubHandler p rows) (faulty (renewSiteCertificate siteId)) s).2
            response.certificateId := by
  refine ⟨fun raw v => normalizeCertificateIdentifier_ok, fun raw v => normalizeCertificateIdentifier_idem,
    fun commonName rawSans => ⟨normalizeCertificateSans_ok_iff, fun out => normalizeCertificateSans_ok⟩,
    fun p rows s => ⟨fun request response h => ?_, fun siteId response hnone h => ?_⟩⟩
  · exact holds_of_accepted (createCertificateOrder_one request) h
  · exact holds_of_accepted (renewSiteCertificate_one hnone) h

end PingoraMesh
