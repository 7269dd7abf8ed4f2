import PingoraMesh.Hub.Indexes
import PingoraMesh.Lib.Maps
import PingoraMesh.Lib.Pool
import PingoraMesh.Lib.Words

/-!
# Generated site codes

`slugify_site_code` and the search of `generate_unique_site_code` for a code that is free.

* `siteCodes` is the language `[a-z0-9]+(-[a-z0-9]+)*`; `slugifySiteCode_mem` and `slugifySiteCode_idem`: a slug is
  empty or one of its words, and the slug of a slug is itself;
* `siteCodeLoop_ok_iff`: the search returns the first candidate that the index does not have, if there is one among
  those that a `u32` counts;
* `exists_free_candidate`: with fewer sites than that there is a candidate that no site has;
* `site_code_fresh_iff`: the code is well formed and the first that no stored site has, exactly if the index has the
  candidates up to there as the sites have them; `IndexInv.agrees`: so it is between requests that are served one after
  another.
-/

namespace PingoraMesh

open Calls Fallible Text HubService

open scoped Computability

/-! ## The language of site codes -/

/-- `[a-z0-9]`. -/
def CodeChar (c : Char) : Prop := ('a' ≤ c ∧ c ≤ 'z') ∨ ('0' ≤ c ∧ c ≤ '9')

/-- `[a-z0-9]+(-[a-z0-9]+)*`. -/
def siteCodes : Language Char := joined '-' (letters CodeChar * (letters CodeChar)∗)

theorem CodeChar.ne_dash {c : Char} (h : CodeChar c) : c ≠ '-' := by
  rintro rfl
  exact absurd h (by unfold CodeChar; decide)

/-- Each word between dashes has a character, and only characters of a code. -/
theorem mem_siteCodes_iff {cs : List Char} :
    cs ∈ siteCodes ↔ ∀ w ∈ splitChars '-' cs, w ≠ [] ∧ ∀ x ∈ w, CodeChar x := by
  rw [siteCodes, mem_joined_iff]
  · exact forall₂_congr fun w _ => mem_letters_plus
  · intro w hw hdash
    exact ((mem_letters_plus.1 hw).2 '-' hdash).ne_dash rfl

theorem mem_siteCodes_word {w : List Char} (hne : w ≠ []) (hw : ∀ x ∈ w, CodeChar x) : w ∈ siteCodes := by
  rw [mem_siteCodes_iff, splitChars_of_notMem fun hdash => (hw '-' hdash).ne_dash rfl]
  intro v hv
  rw [List.mem_singleton.1 hv]
  exact ⟨hne, hw⟩

theorem mem_siteCodes_append {cs ds : List Char} (hcs : cs ∈ siteCodes) (hds : ds ∈ siteCodes) :
    cs ++ '-' :: ds ∈ siteCodes := by
  rw [mem_siteCodes_iff] at hcs hds ⊢
  rw [splitChars_append_sep]
  intro w hw
  rcases List.mem_append.1 hw with hw | hw
  · exact hcs w hw
  · exact hds w hw

theorem mem_siteCodes_concat {cs : List Char} {x : Char} (hcs : cs ∈ siteCodes) (hx : CodeChar x) :
    cs ++ [x] ∈ siteCodes := by
  rw [mem_siteCodes_iff] at hcs ⊢
  obtain ⟨ws, u, hu, hux⟩ := splitChars_concat hx.ne_dash cs
  rw [hu] at hcs
  rw [hux]
  intro w hw
  rcases List.mem_append.1 hw with hw | hw
  · exact hcs w (List.mem_append_left _ hw)
  · obtain ⟨-, hall⟩ := hcs u (by simp)
    rw [List.mem_singleton.1 hw]
    refine ⟨by simp, fun y hy => ?_⟩
    rcases List.mem_append.1 hy with hy | hy
    · exact hall y hy
    · exact List.mem_singleton.1 hy ▸ hx

theorem siteCode_ne_nil {cs : List Char} (h : cs ∈ siteCodes) : cs ≠ [] := by
  rintro rfl
  exact (mem_siteCodes_iff.1 h [] (List.mem_singleton.2 rfl)).1 rfl

/-- A code begins with a character that is not a dash. -/
theorem dropWhile_siteCode {cs : List Char} (h : cs ∈ siteCodes) : cs.dropWhile (· == '-') = cs := by
  rw [mem_siteCodes_iff] at h
  cases cs with
  | nil => rfl
  | cons x cs =>
    have hx : x ≠ '-' := by
      rintro rfl
      rw [splitChars, if_pos rfl] at h
      exact (h [] List.mem_cons_self).1 rfl
    rw [List.dropWhile_cons, if_neg (by simpa using hx)]

/-- And ends with one. -/
theorem dropWhile_reverse_siteCode {cs : List Char} (h : cs ∈ siteCodes) :
    cs.reverse.dropWhile (· == '-') = cs.reverse := by
  rw [mem_siteCodes_iff] at h
  rcases List.eq_nil_or_concat cs with rfl | ⟨ds, x, rfl⟩
  · rfl
  · rw [List.concat_eq_append] at h ⊢
    have hx : x ≠ '-' := by
      rintro rfl
      rw [splitChars_append_sep] at h
      exact (h [] (List.mem_append_right _ (List.mem_singleton.2 rfl))).1 rfl
    rw [List.reverse_append, List.reverse_singleton, List.singleton_append, List.dropWhile_cons,
      if_neg (by simpa using hx)]

theorem stripBoth_siteCode {cs : List Char} (h : cs ∈ siteCodes) : stripBoth (· == '-') cs = cs := by
  rw [stripBoth, dropWhile_siteCode h, dropWhile_reverse_siteCode h, List.reverse_reverse]

/-! ## Slugs -/

theorem slugChar_code {c d : Char} (h : slugChar c = some d) : CodeChar d ∨ d = '-' := by
  unfold slugChar at h
  split at h
  · rename_i hc
    cases h
    exact .inl hc
  · split at h
    · rename_i hc
      cases h
      have hn := Text.toNat_lowerChar hc
      have h₁ : 65 ≤ c.toNat := UInt32.le_iff_toNat_le.1 hc.1
      have h₂ : c.toNat ≤ 90 := UInt32.le_iff_toNat_le.1 hc.2
      refine .inl (.inl ⟨UInt32.le_iff_toNat_le.2 ?_, UInt32.le_iff_toNat_le.2 ?_⟩)
      · show 97 ≤ (Text.lowerChar c).toNat
        omega
      · show (Text.lowerChar c).toNat ≤ 122
        omega
    · split at h
      · cases h
        exact .inr rfl
      · cases h

/-- What the loop has collected: nothing, a code, or a code and a dash. The flag is up after a dash. -/
def Slugged : Bool → List Char → Prop
  | false, value => value = [] ∨ value.reverse ∈ siteCodes
  | true, value => ∃ u, value = '-' :: u ∧ u.reverse ∈ siteCodes

/-- One character more. -/
theorem Slugged.push {previousDash : Bool} {value : List Char} {c : Char} (h : Slugged previousDash value)
    (hc : CodeChar c) : Slugged false (c :: value) := by
  right
  rw [List.reverse_cons]
  cases previousDash with
  | false =>
    rcases h with rfl | h
    · exact mem_siteCodes_word (by simp) (by simpa using hc)
    · exact mem_siteCodes_concat h hc
  | true =>
    obtain ⟨u, rfl, hu⟩ := h
    rw [List.reverse_cons, List.append_assoc]
    exact mem_siteCodes_append hu (mem_siteCodes_word (by simp) (by simpa using hc))

/-- The loop ends as it goes on. -/
theorem slugLoop_slugged (cs : List Char) {previousDash : Bool} {value : List Char} (h : Slugged previousDash value) :
    ∃ previousDash', Slugged previousDash' (slugLoop cs previousDash value) := by
  induction cs generalizing previousDash value with
  | nil => exact ⟨previousDash, h⟩
  | cons c cs ih =>
    unfold slugLoop
    split
    · exact ih h
    · split
      · exact ih h
      · rename_i hopen
        rw [Bool.or_eq_true, not_or] at hopen
        obtain ⟨hflag, hempty⟩ := hopen
        rw [Bool.eq_false_iff.2 hflag] at h
        rcases h with rfl | h
        · exact absurd rfl hempty
        · have hdash : Slugged true ('-' :: value) := ⟨value, rfl, h⟩
          exact ih hdash
    · rename_i d hne hd
      rcases slugChar_code hd with hcode | hdash
      · exact ih (h.push hcode)
      · exact absurd hdash hne

/-- A slug is empty or a code. -/
theorem slugifySiteCode_mem (raw : String) : slugifySiteCode raw = "" ∨ (slugifySiteCode raw).toList ∈ siteCodes := by
  unfold slugifySiteCode trimMatches
  rw [String.toList_ofList, String.toList_ofList]
  have hstart : Slugged false [] := .inl rfl
  obtain ⟨previousDash, h⟩ := slugLoop_slugged raw.toList hstart
  generalize slugLoop raw.toList false [] = value at h ⊢
  cases previousDash with
  | false =>
    rcases h with rfl | h
    · exact .inl rfl
    · right
      rw [stripBoth_siteCode h]
      exact h
  | true =>
    obtain ⟨u, rfl, hu⟩ := h
    right
    have hstrip : stripBoth (· == '-') (u.reverse ++ ['-']) = u.reverse := by
      have hne : u.reverse.isEmpty = false := List.isEmpty_eq_false_iff.2 (siteCode_ne_nil hu)
      rw [stripBoth, List.dropWhile_append, dropWhile_siteCode hu, hne, if_neg Bool.false_ne_true, List.reverse_append,
        List.reverse_singleton, List.singleton_append, List.dropWhile_cons, if_pos (by rfl),
        dropWhile_reverse_siteCode hu, List.reverse_reverse]
    rw [List.reverse_cons, hstrip]
    exact hu

/-- A character of a code stays as it is. -/
theorem slugChar_of_code {c : Char} (h : CodeChar c) : slugChar c = some c := if_pos h

/-- The loop keeps a text whose words are words of codes; only the first may be empty, where a dash is kept. -/
theorem slugLoop_eq {cs : List Char} {previousDash : Bool} {value : List Char}
    (h : ∀ w ws, splitChars '-' cs = w :: ws → ((previousDash || value.isEmpty) = true → w ≠ []) ∧
      (∀ x ∈ w, CodeChar x) ∧ ∀ v ∈ ws, v ≠ [] ∧ ∀ x ∈ v, CodeChar x) :
    slugLoop cs previousDash value = cs.reverse ++ value := by
  induction cs generalizing previousDash value with
  | nil => rfl
  | cons c cs ih =>
    rw [splitChars] at h
    have hsome : splitChars '-' cs ≠ [] := splitChars_ne_nil
    obtain ⟨w, ws, hws⟩ := List.exists_cons_of_ne_nil hsome
    rw [hws] at h ih
    by_cases hdash : c = '-'
    · rw [if_pos hdash] at h
      obtain ⟨hopen, -, hwords⟩ := h _ _ rfl
      have hkept : ¬ (previousDash || value.isEmpty) = true := fun hblocked => hopen hblocked rfl
      have hnext : slugLoop cs true ('-' :: value) = cs.reverse ++ '-' :: value := by
        refine ih fun _ _ e => ?_
        cases e
        obtain ⟨hw, hrest⟩ := List.forall_mem_cons.1 hwords
        exact ⟨fun _ => hw.1, hw.2, hrest⟩
      rw [hdash, slugLoop]
      show (if (previousDash || value.isEmpty) = true then _ else _) = _
      rw [if_neg hkept, hnext, List.reverse_cons, List.append_assoc]
      rfl
    · rw [if_neg hdash] at h
      obtain ⟨-, hword, hrest⟩ := h _ _ rfl
      obtain ⟨hc, hw⟩ := List.forall_mem_cons.1 hword
      have hnext : slugLoop cs false (c :: value) = cs.reverse ++ c :: value := by
        refine ih fun _ _ e => ?_
        cases e
        exact ⟨fun hblocked => by simp at hblocked, hw, hrest⟩
      rw [slugLoop, slugChar_of_code hc]
      split
      · rename_i e
        cases e
      · rename_i e
        exact absurd (Option.some.inj e) hdash
      · rename_i e
        rw [← Option.some.inj e, hnext, List.reverse_cons, List.append_assoc]
        rfl

/-- A code is its own slug. -/
theorem slugifySiteCode_eq_self {code : String} (h : code.toList ∈ siteCodes) : slugifySiteCode code = code := by
  have hloop : slugLoop code.toList false [] = code.toList.reverse ++ [] := by
    refine slugLoop_eq fun w ws hws => ?_
    rw [mem_siteCodes_iff, hws] at h
    obtain ⟨hw, hrest⟩ := List.forall_mem_cons.1 h
    exact ⟨fun _ => hw.1, hw.2, hrest⟩
  rw [slugifySiteCode, hloop, List.append_nil, List.reverse_reverse, trimMatches, String.toList_ofList,
    stripBoth_siteCode h, String.ofList_toList]

theorem slugifySiteCode_idem (raw : String) : slugifySiteCode (slugifySiteCode raw) = slugifySiteCode raw := by
  rcases slugifySiteCode_mem raw with h | h
  · rw [h]
    rfl
  · exact slugifySiteCode_eq_self h

/-! ## Candidates -/

/-- The code that `generate_unique_site_code` tries with a suffix: the base itself, then `base-2`, `base-3` and so on.
-/
def candidateCode (base : String) (suffix : Nat) : String :=
  if suffix ≤ 1 then base else base ++ "-" ++ String.ofList (Text.decimal suffix)

theorem candidateCode_succ (base : String) {suffix : Nat} (h : 1 ≤ suffix) :
    candidateCode base (suffix + 1) = base ++ "-" ++ String.ofList (Text.decimal (suffix + 1)) :=
  if_neg (by omega)

theorem toList_suffixed (base : String) (digits : List Char) :
    (base ++ "-" ++ String.ofList digits).toList = base.toList ++ '-' :: digits := by
  rw [String.append_assoc, String.toList_append, String.toList_append, String.toList_ofList, String.toList_ofList]
  rfl

/-- Each candidate is tried once. -/
theorem candidateCode_inj {base : String} {m n : Nat} (hm : 1 ≤ m) (hn : 1 ≤ n)
    (h : candidateCode base m = candidateCode base n) : m = n := by
  have hlonger : ∀ k, base ≠ base ++ "-" ++ String.ofList (Text.decimal k) := by
    intro k e
    have hlength := congrArg (fun s => s.toList.length) e
    simp only [toList_suffixed, List.length_append, List.length_cons] at hlength
    omega
  unfold candidateCode at h
  split at h
  · split at h
    · omega
    · exact absurd h (hlonger n)
  · split at h
    · exact absurd h.symm (hlonger m)
    · have hlist := congrArg String.toList h
      rw [toList_suffixed, toList_suffixed] at hlist
      exact Text.decimal_inj (List.cons.inj (List.append_cancel_left hlist)).2

theorem candidateCode_mem {base : String} (h : base.toList ∈ siteCodes) (suffix : Nat) :
    (candidateCode base suffix).toList ∈ siteCodes := by
  unfold candidateCode
  split
  · exact h
  · rw [toList_suffixed]
    refine mem_siteCodes_append h (mem_siteCodes_word Nat.toDigits_ne_nil fun x hx => .inr ?_)
    have hdigit := Text.isDigit_of_mem_decimal hx
    rw [Char.isDigit, Bool.and_eq_true, decide_eq_true_eq, decide_eq_true_eq] at hdigit
    exact hdigit

/-- The code that the search starts from: the slug of what the request prefers, of the first label of the domain, or of
the name, and otherwise one made of an identifier. -/
def startCode (preferred : Option String) (name domain : String) (u : Uuid) : String :=
  (baseSiteCode preferred name domain).getD ("site-" ++ Uuid.simple u)

theorem startCode_mem (preferred : Option String) (name domain : String) (u : Uuid) :
    (startCode preferred name domain u).toList ∈ siteCodes := by
  unfold startCode
  cases hbase : baseSiteCode preferred name domain with
  | some base =>
    obtain ⟨raw, rfl, hne⟩ := slug_of_baseSiteCode hbase
    rw [Option.getD_some]
    rcases slugifySiteCode_mem raw with hempty | h
    · rw [hempty] at hne
      exact absurd hne (by decide)
    · exact h
  | none =>
    have hhex : Uuid.hexDigits u ∈ siteCodes := by
      refine mem_siteCodes_word (fun hnil => Nat.toDigits_ne_nil (List.append_eq_nil_iff.1 hnil).2) fun x hx => ?_
      obtain ⟨d, hd, rfl⟩ := Uuid.mem_hexDigits hx
      have hdigit : ∀ d < 16, CodeChar d.digitChar := by unfold CodeChar; decide
      exact hdigit d hd
    have hletters : ∀ c ∈ ['s', 'i', 't', 'e'], CodeChar c := by
      intro c hc
      simp only [List.mem_cons, List.not_mem_nil, or_false] at hc
      rcases hc with rfl | rfl | rfl | rfl
      all_goals
        unfold CodeChar
        decide
    have hsite : ['s', 'i', 't', 'e'] ∈ siteCodes := mem_siteCodes_word (by simp) hletters
    have hlist : ("site-" ++ Uuid.simple u).toList = ['s', 'i', 't', 'e'] ++ '-' :: Uuid.hexDigits u := by
      rw [String.toList_append, Uuid.simple, String.toList_ofList, String.toList_ofList]
      rfl
    rw [Option.getD_none, hlist]
    exact mem_siteCodes_append hsite hhex

/-! ## The search -/

variable {p : Platform} {w : World}

/-- The search returns the first candidate that the index does not have, among those whose suffix is a `u32`. -/
theorem siteCodeLoop_ok_iff (base : String) (fuel : Nat) {suffix : Nat} (h : 1 ≤ suffix) (code : String) :
    (Fallible.run (hubHandler p) (siteCodeLoop base fuel suffix (candidateCode base suffix)) w).1 = .ok code ↔
      ∃ k, suffix ≤ k ∧ k < suffix + fuel ∧ code = candidateCode base k ∧
        w.store.siteIdsByCode[candidateCode base k]? = none ∧
          ∀ j, suffix ≤ j → j < k → (w.store.siteIdsByCode[candidateCode base j]?).isSome := by
  induction fuel generalizing suffix with
  | zero =>
    constructor
    · intro e
      cases e
    · rintro ⟨k, hk, hlt, -⟩
      omega
  | succ fuel ih =>
    rw [siteCodeLoop, run_bind, run_call]
    dsimp only [hubHandler, World.read]
    cases hfound : w.store.siteIdsByCode[candidateCode base suffix]? with
    | none =>
      constructor
      · intro e
        cases e
        exact ⟨suffix, le_rfl, by omega, rfl, hfound, fun j hj hlt => by omega⟩
      · rintro ⟨k, hk, -, rfl, -, hbelow⟩
        rcases Nat.eq_or_lt_of_le hk with rfl | hlt
        · rfl
        · have hsome := hbelow suffix le_rfl hlt
          rw [hfound] at hsome
          cases hsome
    | some i =>
      show (Fallible.run (hubHandler p) (siteCodeLoop base fuel (suffix + 1) _) w).1 = .ok code ↔ _
      rw [← candidateCode_succ base h, ih (by omega)]
      constructor
      · rintro ⟨k, hk, hlt, rfl, hnone, hbelow⟩
        refine ⟨k, by omega, by omega, rfl, hnone, fun j hj hlt => ?_⟩
        rcases Nat.eq_or_lt_of_le hj with rfl | hj
        · rw [hfound]
          rfl
        · exact hbelow j hj hlt
      · rintro ⟨k, hk, hlt, rfl, hnone, hbelow⟩
        have hne : suffix ≠ k := by
          rintro rfl
          rw [hfound] at hnone
          cases hnone
        exact ⟨k, by omega, by omega, rfl, hnone, fun j hj hlt => hbelow j (by omega) hlt⟩

theorem generateUniqueSiteCode_ok_iff (preferred : Option String) (name domain code : String) :
    (Fallible.run (hubHandler p) (generateUniqueSiteCode preferred name domain) w).1 = .ok code ↔
      ∃ k, 1 ≤ k ∧ k < 2 ^ 32 ∧ code = candidateCode (startCode preferred name domain w.nextUuid) k ∧
        w.store.siteIdsByCode[candidateCode (startCode preferred name domain w.nextUuid) k]? = none ∧
          ∀ j, 1 ≤ j → j < k →
            (w.store.siteIdsByCode[candidateCode (startCode preferred name domain w.nextUuid) j]?).isSome := by
  rw [generateUniqueSiteCode, run_bind, startCode]
  cases hbase : baseSiteCode preferred name domain with
  | some base => exact siteCodeLoop_ok_iff base 4294967295 le_rfl code
  | none => exact siteCodeLoop_ok_iff ("site-" ++ Uuid.simple w.nextUuid) 4294967295 le_rfl code

/-- A stored site has the code. -/
def MemoryState.HasSiteCode (s : MemoryState) (code : String) : Prop :=
  ∃ (i : Uuid) (site : SiteRecord), s.sites[i]? = some site ∧ site.siteCode = code

/-- Of more candidates than there are sites, one is free. -/
theorem exists_free_candidate (s : MemoryState) (base : String) :
    ∃ k, 1 ≤ k ∧ k ≤ s.sites.size + 1 ∧ ¬ s.HasSiteCode (candidateCode base k) := by
  by_contra hall
  have hused : ∀ k, 1 ≤ k → k ≤ s.sites.size + 1 → s.HasSiteCode (candidateCode base k) := by
    intro k hk hle
    by_contra hfree
    exact hall ⟨k, hk, hle, hfree⟩
  have hsub : (List.range (s.sites.size + 1)).map (fun k => candidateCode base (k + 1)) ⊆
      s.sites.values.map (·.siteCode) := by
    intro code hcode
    obtain ⟨k, hk, rfl⟩ := List.mem_map.1 hcode
    obtain ⟨i, site, hi, hc⟩ := hused (k + 1) (by omega) (by have := List.mem_range.1 hk; omega)
    exact List.mem_map.2 ⟨site, Maps.mem_values.2 ⟨i, hi⟩, hc⟩
  have hnodup : ((List.range (s.sites.size + 1)).map fun k => candidateCode base (k + 1)).Nodup :=
    List.Nodup.map (fun m n e => by have := candidateCode_inj (by omega) (by omega) e; omega) List.nodup_range
  have hlength := (List.subperm_of_subset hnodup hsub).length_le
  rw [List.length_map, List.length_map, List.length_range, Maps.values_eq, List.length_map,
    Std.ExtTreeMap.length_toList] at hlength
  omega

/-! ## Fresh codes -/

/-- A code as it is to be for a base: one of the language, so not empty; one that no site has; and the base itself if
that is free, else the base with the least suffix from 2 on that is. -/
structure FreshCode (s : MemoryState) (base code : String) : Prop where
  wellFormed : code.toList ∈ siteCodes
  free : ¬ s.HasSiteCode code
  same : ¬ s.HasSiteCode base → code = base
  suffixed : s.HasSiteCode base → ∃ k, 2 ≤ k ∧ code = base ++ "-" ++ String.ofList (Text.decimal k) ∧
    ∀ j, 2 ≤ j → j < k → s.HasSiteCode (base ++ "-" ++ String.ofList (Text.decimal j))

/-- In terms of the candidates: the first that is free. -/
theorem freshCode_iff {s : MemoryState} {base code : String} (hbase : base.toList ∈ siteCodes) :
    FreshCode s base code ↔ ∃ k, 1 ≤ k ∧ code = candidateCode base k ∧ ¬ s.HasSiteCode (candidateCode base k) ∧
      ∀ j, 1 ≤ j → j < k → s.HasSiteCode (candidateCode base j) := by
  have hsuffixed : ∀ {j}, 2 ≤ j → candidateCode base j = base ++ "-" ++ String.ofList (Text.decimal j) :=
    fun hj => if_neg (by omega)
  constructor
  · intro h
    by_cases htaken : s.HasSiteCode base
    · obtain ⟨k, hk, hcode, hbelow⟩ := h.suffixed htaken
      have hfree := h.free
      rw [hcode, ← hsuffixed hk] at hfree
      refine ⟨k, by omega, hcode.trans (hsuffixed hk).symm, hfree, fun j hj hlt => ?_⟩
      rcases Nat.eq_or_lt_of_le hj with rfl | hj
      · exact htaken
      · rw [hsuffixed hj]
        exact hbelow j hj hlt
    · exact ⟨1, le_rfl, h.same htaken, htaken, fun j hj hlt => by omega⟩
  · rintro ⟨k, hk, rfl, hfree, hbelow⟩
    refine ⟨candidateCode_mem hbase k, hfree, fun hbasefree => ?_, fun htaken => ?_⟩
    · rcases Nat.eq_or_lt_of_le hk with rfl | hlt
      · rfl
      · exact absurd (hbelow 1 le_rfl hlt) hbasefree
    · have hne : k ≠ 1 := by
        rintro rfl
        exact hfree htaken
      refine ⟨k, by omega, hsuffixed (by omega), fun j hj hlt => ?_⟩
      rw [← hsuffixed hj]
      exact hbelow j (by omega) hlt

/-- The index has the candidates, up to the first that is free, exactly as the sites have them. -/
def CandidatesIndexed (s : MemoryState) (base : String) : Prop :=
  ∀ k, 1 ≤ k → (∀ j, 1 ≤ j → j < k → s.HasSiteCode (candidateCode base j)) →
    ((s.siteIdsByCode[candidateCode base k]?).isSome ↔ s.HasSiteCode (candidateCode base k))

/-- Between requests that are served one after another it has every code so. -/
theorem IndexInv.candidatesIndexed {hub : Nat} (h : IndexInv hub w) (base : String) :
    CandidatesIndexed w.store base := by
  intro k _ _
  rw [Option.isSome_iff_exists]
  exact exists_congr fun i => h.sites.exact (candidateCode base k) i

/-- `slugify_site_code` gives nothing or a word of the language, and the same again for it. In a store with fewer than
2^32 - 1 sites `generate_unique_site_code` ends and gives a fresh code exactly if the index has the candidates. -/
theorem site_code_fresh_iff (p : Platform) (w : World) (preferred : Option String) (name domain : String)
    (hsites : w.store.sites.size < 2 ^ 32 - 1) :
    (∀ raw, (slugifySiteCode raw = "" ∨ (slugifySiteCode raw).toList ∈ siteCodes) ∧
      slugifySiteCode (slugifySiteCode raw) = slugifySiteCode raw) ∧
    ((∃ code, (Fallible.run (hubHandler p) (generateUniqueSiteCode preferred name domain) w).1 = .ok code ∧
        FreshCode w.store (startCode preferred name domain w.nextUuid) code) ↔
      CandidatesIndexed w.store (startCode preferred name domain w.nextUuid)) := by
  refine ⟨fun raw => ⟨slugifySiteCode_mem raw, slugifySiteCode_idem raw⟩, ?_⟩
  have hmem := startCode_mem preferred name domain w.nextUuid
  simp only [generateUniqueSiteCode_ok_iff, freshCode_iff hmem]
  generalize startCode preferred name domain w.nextUuid = base
  constructor
  · -- The first candidate that the index lacks is the first that no site has.
    rintro ⟨code, ⟨k, hk, -, rfl, hnone, hbelow⟩, m, hm, hcode, hfree, htaken⟩
    obtain rfl := candidateCode_inj hk hm hcode
    intro j hj hprev
    rcases Nat.lt_trichotomy j k with hlt | rfl | hgt
    · exact iff_of_true (hbelow j hj hlt) (htaken j hj hlt)
    · rw [hnone]
      exact iff_of_false (by decide) hfree
    · exact absurd (hprev k hk hgt) hfree
  · intro hindexed
    classical
    have hexists : ∃ k, 1 ≤ k ∧ ¬ w.store.HasSiteCode (candidateCode base k) :=
      (exists_free_candidate w.store base).imp fun k h => ⟨h.1, h.2.2⟩
    obtain ⟨hk, hfree⟩ := Nat.find_spec hexists
    have htaken : ∀ j, 1 ≤ j → j < Nat.find hexists → w.store.HasSiteCode (candidateCode base j) := by
      intro j hj hlt
      by_contra hnot
      exact Nat.find_min hexists hlt ⟨hj, hnot⟩
    have hbound : Nat.find hexists < 2 ^ 32 := by
      obtain ⟨k, hk, hle, hfree⟩ := exists_free_candidate w.store base
      have hmin := Nat.find_min' hexists ⟨hk, hfree⟩
      omega
    generalize Nat.find hexists = k at hk hfree htaken hbound
    have hnone : w.store.siteIdsByCode[candidateCode base k]? = none := by
      rw [← Option.not_isSome_iff_eq_none, hindexed k hk htaken]
      exact hfree
    have hbelow : ∀ j, 1 ≤ j → j < k → (w.store.siteIdsByCode[candidateCode base j]?).isSome := by
      intro j hj hlt
      exact (hindexed j hj fun i hi hij => htaken i hi (by omega)).2 (htaken j hj hlt)
    exact ⟨candidateCode base k, ⟨k, hk, hbound, rfl, hnone, hbelow⟩, k, hk, rfl, hfree, htaken⟩

/-- Two sites of one domain, created one after the other. -/
def shopsInTurn : World := World.init.serveAll .plain ⟨0, 30⟩ [.site "shop.example.com", .site "shop.example.com"]

/-- Neither request renames anything. -/
theorem shopsInTurn_index : IndexInv 0 shopsInTurn := by
  have hfirst := @IndexInv.serve .plain ⟨0, 30⟩ World.init (IndexInv.init 0) (.site "shop.example.com") id
  exact @IndexInv.serve .plain ⟨0, 30⟩ _ hfirst (.site "shop.example.com") id

/-- The code of the domain is taken, and so is the first with a suffix: the search goes on to the next one. -/
theorem site_code_fresh_third :
    shopsInTurn.store.HasSiteCode "shop" ∧ shopsInTurn.store.HasSiteCode "shop-2" ∧
      (Fallible.run (hubHandler .plain) (generateUniqueSiteCode none "Shop" "shop.example.com") shopsInTurn).1 =
        .ok "shop-3" ∧
      FreshCode shopsInTurn.store (startCode none "Shop" "shop.example.com" shopsInTurn.nextUuid) "shop-3" := by
  obtain ⟨hfirst, hsecond, hrun, hsize⟩ :
      shopsInTurn.store.sites[0]?.map (·.siteCode) = some "shop" ∧
      shopsInTurn.store.sites[1]?.map (·.siteCode) = some "shop-2" ∧
      (Fallible.run (hubHandler .plain) (generateUniqueSiteCode none "Shop" "shop.example.com") shopsInTurn).1 =
        .ok "shop-3" ∧
      shopsInTurn.store.sites.size < 2 ^ 32 - 1 := by decide +kernel
  obtain ⟨site, hsite, hcode⟩ := Option.map_eq_some_iff.1 hfirst
  obtain ⟨site', hsite', hcode'⟩ := Option.map_eq_some_iff.1 hsecond
  obtain ⟨code, hok, hfresh⟩ := (site_code_fresh_iff .plain shopsInTurn none "Shop" "shop.example.com" hsize).2.2
    (shopsInTurn_index.candidatesIndexed _)
  obtain rfl : "shop-3" = code := Except.ok.inj (hrun.symm.trans hok)
  exact ⟨⟨0, site, hsite, hcode⟩, ⟨1, site', hsite', hcode'⟩, hrun, hfresh⟩

/-- Two requests create a site of the same domain at once: both find the code free before either saves. The first site
is then deleted. -/
def twoShops : List (Move Nat Request) :=
  [.spawn 0 (.site "shop.example.com"), .spawn 1 (.site "shop.example.com"), .go 0, .go 1, .go 0, .go 0, .go 1, .go 1,
    .spawn 2 (.deleteSite 0), .go 2, .go 2]

/-- The state that they leave. -/
def afterTwoShops : World :=
  (Pool.exec (hubHandler .plain) (fun r => ExceptT.run (program .plain ⟨0, 30⟩ r))
    (Pool.init World.init) twoShops).state

/-- Deleting the one site takes the code of the other out of the index: it is generated again. -/
theorem site_code_not_fresh :
    afterTwoShops.store.sites.size < 2 ^ 32 - 1 ∧
      ¬ ∃ code, (Fallible.run (hubHandler .plain) (generateUniqueSiteCode none "Shop" "shop.example.com")
          afterTwoShops).1 = .ok code ∧
        FreshCode afterTwoShops.store (startCode none "Shop" "shop.example.com" afterTwoShops.nextUuid) code := by
  have hsize : afterTwoShops.store.sites.size < 2 ^ 32 - 1 := by decide +kernel
  refine ⟨hsize, fun ⟨code, hcode, hfresh⟩ => ?_⟩
  have hrun : (Fallible.run (hubHandler .plain) (generateUniqueSiteCode none "Shop" "shop.example.com")
      afterTwoShops).1 = .ok "shop" := by decide +kernel
  obtain rfl := Except.ok.inj (hrun.symm.trans hcode)
  have hstored : afterTwoShops.store.sites[1]?.map (·.siteCode) = some "shop" := by decide +kernel
  obtain ⟨site, hsite, hsame⟩ := Option.map_eq_some_iff.1 hstored
  exact hfresh.free ⟨1, site, hsite, hsame⟩

end PingoraMesh
