import PingoraMesh.Domain
import PingoraMesh.Lib.Text

/-!
# Release versions

`ReleasePlanner::build_release_version` writes the scope, the clock to the second and a serial. The calendar is the
proleptic Gregorian one of `chrono`, and `civil_inj` says that it tells any two days apart; `stamp_inj` and
`buildReleaseVersion_inj` then recover everything that went into a version, for the three scopes the program uses.
-/

namespace PingoraMesh

/-! ## The calendar -/

/-- A day of the proleptic Gregorian calendar. -/
structure Civil where
  year : Int
  month : Nat
  day : Nat
  deriving DecidableEq, Repr

/-- A day of a 400-year era that starts on a 1st of March, as year of the era and day of that year. -/
structure EraDay where
  yoe : Nat
  doy : Nat
  deriving DecidableEq

/-- Split a day of the era into centuries, leap cycles and years; the last of each may be a day longer. -/
def eraDay (doe : Nat) : EraDay :=
  let century := min (doe / 36524) 3
  let rest := doe - 36524 * century
  let cycle := rest / 1461
  let rest := rest - 1461 * cycle
  let year := min (rest / 365) 3
  { yoe := 100 * century + 4 * cycle + year, doy := rest - 365 * year }

/-- The calendar day of a number of days since 1970-01-01. -/
def civil (z : Int) : Civil :=
  let era := (z + 719468) / 146097
  let e := eraDay ((z + 719468) % 146097).toNat
  let mp := (5 * e.doy + 2) / 153
  let month := if mp < 10 then mp + 3 else mp - 9
  { year := e.yoe + era * 400 + (if month ≤ 2 then 1 else 0)
    month := month
    day := e.doy - (153 * mp + 2) / 5 + 1 }

example : civil 0 = ⟨1970, 1, 1⟩ := by decide
example : civil 20571 = ⟨2026, 4, 28⟩ := by decide
example : civil (-719469) = ⟨0, 2, 29⟩ := by decide

theorem eraDay_bounds {doe : Nat} (h : doe < 146097) : (eraDay doe).yoe ≤ 399 ∧ (eraDay doe).doy ≤ 365 := by
  simp only [eraDay]
  omega

/-- A year of the era is in a leap cycle of 25 in a century, and in one year of four there. -/
theorem eraDay_spec {d : Nat} (hd : d < 146097) : ∃ c q y, q ≤ 24 ∧ y ≤ 3 ∧ (eraDay d).yoe = 100 * c + 4 * q + y ∧
    d = 36524 * c + 1461 * q + 365 * y + (eraDay d).doy := by
  have hcentury : 36524 * min (d / 36524) 3 ≤ d ∧ d ≤ 36524 * min (d / 36524) 3 + 36524 := by omega
  refine ⟨_, _, _, ?_, ?_, rfl, ?_⟩
  · omega
  · exact Nat.min_le_right _ _
  · simp only [eraDay]
    generalize min (d / 36524) 3 = c at hcentury ⊢
    obtain ⟨r, rfl⟩ := Nat.exists_eq_add_of_le hcentury.1
    rw [Nat.add_sub_cancel_left]
    omega

theorem eraDay_inj {d d' : Nat} (hd : d < 146097) (hd' : d' < 146097) (h : eraDay d = eraDay d') : d = d' := by
  obtain ⟨c, q, y, hq, hy, hyoe, hdoe⟩ := eraDay_spec hd
  obtain ⟨c', q', y', hq', hy', hyoe', hdoe'⟩ := eraDay_spec hd'
  rw [h, hyoe'] at hyoe
  rw [h] at hdoe
  obtain rfl : c = c' := by omega
  obtain rfl : q = q' := by omega
  omega

/-- The calendar tells any two days apart. -/
theorem civil_inj {z z' : Int} (h : civil z = civil z') : z = z' := by
  have hlt : ∀ z : Int, ((z + 719468) % 146097).toNat < 146097 := fun z => by omega
  have hb := eraDay_bounds (hlt z)
  have hb' := eraDay_bounds (hlt z')
  have he := eraDay_inj (hlt z) (hlt z')
  simp only [civil, Civil.mk.injEq] at h
  generalize eraDay ((z + 719468) % 146097).toNat = e at h hb he
  generalize eraDay ((z' + 719468) % 146097).toNat = e' at h hb' he
  obtain ⟨yoe, doy⟩ := e
  obtain ⟨yoe', doy'⟩ := e'
  simp only [EraDay.mk.injEq] at h hb hb' he
  obtain ⟨hy, hm, hd⟩ := h
  have hmp : (5 * doy + 2) / 153 = (5 * doy' + 2) / 153 := by split at hm <;> split at hm <;> omega
  have hdoy : doy = doy' := by rw [hmp] at hd; omega
  rw [hm] at hy
  have hyoe : yoe = yoe' := by omega
  have := he ⟨hyoe, hdoy⟩
  omega

/-! ## Time stamps -/

/-- `%Y` of `chrono`: four digits, with a sign outside of 0..9999. -/
def yearText (y : Int) : List Char :=
  if 0 ≤ y ∧ y ≤ 9999 then Text.pad 4 y.toNat
  else (if y < 0 then '-' else '+') :: Text.pad 4 y.natAbs

/-- `%Y%m%d%H%M%S`. -/
def stamp (t : DateTime) : List Char :=
  let secs := DateTime.timestamp t
  let day := civil (secs / 86400)
  let tod := (secs % 86400).toNat
  yearText day.year ++ Text.pad 2 day.month ++ Text.pad 2 day.day ++ Text.pad 2 (tod / 3600) ++
    Text.pad 2 (tod / 60 % 60) ++ Text.pad 2 (tod % 60)

/-- `ReleasePlanner::build_release_version`. -/
def buildReleaseVersion (scope : String) (issuedAt : DateTime) (serial : Nat) : String :=
  "rel-" ++ scope ++ "-" ++ String.ofList (stamp issuedAt) ++ "-" ++ String.ofList (Text.pad 3 serial)

example : buildReleaseVersion "site" 1777340096000000000 7 = "rel-site-20260428013456-007" := by decide

theorem yearText_inj {y y' : Int} (h : yearText y = yearText y') : y = y' := by
  have hd : ∀ (n : Nat) (c : Char) (l : List Char), Text.pad 4 n = c :: l → c ≠ '-' ∧ c ≠ '+' := by
    intro n c l e
    have : c.isDigit := Text.isDigit_of_mem_pad (by rw [e]; exact List.mem_cons_self)
    constructor <;> rintro rfl <;> exact absurd this (by decide)
  unfold yearText at h
  by_cases hy : 0 ≤ y ∧ y ≤ 9999 <;> by_cases hy' : 0 ≤ y' ∧ y' ≤ 9999
  · rw [if_pos hy, if_pos hy'] at h
    have := Text.pad_inj h
    omega
  · rw [if_pos hy, if_neg hy'] at h
    have := hd _ _ _ h
    split at this <;> simp at this
  · rw [if_neg hy, if_pos hy'] at h
    have := hd _ _ _ h.symm
    split at this <;> simp at this
  · rw [if_neg hy, if_neg hy', List.cons.injEq] at h
    obtain ⟨hsign, hdigits⟩ := h
    have := Text.pad_inj hdigits
    by_cases h0 : y < 0 <;> by_cases h0' : y' < 0 <;> simp [h0, h0'] at hsign <;> omega

theorem civil_fields_lt (z : Int) : (civil z).month < 100 ∧ (civil z).day < 100 := by
  have := eraDay_bounds (show ((z + 719468) % 146097).toNat < 146097 by omega)
  simp only [civil]
  constructor
  · split <;> omega
  · omega

/-- A stamp determines its second. -/
theorem stamp_inj {t t' : DateTime} (h : stamp t = stamp t') : DateTime.timestamp t = DateTime.timestamp t' := by
  simp only [stamp] at h
  generalize DateTime.timestamp t = s at h ⊢
  generalize DateTime.timestamp t' = s' at h ⊢
  have hl : ∀ n, n < 100 → (Text.pad 2 n).length = 2 := fun n hn => Text.length_pad (by decide) (by simpa using hn)
  have hf := civil_fields_lt (s / 86400)
  have hf' := civil_fields_lt (s' / 86400)
  obtain ⟨h, h1⟩ := List.append_inj' h (by rw [hl _ (by omega), hl _ (by omega)])
  obtain ⟨h, h2⟩ := List.append_inj' h (by rw [hl _ (by omega), hl _ (by omega)])
  obtain ⟨h, h3⟩ := List.append_inj' h (by rw [hl _ (by omega), hl _ (by omega)])
  obtain ⟨h, h4⟩ := List.append_inj' h (by rw [hl _ hf.2, hl _ hf'.2])
  obtain ⟨h, h5⟩ := List.append_inj' h (by rw [hl _ hf.1, hl _ hf'.1])
  have hday : s / 86400 = s' / 86400 := by
    apply civil_inj
    have e : ∀ c : Civil, c = ⟨c.year, c.month, c.day⟩ := fun _ => rfl
    rw [e (civil (s / 86400)), yearText_inj h, Text.pad_inj h4, Text.pad_inj h5]
  have e1 := Text.pad_inj h1
  have e2 := Text.pad_inj h2
  have e3 := Text.pad_inj h3
  omega

/-! ## Versions -/

/-- The scopes that go into a release version: `save_site_release`, `save_site_cleanup_release` and
`execute_site_failover`. -/
def releaseScopes : List String := ["site", "cleanup", "failover"]

/-- The serial of a version, whatever its scope. -/
theorem buildReleaseVersion_serial {scope scope' : String} {t t' : DateTime} {n n' : Nat}
    (h : buildReleaseVersion scope t n = buildReleaseVersion scope' t' n') :
    "rel-".toList ++ scope.toList ++ "-".toList ++ stamp t = "rel-".toList ++ scope'.toList ++ "-".toList ++ stamp t' ∧
      n = n' := by
  have hs : ∀ k, '-' ∉ Text.pad 3 k := fun k hk => absurd (Text.isDigit_of_mem_pad hk) (by decide)
  have h := congrArg String.toList h
  simp only [buildReleaseVersion, String.toList_append, String.toList_ofList] at h
  have e : "-".toList = ['-'] := by decide
  rw [e, List.append_assoc, List.append_assoc (_ ++ stamp t')] at h
  obtain ⟨h1, h2⟩ := Text.append_sep_inj h (hs n) (hs n')
  exact ⟨h1, Text.pad_inj h2⟩

/-- A version determines its scope, its second and its serial. -/
theorem buildReleaseVersion_inj {scope scope' : String} {t t' : DateTime} {n n' : Nat} (hs : scope ∈ releaseScopes)
    (hs' : scope' ∈ releaseScopes) (h : buildReleaseVersion scope t n = buildReleaseVersion scope' t' n') :
    scope = scope' ∧ DateTime.timestamp t = DateTime.timestamp t' ∧ n = n' := by
  obtain ⟨h1, hn⟩ := buildReleaseVersion_serial h
  have hsc : scope = scope' := by
    have h5 := congrArg (·[4]?) h1
    simp only [releaseScopes, List.mem_cons, List.not_mem_nil, or_false] at hs hs'
    rcases hs with rfl | rfl | rfl <;> rcases hs' with rfl | rfl | rfl <;> first | rfl | simp at h5
  subst hsc
  exact ⟨rfl, stamp_inj (List.append_cancel_left h1), hn⟩

end PingoraMesh
