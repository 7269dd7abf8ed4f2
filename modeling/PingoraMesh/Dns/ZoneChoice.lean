import PingoraMesh.Dns.Names
import PingoraMesh.Failover.Policy

/-!
# The zone of a domain

The hub, the dns-worker and the failover-worker look for the zone of a domain: of the zones that cover it, they take the
one with the longest name. The first two compare names in their one spelling, but the lengths of the names as they are
stored; the failover-worker compares the names as they are stored.

* `domainMatchesZone_labels`: the test of hub and dns-worker, by labels;
* `zone_agreed_iff`: all three take the most specific zone, in whatever order they read the zones, exactly if its stored
  name is the end of the domain as it is written and the longest of those that one of the tests accepts;
* `zone_disagreed`: a domain with a capital letter.
-/

namespace PingoraMesh

open Calls HubService

/-! ## What is asked for -/

/-- The labels of a name, in its one spelling. -/
def nameLabels (name : String) : List (List Char) := Text.splitChars '.' (canonicalIdentifier name).toList

/-- The labels of an identifier, less the label of a wildcard. -/
def identifierLabels (identifier : String) : List (List Char) :=
  Text.splitChars '.' (Text.toAsciiLowercase (Text.trimEndMatches '.' (certificateDnsDomain identifier))).toList

/-- The zone is active, and its labels are the last ones of the domain. -/
def Covers (domain : String) (zone : DnsZoneRecord) : Prop :=
  zone.status = "active" ∧ nameLabels zone.zoneName <:+ nameLabels domain

instance (domain : String) (zone : DnsZoneRecord) : Decidable (Covers domain zone) :=
  inferInstanceAs (Decidable (_ ∧ _))

/-- The zone covers the domain, and no other has more labels. -/
def MostSpecific (zones : List DnsZoneRecord) (domain : String) (best : DnsZoneRecord) : Prop :=
  Covers domain best ∧ ∀ zone ∈ zones, Covers domain zone →
    (nameLabels zone.zoneName).length ≤ (nameLabels best.zoneName).length

instance (zones : List DnsZoneRecord) (domain : String) (best : DnsZoneRecord) :
    Decidable (MostSpecific zones domain best) := inferInstanceAs (Decidable (_ ∧ _))

/-- The zone that is asked for: the most specific one, or none if no zone covers the domain. -/
def IsZoneOf (zones : List DnsZoneRecord) (domain : String) : Option DnsZoneRecord → Prop
  | some best => best ∈ zones ∧ MostSpecific zones domain best
  | none => ∀ zone ∈ zones, ¬ Covers domain zone

/-- A zone with its provider, as the failover-worker reads it. -/
def DnsZoneRecord.snapshot (zone : DnsZoneRecord) (provider : DnsProviderRecord) : DnsZoneSnapshot where
  zoneId := zone.zoneId
  providerId := zone.providerId
  providerType := provider.providerType
  apiEndpoint := provider.apiEndpoint
  credentials := provider.credentials
  zoneName := zone.zoneName
  externalZoneId := zone.externalZoneId
  status := zone.status

/-- The policy names no zone. -/
def NoZoneNamed (config : List (String × Value)) : Prop :=
  ((config.lookup "zone_id").bind Value.asStr).bind Uuid.parseStr = none ∧ configText config "zone_name" = none

/-- The three take the zone that is asked for, in whatever order they read the zones. -/
def ZoneAgreed (zones : List DnsZoneRecord) (domain commonName : String) : Prop :=
  ∀ (hubZones workerZones failoverZones : List DnsZoneRecord) (provider : DnsZoneRecord → DnsProviderRecord)
    (config : List (String × Value)), hubZones.Perm zones →
    workerZones.Perm (zones.filter fun zone => zone.status == "active") → failoverZones.Perm zones →
      NoZoneNamed config →
    ∃ choice, IsZoneOf zones domain choice ∧ renewalZone hubZones commonName = choice ∧
      enqueueZone workerZones commonName = choice ∧
      (selectDnsFailoverZone domain config (failoverZones.map fun zone => zone.snapshot (provider zone))).toOption =
        choice.map fun zone => zone.snapshot (provider zone)

/-- One of the tests of the three accepts the zone. -/
def ZoneAccepted (domain commonName : String) (zone : DnsZoneRecord) : Prop :=
  zone.status = "active" ∧
    (domainMatchesZone commonName zone.zoneName = true ∨ domainBelongsToZone domain zone.zoneName = true)

instance (domain commonName : String) (zone : DnsZoneRecord) : Decidable (ZoneAccepted domain commonName zone) :=
  inferInstanceAs (Decidable (_ ∧ _))

/-- The most specific zone is spelled as in the domain, and has the longest spelling; or no spelling is as in the
domain. -/
def SpelledAlike (zones : List DnsZoneRecord) (domain commonName : String) : Prop :=
  (∀ best ∈ zones, MostSpecific zones domain best → domainMatchesZone commonName best.zoneName = true ∧
    domainBelongsToZone domain best.zoneName = true ∧ ∀ zone ∈ zones,
      ZoneAccepted domain commonName zone → zone ≠ best → zone.zoneName.utf8ByteSize < best.zoneName.utf8ByteSize) ∧
  ((∀ zone ∈ zones, ¬ Covers domain zone) →
    ∀ zone ∈ zones, zone.status = "active" → domainBelongsToZone domain zone.zoneName = false)

instance (zones : List DnsZoneRecord) (domain commonName : String) : Decidable (SpelledAlike zones domain commonName) :=
  inferInstanceAs (Decidable (_ ∧ (_ → _)))

/-! ## The tests -/

section Tests

variable {domain commonName zoneName : String}

/-- The one spelling of a name does not end with a dot. -/
theorem getLast?_canonicalIdentifier (raw : String) : (canonicalIdentifier raw).toList.getLast? ≠ some '.' := by
  intro hlast
  obtain ⟨pre, hpre⟩ := List.getLast?_eq_some_iff.1 hlast
  have htrim := trimEnd_canonicalIdentifier raw
  rw [Text.trimEndMatches, hpre, List.reverse_concat, List.dropWhile_cons_of_pos (by simp)] at htrim
  have hlength := congrArg (fun s => s.toList.length) htrim
  have hle := (List.dropWhile_sublist (l := pre.reverse) (· == '.')).length_le
  simp [hpre] at hlength
  simp at hle
  omega

/-- The test of hub and dns-worker, by labels: a wildcard is left out. -/
theorem domainMatchesZone_labels (identifier zoneName : String) :
    domainMatchesZone identifier zoneName = true ↔ nameLabels zoneName <:+ identifierLabels identifier := by
  unfold domainMatchesZone
  exact Text.ends_at_word_iff _ _

/-- The same of an identifier that is normalised. -/
theorem domainMatchesZone_iff (h : normalizeCertificateIdentifier domain = .ok commonName) :
    domainMatchesZone commonName zoneName = true ↔
      nameLabels zoneName <:+ Text.splitChars '.' (certificateDnsDomain commonName).toList := by
  obtain ⟨rfl, hmem⟩ := normalizeCertificateIdentifier_ok.1 h
  have hbase : Text.toAsciiLowercase (Text.trimEndMatches '.' (certificateDnsDomain (canonicalIdentifier domain))) =
      certificateDnsDomain (canonicalIdentifier domain) := by
    have hlast : (certificateDnsDomain (canonicalIdentifier domain)).toList.getLast? ≠ some '.' := by
      rw [certificateDnsDomain_toList]
      split
      · rw [List.getLast?_drop]
        split
        · simp
        · exact getLast?_canonicalIdentifier domain
      · exact getLast?_canonicalIdentifier domain
    rw [Text.trimEndMatches_eq_self hlast, Text.toAsciiLowercase, List.map_congr_left fun x hx =>
      Text.lowerChar_of_not_upper (canonicalIdentifier_not_upper (certificateDnsDomain_subset hx))]
    simp
  rw [domainMatchesZone_labels, identifierLabels, hbase]

/-- What they accept covers the domain. -/
theorem covers_of_matches (h : normalizeCertificateIdentifier domain = .ok commonName)
    (hmatch : domainMatchesZone commonName zoneName = true) : nameLabels zoneName <:+ nameLabels domain := by
  refine ((domainMatchesZone_iff h).1 hmatch).trans ?_
  obtain ⟨rfl, -⟩ := normalizeCertificateIdentifier_ok.1 h
  rw [certificateDnsDomain_toList]
  split
  · rename_i hstar
    obtain ⟨ds, hds⟩ := startsWith_wildcard.1 hstar
    have hsplit := Text.splitChars_append_sep '.' ['*'] ds
    rw [nameLabels, hds]
    exact ⟨_, hsplit.symm⟩
  · exact List.suffix_refl _

end Tests

/-! ## The choice -/

/-- The choice of the failover-worker, if the policy names no zone. -/
def spelledZone (zones : List DnsZoneRecord) (domain : String) : Option DnsZoneRecord :=
  maxBy (fun l r => compare l.zoneName.utf8ByteSize r.zoneName.utf8ByteSize)
    (zones.filter fun zone => zone.status == "active" && domainBelongsToZone domain zone.zoneName)

section Choice

variable {zones : List DnsZoneRecord} {domain commonName : String} {zone best : DnsZoneRecord}

theorem selectDnsFailoverZone_eq {config : List (String × Value)} (h : NoZoneNamed config)
    (provider : DnsZoneRecord → DnsProviderRecord) :
    (selectDnsFailoverZone domain config (zones.map fun zone => zone.snapshot (provider zone))).toOption =
      (spelledZone zones domain).map fun zone => zone.snapshot (provider zone) := by
  rw [selectDnsFailoverZone, h.1, h.2, List.filter_map, spelledZone]
  dsimp only
  have hmap : ∀ l : List DnsZoneRecord, maxBy (fun l r => compare l.zoneName.utf8ByteSize r.zoneName.utf8ByteSize)
      (l.map fun zone => zone.snapshot (provider zone)) =
        (maxBy (fun l r => compare l.zoneName.utf8ByteSize r.zoneName.utf8ByteSize) l).map
          fun zone => zone.snapshot (provider zone) :=
    maxBy_map fun _ _ => rfl
  rw [hmap]
  have htest : (fun z : DnsZoneSnapshot => z.status == "active" && domainBelongsToZone domain z.zoneName) ∘
      (fun zone : DnsZoneRecord => zone.snapshot (provider zone)) =
        fun zone => zone.status == "active" && domainBelongsToZone domain zone.zoneName := rfl
  rw [htest]
  cases maxBy (fun l r => compare l.zoneName.utf8ByteSize r.zoneName.utf8ByteSize)
      (zones.filter fun zone => zone.status == "active" && domainBelongsToZone domain zone.zoneName) with
  | none => rfl
  | some zone => rfl

/-- Zones with the same labels are the same. -/
theorem eq_of_labels (hdistinct : (zones.map fun zone => canonicalIdentifier zone.zoneName).Nodup)
    (hzone : zone ∈ zones)
    (hbest : best ∈ zones) (h : nameLabels zone.zoneName = nameLabels best.zoneName) : zone = best := by
  unfold nameLabels at h
  exact List.inj_on_of_nodup_map hdistinct hzone hbest (String.toList_inj.1 (Text.splitChars_inj h))

/-- There is one most specific zone at most. -/
theorem MostSpecific.unique (hdistinct : (zones.map fun zone => canonicalIdentifier zone.zoneName).Nodup)
    (hzone : zone ∈ zones) (hbest : best ∈ zones) (h : MostSpecific zones domain zone)
      (h' : MostSpecific zones domain best) :
    zone = best := by
  have hlength := Nat.le_antisymm (h'.2 zone hzone h.1) (h.2 best hbest h'.1)
  have hsuffix := List.suffix_of_suffix_length_le h.1.2 h'.1.2 (Nat.le_of_eq hlength)
  exact eq_of_labels hdistinct hzone hbest (hsuffix.eq_of_length hlength)

/-- Some zone is most specific, if one covers the domain. -/
theorem exists_mostSpecific (hzone : zone ∈ zones) (h : Covers domain zone) :
    ∃ best ∈ zones, MostSpecific zones domain best := by
  have hmem : zone ∈ zones.filter fun zone => decide (Covers domain zone) := List.mem_filter.2 ⟨hzone, decide_eq_true h⟩
  have hsome : (maxBy (fun l r => compare (nameLabels l.zoneName).length (nameLabels r.zoneName).length)
      (zones.filter fun zone => decide (Covers domain zone))).isSome := maxBy_isSome hmem
  obtain ⟨best, hbest⟩ := Option.isSome_iff_exists.1 hsome
  obtain ⟨hin, hcovers⟩ := List.mem_filter.1 (mem_of_maxBy hbest)
  refine ⟨best, hin, of_decide_eq_true hcovers, fun other hother hcovered => ?_⟩
  exact key_le_of_maxBy hbest other (List.mem_filter.2 ⟨hother, decide_eq_true hcovered⟩)

/-- What is asked for is the most specific zone, if there is one. -/
theorem IsZoneOf.eq_some (hdistinct : (zones.map fun zone => canonicalIdentifier zone.zoneName).Nodup)
    (hbest : best ∈ zones)
    (h : MostSpecific zones domain best) {choice : Option DnsZoneRecord} (hchoice : IsZoneOf zones domain choice) :
    choice = some best := by
  cases choice with
  | none => exact absurd h.1 (hchoice best hbest)
  | some other => rw [MostSpecific.unique hdistinct hchoice.1 hbest hchoice.2 h]

/-- The other zones, and the given one after them. -/
theorem moved_last_perm (hzone : zone ∈ zones) : (zones.erase zone ++ [zone]).Perm zones :=
  (List.perm_append_singleton _ _).trans (List.perm_cons_erase hzone).symm

/-- Of zones that a test accepts the longest is found, even if it is not the last. -/
theorem longest_of_found {p : DnsZoneRecord → Bool} (hp : p zone = true)
    (h : maxBy (fun l r => compare l.zoneName.utf8ByteSize r.zoneName.utf8ByteSize)
      ((zones.erase zone ++ [zone]).filter p) = some best) (hne : zone ≠ best) :
    zone.zoneName.utf8ByteSize < best.zoneName.utf8ByteSize := by
  rw [List.filter_append, List.filter_cons_of_pos hp, List.filter_nil] at h
  exact @key_lt_of_maxBy_concat _ (fun zone : DnsZoneRecord => zone.zoneName.utf8ByteSize) _ _ _ h hne.symm

/-- The only longest of the zones that a test accepts is found. -/
theorem found_of_longest {p : DnsZoneRecord → Bool} (hbest : best ∈ zones) (hp : p best = true)
    (h : ∀ zone ∈ zones, p zone = true → zone ≠ best → zone.zoneName.utf8ByteSize < best.zoneName.utf8ByteSize) :
    maxBy (fun l r => compare l.zoneName.utf8ByteSize r.zoneName.utf8ByteSize) (zones.filter p) = some best := by
  refine @maxBy_eq_of_lt _ (fun zone : DnsZoneRecord => zone.zoneName.utf8ByteSize) _ _
    (List.mem_filter.2 ⟨hbest, hp⟩) ?_
  intro zone hzone hne
  exact h zone (List.mem_filter.1 hzone).1 (List.mem_filter.1 hzone).2 hne

theorem found_none_iff {p : DnsZoneRecord → Bool} :
    maxBy (fun l r => compare l.zoneName.utf8ByteSize r.zoneName.utf8ByteSize) (zones.filter p) = none ↔
      ∀ zone ∈ zones, p zone = false := by
  constructor
  · intro h zone hzone
    by_contra hp
    rw [Bool.not_eq_false] at hp
    have hsome : (maxBy (fun l r => compare l.zoneName.utf8ByteSize r.zoneName.utf8ByteSize) (zones.filter p)).isSome :=
      maxBy_isSome (List.mem_filter.2 ⟨hzone, hp⟩)
    rw [h] at hsome
    cases hsome
  · intro h
    have hempty : zones.filter p = [] := List.filter_eq_nil_iff.2 fun zone hzone => by simp [h zone hzone]
    rw [hempty]
    rfl

end Choice

/-- **Hub, dns-worker and failover-worker agree** on the zone of a domain, which is the most specific one, in whatever
order they read the zones, exactly if its stored name is the end of the domain as it is written and longer than any
other that is accepted. -/
theorem zone_agreed_iff (zones : List DnsZoneRecord) (domain commonName : String)
    (hname : normalizeCertificateIdentifier domain = .ok commonName)
    (hdistinct : (zones.map fun zone => canonicalIdentifier zone.zoneName).Nodup) :
    ZoneAgreed zones domain commonName ↔ SpelledAlike zones domain commonName := by
  constructor
  · intro h
    have hnone : NoZoneNamed [] := ⟨rfl, rfl⟩
    have hread := fun l hl => h l _ l (fun _ => ⟨0, "", "", none, .null, "", 0⟩) [] hl (.refl _) hl hnone
    refine ⟨fun best hbest hmost => ?_, fun hno zone hzone hactive => ?_⟩
    · -- all of them find `best`, in every order
      have hfound : ∀ l, l.Perm zones → renewalZone l commonName = some best ∧ spelledZone l domain = some best := by
        intro l hl
        obtain ⟨choice, hchoice, hhub, -, hfailover⟩ := hread l hl
        obtain rfl := IsZoneOf.eq_some hdistinct hbest hmost hchoice
        refine ⟨hhub, ?_⟩
        rw [selectDnsFailoverZone_eq hnone, Option.map_some, Option.map_eq_some_iff] at hfailover
        obtain ⟨zone, hzone, hsame⟩ := hfailover
        have hmem := hl.mem_iff.1 (List.mem_filter.1 (mem_of_maxBy hzone)).1
        have hnames : zone.zoneName = best.zoneName := congrArg DnsZoneSnapshot.zoneName hsame
        rw [hzone, eq_of_labels hdistinct hmem hbest (by rw [hnames])]
      obtain ⟨hhub, hfailover⟩ := hfound zones (.refl _)
      refine ⟨(Bool.and_eq_true_iff.1 (List.mem_filter.1 (mem_of_maxBy hhub)).2).2,
        (Bool.and_eq_true_iff.1 (List.mem_filter.1 (mem_of_maxBy hfailover)).2).2, fun zone hzone haccepted hne => ?_⟩
      obtain ⟨hhub, hfailover⟩ := hfound _ (moved_last_perm hzone)
      rcases haccepted with ⟨hactive, hmatch | hbelongs⟩
      · exact longest_of_found (by simp [hactive, hmatch]) hhub hne
      · exact longest_of_found (by simp [hactive, hbelongs]) hfailover hne
    · obtain ⟨choice, hchoice, -, -, hfailover⟩ := hread zones (.refl _)
      cases choice with
      | some best => exact absurd hchoice.2.1 (hno best hchoice.1)
      | none =>
        rw [selectDnsFailoverZone_eq hnone, Option.map_none, Option.map_eq_none_iff] at hfailover
        have htest := found_none_iff.1 hfailover zone hzone
        rw [hactive, beq_self_eq_true, Bool.true_and] at htest
        exact htest
  · rintro ⟨hmost, hnone⟩ hubZones workerZones failoverZones provider config hhub hworker hfailover hconfig
    by_cases hex : ∃ zone ∈ zones, Covers domain zone
    · obtain ⟨zone, hzone, hcovers⟩ := hex
      obtain ⟨best, hbest, hspecific⟩ := exists_mostSpecific hzone hcovers
      obtain ⟨hmatch, hbelongs, hlongest⟩ := hmost best hbest hspecific
      have hactive := hspecific.1.1
      refine ⟨some best, ⟨hbest, hspecific⟩, ?_, ?_, ?_⟩
      · refine found_of_longest (hhub.mem_iff.2 hbest) (by simp [hactive, hmatch]) fun zone hzone hp => ?_
        rw [Bool.and_eq_true, beq_iff_eq] at hp
        exact hlongest zone (hhub.mem_iff.1 hzone) ⟨hp.1, .inl hp.2⟩
      · have hin := hworker.mem_iff.2 (List.mem_filter.2 ⟨hbest, by simp [hactive]⟩)
        refine found_of_longest hin hmatch fun zone hzone hp => ?_
        obtain ⟨hzone, hactive⟩ := List.mem_filter.1 (hworker.mem_iff.1 hzone)
        exact hlongest zone hzone ⟨by simpa using hactive, .inl hp⟩
      · rw [selectDnsFailoverZone_eq hconfig]
        refine congrArg _ (found_of_longest (hfailover.mem_iff.2 hbest) (by simp [hactive, hbelongs])
          fun zone hzone hp => ?_)
        rw [Bool.and_eq_true, beq_iff_eq] at hp
        exact hlongest zone (hfailover.mem_iff.1 hzone) ⟨hp.1, .inr hp.2⟩
    · have hno : ∀ zone ∈ zones, ¬ Covers domain zone := fun zone hzone hcovers => hex ⟨zone, hzone, hcovers⟩
      refine ⟨none, hno, ?_, ?_, ?_⟩
      · refine found_none_iff.2 fun zone hzone => ?_
        by_contra hp
        rw [Bool.not_eq_false, Bool.and_eq_true, beq_iff_eq] at hp
        exact hno zone (hhub.mem_iff.1 hzone) ⟨hp.1, covers_of_matches hname hp.2⟩
      · refine found_none_iff.2 fun zone hzone => ?_
        by_contra hp
        rw [Bool.not_eq_false] at hp
        obtain ⟨hzone, hactive⟩ := List.mem_filter.1 (hworker.mem_iff.1 hzone)
        exact hno zone hzone ⟨by simpa using hactive, covers_of_matches hname hp⟩
      · rw [selectDnsFailoverZone_eq hconfig]
        refine congrArg _ (found_none_iff.2 fun zone hzone => ?_)
        by_cases hactive : zone.status = "active"
        · simp [hnone hno zone (hfailover.mem_iff.1 hzone) hactive]
        · simp [hactive]

/-! ## Zones to look at -/

/-- An active zone under a name. -/
def zoneNamed (id : Uuid) (name : String) : DnsZoneRecord :=
  { zoneId := id, providerId := 0, zoneName := name, externalZoneId := name, status := "active", createdAt := id }

/-- The zone of `shop.example.com` among those above it, spelled as it is. -/
theorem zone_agreed_shop : ZoneAgreed [zoneNamed 1 "example.com", zoneNamed 2 "shop.example.com", zoneNamed 3 "com"]
    "www.shop.example.com" "www.shop.example.com" :=
  (zone_agreed_iff [zoneNamed 1 "example.com", zoneNamed 2 "shop.example.com", zoneNamed 3 "com"]
    "www.shop.example.com" "www.shop.example.com" (by decide +kernel) (by decide +kernel)).2 (by decide +kernel)

/-- A site whose domain has a capital letter: the hub finds the zone, and the failover-worker none. -/
theorem zone_disagreed :
    normalizeCertificateIdentifier "WWW.Example.com" = .ok "www.example.com" ∧
      ¬ ZoneAgreed [zoneNamed 1 "example.com"] "WWW.Example.com" "www.example.com" := by
  refine ⟨by decide +kernel, fun h => ?_⟩
  obtain ⟨choice, -, hhub, -, hfailover⟩ := h [zoneNamed 1 "example.com"] [zoneNamed 1 "example.com"]
    [zoneNamed 1 "example.com"] (fun _ => ⟨0, "", "", none, .null, "", 0⟩) [] (.refl _) (.refl _) (.refl _) ⟨rfl, rfl⟩
  have hfound : renewalZone [zoneNamed 1 "example.com"] "www.example.com" = some (zoneNamed 1 "example.com") := by
    decide +kernel
  have hnone : spelledZone [zoneNamed 1 "example.com"] "WWW.Example.com" = none := by decide +kernel
  rw [selectDnsFailoverZone_eq ⟨rfl, rfl⟩, hnone, ← hhub, hfound] at hfailover
  cases hfailover

end PingoraMesh
