import PingoraMesh.Dns.Provider
import PingoraMesh.Lib.Words

/-!
# The names of DNS records

The Cloudflare client puts the name of a record together from a host and the name of a zone. A host that ends in the
text of the zone is taken for the whole name, and the test for that does not look for the dot in between.

* `onlyAt_createRecord`, `onlyAt_updateRecord`, `onlyAt_deleteRecord`: whatever becomes of the requests of an operation,
  it leaves the records at all other names as they were;
* `record_name_in_zone_iff`: the name that they address is in the zone unless the host ends with a label that merely
  ends in the text of the zone (`EndsInLabel`);
* `record_name_outside_zone`: such a host.
-/

namespace PingoraMesh

/-! ## What is asked for -/

/-- The name is the zone, or lies below it. -/
def InZone (zoneName name : String) : Prop := name = zoneName ∨ Text.endsWith name ("." ++ zoneName) = true

instance (zoneName name : String) : Decidable (InZone zoneName name) := inferInstanceAs (Decidable (_ ∨ _))

/-- The records at other names are as they were, in every zone and of every type. -/
def RemoteDns.OnlyAt (name : String) (r r' : RemoteDns) : Prop :=
  ∀ zoneId recordType other, other ≠ name → r'.recordsAt zoneId recordType other = r.recordsAt zoneId recordType other

/-- The operations of the client on one record. -/
def recordOperations : List ((Nat → Delivery) → DnsRecordChange → RemoteM Unit) :=
  [Cloudflare.createRecord, Cloudflare.updateRecord, Cloudflare.deleteRecord]

/-- The name of a host is in the zone, is its own name, and is the one that all operations for the host address. -/
structure NamedInZone (host zoneName : String) : Prop where
  inZone : InZone zoneName (normalizeRecordName host zoneName)
  idempotent : normalizeRecordName (normalizeRecordName host zoneName) zoneName = normalizeRecordName host zoneName
  addressed : ∀ (net : Nat → Delivery) (change : DnsRecordChange), change.host = host → change.zoneName = zoneName →
    ∀ operation ∈ recordOperations, (operation net change).Moves (RemoteDns.OnlyAt (normalizeRecordName host zoneName))

/-- The host ends in the text of the zone, in the middle of a label. -/
def EndsInLabel (host zoneName : String) : Prop :=
  host ≠ "@" ∧ Text.endsWith host zoneName = true ∧ host ≠ zoneName ∧ Text.endsWith host ("." ++ zoneName) = false

/-! ## The name -/

section Name

variable (host zoneName : String)

theorem endsWith_self (s : String) : Text.endsWith s s = true :=
  List.isSuffixOf_iff_suffix.2 (List.suffix_refl _)

theorem endsWith_append (s t : String) : Text.endsWith (s ++ t) t = true := by
  rw [Text.endsWith, String.toList_append, List.isSuffixOf_iff_suffix]
  exact List.suffix_append _ _

/-- What ends in the text of the zone is left as it is. -/
theorem normalizeRecordName_of_endsWith {name : String} (h : Text.endsWith name zoneName = true) (hat : name ≠ "@") :
    normalizeRecordName name zoneName = name := by
  rw [normalizeRecordName, if_neg hat, if_pos h]

/-- A name is not extended twice. -/
theorem normalizeRecordName_idem :
    normalizeRecordName (normalizeRecordName host zoneName) zoneName = normalizeRecordName host zoneName := by
  by_cases hat : host = "@"
  · have hzone : normalizeRecordName host zoneName = zoneName := if_pos hat
    rw [hzone]
    by_cases hz : zoneName = "@"
    · exact if_pos hz
    · exact normalizeRecordName_of_endsWith _ (endsWith_self _) hz
  · by_cases hends : Text.endsWith host zoneName = true
    · rw [normalizeRecordName_of_endsWith _ hends hat, normalizeRecordName_of_endsWith _ hends hat]
    · have hlong : normalizeRecordName host zoneName = host ++ "." ++ zoneName := by
        rw [normalizeRecordName, if_neg hat, if_neg hends]
      rw [hlong]
      refine normalizeRecordName_of_endsWith _ (endsWith_append _ _) fun hone => ?_
      -- a dot is no part of `@`
      have hdot : '.' ∈ (host ++ "." ++ zoneName).toList := by simp
      rw [hone] at hdot
      exact absurd hdot (by decide)

theorem inZone_normalizeRecordName_iff : InZone zoneName (normalizeRecordName host zoneName) ↔
    ¬ EndsInLabel host zoneName := by
  unfold EndsInLabel
  by_cases hat : host = "@"
  · have hzone : normalizeRecordName host zoneName = zoneName := if_pos hat
    rw [hzone]
    exact ⟨fun _ h => h.1 hat, fun _ => .inl rfl⟩
  · by_cases hends : Text.endsWith host zoneName = true
    · rw [normalizeRecordName_of_endsWith _ hends hat, InZone]
      constructor
      · rintro hin ⟨-, -, hne, hsuffix⟩
        rcases hin with heq | hdot
        · exact hne heq
        · rw [hsuffix] at hdot
          cases hdot
      · intro hin
        by_contra hout
        obtain ⟨hne, hdot⟩ := not_or.1 hout
        exact hin ⟨hat, hends, hne, Bool.eq_false_iff.2 hdot⟩
    · have hlong : normalizeRecordName host zoneName = host ++ ("." ++ zoneName) := by
        rw [normalizeRecordName, if_neg hat, if_neg hends, String.append_assoc]
      have hin : InZone zoneName (normalizeRecordName host zoneName) := by
        right
        rw [hlong]
        exact endsWith_append _ _
      exact ⟨fun _ h => hends h.2.1, fun _ => hin⟩

end Name

/-! ## The operations -/

section Operations

open Act RemoteDns

variable {net : Nat → Delivery} {name : String} {r : RemoteDns}

theorem RemoteDns.OnlyAt.refl (r : RemoteDns) : r.OnlyAt name r := fun _ _ _ _ => rfl

theorem RemoteDns.OnlyAt.trans (r₁ r₂ r₃ : RemoteDns) (h : OnlyAt name r₁ r₂) (h' : OnlyAt name r₂ r₃) :
    OnlyAt name r₁ r₃ :=
  fun zoneId recordType other hne => (h' zoneId recordType other hne).trans (h zoneId recordType other hne)

/-- Other records in a zone, with the same ones at other names. -/
theorem onlyAt_setZone {zoneId : String} {xs : List ZoneRecord} {n : Nat} {hn hlt hnd}
    (h : ∀ recordType other, other ≠ name → xs.filter (fun x => x.recordType == recordType && x.name == other) =
      (r.zone zoneId).filter fun x => x.recordType == recordType && x.name == other) :
    OnlyAt name r (r.setZone zoneId xs n hn hlt hnd) := by
  intro z recordType other hne
  rw [recordsAt, recordsAt, zone_setZone]
  split
  · rename_i hz
    rw [h recordType other hne, hz]
  · rfl

theorem onlyAt_post (zoneId recordType content : String) (ttl : Nat) (r : RemoteDns) :
    OnlyAt name r (r.post zoneId recordType name content ttl) := by
  refine onlyAt_setZone fun type other hne => ?_
  have hnew :
      [({ id := r.nextId, recordType := recordType, name := name, content := content, ttl := ttl } : ZoneRecord)].filter
      (fun x => x.recordType == type && x.name == other) = [] := by simp [hne.symm]
  rw [List.filter_append, hnew, List.append_nil]

theorem onlyAt_put {zoneId recordType content : String} {ttl : Nat} {x : ZoneRecord} (hx : x ∈ r.zone zoneId)
    (hname : x.name = name) : OnlyAt name r (r.put zoneId x.id recordType name content ttl) := by
  refine onlyAt_setZone fun type other hne => ?_
  rw [List.filter_map]
  have hinj : ∀ y ∈ r.zone zoneId, y.id = x.id → y = x := fun y hy e =>
    List.inj_on_of_nodup_map (r.nodup zoneId) hy hx e
  -- the record that is replaced is at the name before and after
  have hsame : (r.zone zoneId).filter ((fun y => y.recordType == type && y.name == other) ∘
      ZoneRecord.replace x.id recordType name content ttl) =
      (r.zone zoneId).filter fun y => y.recordType == type && y.name == other := by
    refine List.filter_congr fun y hy => ?_
    by_cases hid : y.id = x.id
    · have hnew : (name == other) = false := beq_eq_false_iff_ne.2 hne.symm
      rw [hinj y hy hid]
      simp [ZoneRecord.replace, hname, hnew]
    · simp [ZoneRecord.replace, hid]
  rw [hsame]
  refine (List.map_congr_left fun y hy => ?_).trans (List.map_id _)
  obtain ⟨hy, hat⟩ := List.mem_filter.1 hy
  have hid : y.id ≠ x.id := by
    intro hid
    rw [hinj y hy hid, hname] at hat
    simp [hne.symm] at hat
  exact if_neg hid

theorem onlyAt_delete {zoneId : String} {x : ZoneRecord} (hx : x ∈ r.zone zoneId) (hname : x.name = name) :
    OnlyAt name r (r.delete zoneId x.id) := by
  refine onlyAt_setZone fun type other hne => ?_
  rw [List.filter_filter]
  refine List.filter_congr fun y hy => ?_
  by_cases hid : y.id = x.id
  · rw [List.inj_on_of_nodup_map (r.nodup zoneId) hy hx hid]
    simp [hname, hne.symm]
  · simp [hid]

/-- A request that is carried out or not. -/
theorem ask_wp {α : Type} {action : String} {f : RemoteDns → α × RemoteDns} {Q : α → RemoteDns → Prop}
    {E : RemoteDns → Prop} (hdone : Q (f r).1 { (f r).2 with asked := r.asked + 1 })
    (hrefused : E { r with asked := r.asked + 1 }) (hlost : E { (f r).2 with asked := r.asked + 1 }) :
    (ask net action f).wp Q (fun _ => E) r :=
  wp_ask_iff.2 ⟨fun _ => hdone, fun _ => hrefused, fun _ => hlost⟩

/-- The records are those of `r`. -/
def SameRecords (r r' : RemoteDns) : Prop := r'.records = r.records

theorem SameRecords.onlyAt {r' : RemoteDns} (h : SameRecords r r') : OnlyAt name r r' := by
  intro zoneId recordType other _
  simp only [recordsAt, zone, show r'.records = r.records from h]

theorem zoneIdOf_wp (change : DnsRecordChange) :
    (Cloudflare.zoneIdOf net change).wp (fun _ => SameRecords r) (fun _ => SameRecords r) r := by
  unfold Cloudflare.zoneIdOf
  split
  · exact (wp_pure _).2 rfl
  · rw [Cloudflare.getZoneIdByName, wp_bind]
    refine ask_wp ?_ rfl rfl
    split
    · exact (wp_pure _).2 rfl
    · exact (wp_fail _).2 rfl

variable (net) (change : DnsRecordChange)

theorem onlyAt_createRecord :
    (Cloudflare.createRecord net change).Moves (OnlyAt (normalizeRecordName change.host change.zoneName)) := by
  refine moves_of_wp fun r => ?_
  rw [Cloudflare.createRecord, wp_bind]
  refine wp_mono (fun zoneId r₁ h₁ => ?_) (fun _ _ h₁ => h₁.onlyAt) (zoneIdOf_wp change)
  have hpost : OnlyAt (normalizeRecordName change.host change.zoneName) r₁ (r₁.post zoneId change.recordType
      (normalizeRecordName change.host change.zoneName) change.value change.ttl) := onlyAt_post _ _ _ _ _
  exact ask_wp (.trans _ _ _ h₁.onlyAt hpost) h₁.onlyAt (.trans _ _ _ h₁.onlyAt hpost)

/-- The record is looked up by the name and then replaced by one at the name. -/
theorem onlyAt_updateRecord :
    (Cloudflare.updateRecord net change).Moves (OnlyAt (normalizeRecordName change.host change.zoneName)) := by
  refine moves_of_wp fun r => ?_
  simp only [Cloudflare.updateRecord, Cloudflare.findRecordIdByName, wp_bind]
  refine wp_mono (fun zoneId r₁ h₁ => ?_) (fun _ _ h₁ => h₁.onlyAt) (zoneIdOf_wp change)
  refine ask_wp ?_ h₁.onlyAt h₁.onlyAt
  cases hx : (r₁.recordsAt zoneId change.recordType (normalizeRecordName change.host change.zoneName)).head? with
  | none => exact (wp_fail _).2 h₁.onlyAt
  | some x =>
    obtain ⟨hmem, hat⟩ := List.mem_filter.1 (List.mem_of_mem_head? hx)
    rw [Bool.and_eq_true, beq_iff_eq, beq_iff_eq] at hat
    have hput : OnlyAt (normalizeRecordName change.host change.zoneName) r₁
        (r₁.put zoneId x.id change.recordType (normalizeRecordName change.host change.zoneName)
          change.value change.ttl) :=
      onlyAt_put hmem hat.2
    exact ask_wp (.trans _ _ _ h₁.onlyAt hput) h₁.onlyAt (.trans _ _ _ h₁.onlyAt hput)

/-- The record is looked up by the name, and then deleted. -/
theorem onlyAt_deleteRecord :
    (Cloudflare.deleteRecord net change).Moves (OnlyAt (normalizeRecordName change.host change.zoneName)) := by
  refine moves_of_wp fun r => ?_
  simp only [Cloudflare.deleteRecord, Cloudflare.findRecordId, wp_bind]
  refine wp_mono (fun zoneId r₁ h₁ => ?_) (fun _ _ h₁ => h₁.onlyAt) (zoneIdOf_wp change)
  refine ask_wp ?_ h₁.onlyAt h₁.onlyAt
  cases hx : (r₁.recordsAt zoneId change.recordType (normalizeRecordName change.host change.zoneName)).find?
      (·.content == change.value) with
  | none => exact (wp_pure _).2 h₁.onlyAt
  | some x =>
    obtain ⟨hmem, hat⟩ := List.mem_filter.1 (List.mem_of_find?_eq_some hx)
    rw [Bool.and_eq_true, beq_iff_eq, beq_iff_eq] at hat
    have hdelete : OnlyAt (normalizeRecordName change.host change.zoneName) r₁ (r₁.delete zoneId x.id) :=
      onlyAt_delete hmem hat.2
    exact ask_wp (.trans _ _ _ h₁.onlyAt hdelete) h₁.onlyAt (.trans _ _ _ h₁.onlyAt hdelete)

end Operations

/-- The record of a host is named in its zone, and addressed under one name by all operations, unless the host ends in
the text of the zone in the middle of a label. -/
theorem record_name_in_zone_iff (host zoneName : String) : NamedInZone host zoneName ↔ ¬ EndsInLabel host zoneName := by
  constructor
  · exact fun h => (inZone_normalizeRecordName_iff host zoneName).1 h.inZone
  · intro h
    refine ⟨(inZone_normalizeRecordName_iff host zoneName).2 h, normalizeRecordName_idem host zoneName, ?_⟩
    rintro net change rfl rfl operation hoperation
    rcases List.mem_cons.1 hoperation with rfl | hoperation
    · exact onlyAt_createRecord net change
    · rcases List.mem_cons.1 hoperation with rfl | hoperation
      · exact onlyAt_updateRecord net change
      · rw [List.mem_singleton] at hoperation
        subst hoperation
        exact onlyAt_deleteRecord net change

/-- The host `badexample.com` of the zone `example.com`. -/
theorem record_name_outside_zone : ¬ NamedInZone "badexample.com" "example.com" := by
  intro h
  exact absurd h.inZone (by decide)

end PingoraMesh
