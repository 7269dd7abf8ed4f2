import PingoraMesh.Domain
import PingoraMesh.Lib.Act
import PingoraMesh.Lib.Text

/-!
# DNS providers

`crates/dns-provider`: the Cloudflare client and the provider that does nothing. What lies behind the client is
`RemoteDns`: the zones of the service and the records in each. A request to the service may be carried out and
answered, refused, or carried out with its answer lost on the way (`Delivery`); which of them is left open for each
request.
-/

namespace PingoraMesh

/-! ## Types of the interface -/

structure ProviderZone where
  zoneId : String
  zoneName : String
  status : String
  deriving DecidableEq, Repr

structure DnsRecordChange where
  zoneId : Option String
  zoneName : String
  recordType : String
  host : String
  value : String
  ttl : Nat
  deriving DecidableEq, Repr

structure AcmeChallenge where
  zoneId : Option String
  zoneName : String
  fqdn : String
  value : String
  ttl : Nat
  deriving DecidableEq, Repr

structure ProviderConfig where
  providerType : String
  apiEndpoint : Option String
  credentials : Value
  deriving Repr

/-! ## The service -/

/-- A record of a zone. -/
structure ZoneRecord where
  id : Nat
  recordType : String
  name : String
  content : String
  ttl : Nat
  deriving DecidableEq, Repr

/-- A record with other contents. -/
def ZoneRecord.replace (id : Nat) (recordType name content : String) (ttl : Nat) (x : ZoneRecord) : ZoneRecord :=
  if x.id = id then { id := id, recordType := recordType, name := name, content := content, ttl := ttl } else x

@[simp] theorem ZoneRecord.replace_id (id : Nat) (recordType name content : String) (ttl : Nat) (x : ZoneRecord) :
    (ZoneRecord.replace id recordType name content ttl x).id = x.id := by
  unfold ZoneRecord.replace
  split
  · simp_all
  · rfl

/-- What becomes of a request. -/
inductive Delivery where
  | done
  | refused
  | lost
  deriving DecidableEq, Repr

/-- The zones of the service, the records of each zone, the next record identifier and the number of requests so far.
An identifier is used once. -/
structure RemoteDns where
  zones : List ProviderZone
  records : HashMap String (List ZoneRecord)
  nextId : Nat
  asked : Nat
  lt : ∀ zoneId, ∀ x ∈ records.getD zoneId [], x.id < nextId
  nodup : ∀ zoneId, ((records.getD zoneId []).map (·.id)).Nodup

/-- Calls to the service: an error leaves what was carried out. -/
abbrev RemoteM := Act RemoteDns String

namespace RemoteDns

/-- A service with zones and no records. -/
def ofZones (zones : List ProviderZone) : RemoteDns := ⟨zones, ∅, 0, 0, by simp, by simp⟩

/-- The records of a zone. -/
def zone (r : RemoteDns) (zoneId : String) : List ZoneRecord := r.records.getD zoneId []

/-- The records of a type at a name. -/
def recordsAt (r : RemoteDns) (zoneId recordType name : String) : List ZoneRecord :=
  (r.zone zoneId).filter fun x => x.recordType == recordType && x.name == name

/-- Other records in one zone, with identifiers below `n`. -/
def setZone (r : RemoteDns) (zoneId : String) (xs : List ZoneRecord) (n : Nat) (hn : r.nextId ≤ n)
    (hlt : ∀ x ∈ xs, x.id < n) (hnd : (xs.map (·.id)).Nodup) : RemoteDns :=
  { r with
    records := r.records.insert zoneId xs
    nextId := n
    lt := by
      intro z x hx
      rw [Std.ExtTreeMap.getD_insert] at hx
      split at hx
      · exact hlt x hx
      · exact Nat.lt_of_lt_of_le (r.lt z x hx) hn
    nodup := by
      intro z
      rw [Std.ExtTreeMap.getD_insert]
      split
      · exact hnd
      · exact r.nodup z }

@[simp] theorem zone_setZone (r : RemoteDns) (zoneId z : String) (xs : List ZoneRecord) (n : Nat) (hn hlt hnd) :
    (r.setZone zoneId xs n hn hlt hnd).zone z = if z = zoneId then xs else r.zone z := by
  simp only [setZone, zone, Std.ExtTreeMap.getD_insert, Std.compare_eq_iff_eq]
  simp only [eq_comm (a := zoneId)]

/-- `POST /zones/{zone}/dns_records`. -/
def post (zoneId recordType name content : String) (ttl : Nat) (r : RemoteDns) : RemoteDns :=
  r.setZone zoneId (r.zone zoneId ++
      [{ id := r.nextId, recordType := recordType, name := name, content := content, ttl := ttl }]) (r.nextId + 1)
    (by omega)
    (by
      intro x hx
      rcases List.mem_append.1 hx with hx | hx
      · exact Nat.lt_succ_of_lt (r.lt zoneId x hx)
      · simp only [List.mem_singleton] at hx
        simp [hx])
    (by
      rw [List.map_append, List.nodup_append]
      refine ⟨r.nodup zoneId, by simp, ?_⟩
      rintro a ha b hb rfl
      obtain ⟨x, hx, rfl⟩ := List.mem_map.1 ha
      have := r.lt zoneId x hx
      simp only [List.map_cons, List.map_nil, List.mem_singleton] at hb
      omega)

/-- `PUT /zones/{zone}/dns_records/{id}`. -/
def put (zoneId : String) (id : Nat) (recordType name content : String) (ttl : Nat) (r : RemoteDns) : RemoteDns :=
  r.setZone zoneId ((r.zone zoneId).map (ZoneRecord.replace id recordType name content ttl)) r.nextId le_rfl
    (by
      intro y hy
      obtain ⟨x, hx, rfl⟩ := List.mem_map.1 hy
      simpa using r.lt zoneId x hx)
    (by
      have hid : (·.id) ∘ ZoneRecord.replace id recordType name content ttl = (·.id) := funext fun x => by simp
      rw [List.map_map, hid]
      exact r.nodup zoneId)

/-- `DELETE /zones/{zone}/dns_records/{id}`. -/
def delete (zoneId : String) (id : Nat) (r : RemoteDns) : RemoteDns :=
  r.setZone zoneId ((r.zone zoneId).filter fun x => x.id != id) r.nextId le_rfl
    (fun x hx => r.lt zoneId x (List.mem_filter.1 hx).1)
    ((r.nodup zoneId).sublist (List.filter_sublist.map _))

end RemoteDns

/-- One request to the service. -/
def ask {α : Type} (net : Nat → Delivery) (action : String) (f : RemoteDns → α × RemoteDns) : RemoteM α := fun r =>
  match net r.asked with
  | .done => (.ok (f r).1, { (f r).2 with asked := r.asked + 1 })
  | .refused => (.error (action ++ " failed"), { r with asked := r.asked + 1 })
  | .lost => (.error (action ++ " failed"), { (f r).2 with asked := r.asked + 1 })

/-- A request is answered, refused, or carried out with its answer lost. -/
theorem wp_ask_iff {α : Type} {net : Nat → Delivery} {action : String} {f : RemoteDns → α × RemoteDns}
    {Q : α → RemoteDns → Prop} {E : String → RemoteDns → Prop} {r : RemoteDns} :
    (ask net action f).wp Q E r ↔
      (net r.asked = .done → Q (f r).1 { (f r).2 with asked := r.asked + 1 }) ∧
      (net r.asked = .refused → E (action ++ " failed") { r with asked := r.asked + 1 }) ∧
      (net r.asked = .lost → E (action ++ " failed") { (f r).2 with asked := r.asked + 1 }) := by
  unfold Act.wp ask
  cases net r.asked with
  | done => exact ⟨fun h => ⟨fun _ => h, nofun, nofun⟩, fun h => h.1 rfl⟩
  | refused => exact ⟨fun h => ⟨nofun, fun _ => h, nofun⟩, fun h => h.2.1 rfl⟩
  | lost => exact ⟨fun h => ⟨nofun, nofun, fun _ => h⟩, fun h => h.2.2 rfl⟩

/-! ## The clients -/

/-- `normalize_record_name`. -/
def normalizeRecordName (host zoneName : String) : String :=
  if host = "@" then zoneName
  else if Text.endsWith host zoneName then host
  else host ++ "." ++ zoneName

/-- `CloudflareConfig`. -/
structure CloudflareConfig where
  apiToken : String
  apiBase : String
  deriving DecidableEq, Repr

/-- `CloudflareConfig::from_provider_config`. -/
def CloudflareConfig.fromProviderConfig (config : ProviderConfig) : Except String CloudflareConfig :=
  match ((config.credentials.get "api_token").bind Value.asStr).filter fun v => !Text.isEmpty (Text.trim v) with
  | none => .error "cloudflare api_token is required"
  | some apiToken =>
    .ok { apiToken := apiToken, apiBase := config.apiEndpoint.getD "https://api.cloudflare.com/client/v4" }

/-- The implementations of `DnsProvider`. -/
inductive DnsProvider where
  | cloudflare (config : CloudflareConfig)
  | noop
  deriving DecidableEq, Repr

/-- `build_provider`. -/
def buildProvider (config : ProviderConfig) : Except String DnsProvider :=
  match config.providerType with
  | "cloudflare" => (CloudflareConfig.fromProviderConfig config).map .cloudflare
  | "noop" | "custom" => .ok .noop
  | other => .error ("unsupported dns provider type: " ++ other)

namespace Cloudflare

variable (net : Nat → Delivery)

/-- `get_zone_id_by_name`. -/
def getZoneIdByName (zoneName : String) : RemoteM String := do
  let zones ← ask net "list cloudflare zone by name" fun r => (r.zones.filter (·.zoneName == zoneName), r)
  match zones.find? (·.zoneName == zoneName) with
  | some zone => return zone.zoneId
  | none => Act.fail ("cloudflare zone not found: " ++ zoneName)

/-- The zone of a change. -/
def zoneIdOf (change : DnsRecordChange) : RemoteM String :=
  match change.zoneId with
  | some zoneId => pure zoneId
  | none => getZoneIdByName net change.zoneName

/-- `find_record_id`. -/
def findRecordId (zoneId recordType name content : String) : RemoteM (Option Nat) :=
  ask net "list cloudflare dns records" fun r =>
    (((r.recordsAt zoneId recordType name).find? (·.content == content)).map (·.id), r)

/-- `find_record_id_by_name`. -/
def findRecordIdByName (zoneId recordType name : String) : RemoteM (Option Nat) :=
  ask net "list cloudflare dns records" fun r => (((r.recordsAt zoneId recordType name).head?).map (·.id), r)

/-- `create_record`. -/
def createRecord (change : DnsRecordChange) : RemoteM Unit := do
  let zoneId ← zoneIdOf net change
  ask net "create cloudflare dns record" fun r =>
    ((), r.post zoneId change.recordType (normalizeRecordName change.host change.zoneName) change.value change.ttl)

/-- `update_record`. -/
def updateRecord (change : DnsRecordChange) : RemoteM Unit := do
  let zoneId ← zoneIdOf net change
  let name := normalizeRecordName change.host change.zoneName
  match ← findRecordIdByName net zoneId change.recordType name with
  | none => Act.fail "cloudflare dns record not found for update"
  | some id =>
    ask net "update cloudflare dns record" fun r =>
      ((), r.put zoneId id change.recordType name change.value change.ttl)

/-- `delete_record`. -/
def deleteRecord (change : DnsRecordChange) : RemoteM Unit := do
  let zoneId ← zoneIdOf net change
  let name := normalizeRecordName change.host change.zoneName
  match ← findRecordId net zoneId change.recordType name change.value with
  | none => pure ()
  | some id => ask net "delete cloudflare dns record" fun r => ((), r.delete zoneId id)

end Cloudflare

/-- The TXT record of a challenge. -/
def AcmeChallenge.change (c : AcmeChallenge) : DnsRecordChange :=
  { zoneId := c.zoneId, zoneName := c.zoneName, recordType := "TXT", host := c.fqdn, value := c.value, ttl := c.ttl }

namespace DnsProvider

variable (net : Nat → Delivery)

/-- `create_record`. -/
def createRecord : DnsProvider → DnsRecordChange → RemoteM Unit
  | .cloudflare _, change => Cloudflare.createRecord net change
  | .noop, _ => pure ()

/-- `update_record`. -/
def updateRecord : DnsProvider → DnsRecordChange → RemoteM Unit
  | .cloudflare _, change => Cloudflare.updateRecord net change
  | .noop, _ => pure ()

/-- `present_dns01_challenge`. -/
def presentDns01Challenge : DnsProvider → AcmeChallenge → RemoteM Unit
  | .cloudflare _, challenge => Cloudflare.createRecord net challenge.change
  | .noop, _ => pure ()

/-- `cleanup_dns01_challenge`. -/
def cleanupDns01Challenge : DnsProvider → AcmeChallenge → RemoteM Unit
  | .cloudflare _, challenge => Cloudflare.deleteRecord net challenge.change
  | .noop, _ => pure ()

end DnsProvider

end PingoraMesh
