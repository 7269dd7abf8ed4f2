import PingoraMesh.Failover.Worker

/-!
# When a DNS failover moves the name

`apply_dns_failover` creates a record or updates one, and decides between the two by its own table. After it succeeds
the name points to the standby node alone exactly when that table told the truth about the service
(`applyDnsFailover_moves_iff`): a record that somebody else has made is left beside the new one
(`applyDnsFailover_leaves_other_record`).
-/

namespace PingoraMesh

/-! ## The records at a name -/

namespace RemoteDns

variable (r : RemoteDns) (zoneId recordType name content : String) (ttl : Nat)

/-- A new record stands behind the others. -/
theorem recordsAt_post :
    ((r.post zoneId recordType name content ttl).recordsAt zoneId recordType name).map (·.content) =
    (r.recordsAt zoneId recordType name).map (·.content) ++ [content] := by
  simp [post, recordsAt, List.filter_append]

/-- A record that is replaced at its place stays at its place, and so do the others. -/
theorem recordsAt_put {x : ZoneRecord} {xs : List ZoneRecord} (h : r.recordsAt zoneId recordType name = x :: xs) :
    ((r.put zoneId x.id recordType name content ttl).recordsAt zoneId recordType name).map (·.content) =
      content :: xs.map (·.content) := by
  have hmem : x ∈ r.zone zoneId ∧ (x.recordType == recordType && x.name == name) := by
    have hx : x ∈ r.recordsAt zoneId recordType name := h ▸ List.mem_cons_self
    exact List.mem_filter.1 hx
  have hinj : ∀ y ∈ r.zone zoneId, y.id = x.id → y = x := fun y hy e =>
    List.inj_on_of_nodup_map (r.nodup zoneId) hy hmem.1 e
  have hput : (r.put zoneId x.id recordType name content ttl).recordsAt zoneId recordType name =
      (r.recordsAt zoneId recordType name).map (ZoneRecord.replace x.id recordType name content ttl) := by
    simp only [put, recordsAt, zone_setZone, if_true, List.filter_map]
    refine congrArg _ (List.filter_congr fun y hy => ?_)
    by_cases e : y.id = x.id
    · rw [hinj y hy e]
      simpa [ZoneRecord.replace] using hmem.2
    · simp [ZoneRecord.replace, e]
  have hxs : xs.map (fun y => (ZoneRecord.replace x.id recordType name content ttl y).content) =
      xs.map (·.content) := by
    have hnd : ((x :: xs).map (·.id)).Nodup := by
      rw [← h]
      exact (r.nodup zoneId).sublist (List.filter_sublist.map _)
    refine List.map_congr_left fun y hy => ?_
    have hne : y.id ≠ x.id := fun e => (List.nodup_cons.1 hnd).1 (List.mem_map.2 ⟨y, hy, e⟩)
    simp [ZoneRecord.replace, hne]
  rw [hput, h, List.map_map, List.map_cons]
  exact congrArg₂ _ (by simp [ZoneRecord.replace]) hxs

end RemoteDns

/-- What the records of a change's type at its name hold. -/
def contentsAt (change : DnsRecordChange) (zoneId : String) (r : RemoteDns) : List String :=
  (r.recordsAt zoneId change.recordType (normalizeRecordName change.host change.zoneName)).map (·.content)

/-! ## The requests -/

section Requests

variable {net : Nat → Delivery} {change : DnsRecordChange} {zoneId : String} {r : RemoteDns}

/-- A request that is answered was carried out. -/
theorem wp_ask {α : Type} {action : String} {f : RemoteDns → α × RemoteDns} {Q : α → RemoteDns → Prop}
    (h : Q (f r).1 { (f r).2 with asked := r.asked + 1 }) : (ask net action f).wp Q (fun _ _ => True) r :=
  wp_ask_iff.2 ⟨fun _ => h, fun _ => trivial, fun _ => trivial⟩

theorem createRecord_contents (hz : change.zoneId = some zoneId) :
    (Cloudflare.createRecord net change).wp
      (fun _ r' => contentsAt change zoneId r' = contentsAt change zoneId r ++ [change.value]) (fun _ _ => True) r := by
  simp only [Cloudflare.createRecord, Cloudflare.zoneIdOf, hz, Act.wp_bind, Act.wp_pure]
  exact wp_ask (r.recordsAt_post _ _ _ _ _)

theorem updateRecord_contents (hz : change.zoneId = some zoneId) :
    (Cloudflare.updateRecord net change).wp
      (fun _ r' => ∃ c cs, contentsAt change zoneId r = c :: cs ∧ contentsAt change zoneId r' = change.value :: cs)
      (fun _ _ => True) r := by
  simp only [Cloudflare.updateRecord, Cloudflare.zoneIdOf, Cloudflare.findRecordIdByName, hz, Act.wp_bind, Act.wp_pure]
  refine wp_ask ?_
  cases hx : r.recordsAt zoneId change.recordType (normalizeRecordName change.host change.zoneName) with
  | nil => simp
  | cons x xs =>
    refine wp_ask ⟨x.content, xs.map (·.content), by simp [contentsAt, hx], ?_⟩
    exact RemoteDns.recordsAt_put _ _ _ _ _ _ hx

end Requests

theorem buildProvider_cloudflare {config : ProviderConfig} {provider : DnsProvider} {e : String → String}
    (hp : config.providerType = "cloudflare") (h : (buildProvider config).mapError e = .ok provider) :
    ∃ cf, provider = .cloudflare cf := by
  unfold buildProvider at h
  rw [hp] at h
  cases hc : CloudflareConfig.fromProviderConfig config with
  | error _ => simp [hc, Except.map, Except.mapError] at h
  | ok cf =>
    simp only [hc, Except.map, Except.mapError, Except.ok.injEq] at h
    exact ⟨cf, h.symm⟩

/-! ## The failover -/

/-- What the table of the worker says of the plan's record, against what the service has. -/
def TableFits (plan : DnsFailoverPlan) (m : Mesh) : Prop :=
  (contentsAt plan.change plan.zone.externalZoneId m.remote).length =
    if (loadDnsRecordSnapshot plan m).isSome then 1 else 0

/-- `apply_dns_failover` appends its value, or replaces the first one by it. -/
theorem applyDnsFailover_contents (net : Nat → Delivery) {plan : DnsFailoverPlan} {now : DateTime} {m : Mesh}
    (hp : plan.zone.providerType = "cloudflare") (hz : plan.change.zoneId = some plan.zone.externalZoneId) :
    (applyDnsFailover net plan now).wp
      (fun _ m' => contentsAt plan.change plan.zone.externalZoneId m'.remote = [plan.change.value] ↔ TableFits plan m)
      (fun _ _ => True) m := by
  have hupsert : ∀ (existing : Option DnsRecordRow) (m' : Mesh) (R : RemoteDns → Prop), R m'.remote →
      (upsertDnsRecordSnapshot plan existing now).wp (fun _ m'' => R m''.remote) (fun _ _ => True) m' := by
    intro existing m' R h
    cases existing with
    | some row => simpa [upsertDnsRecordSnapshot] using h
    | none => simpa [upsertDnsRecordSnapshot, TxM.newUuid] using h
  simp only [applyDnsFailover, changeRecord, TxM.remote, Act.wp_bind, Act.wp_read, Act.wp_attempt, Act.wp_choose,
    Act.wp_zoom, Act.wp_pure, implies_true, and_true]
  intro provider hb
  obtain ⟨config, rfl⟩ := buildProvider_cloudflare hp hb
  refine ⟨fun he => ?_, fun he => ?_⟩
  · refine Act.wp_mono (fun _ r' hr => ?_) (fun _ _ _ => trivial) (updateRecord_contents hz)
    obtain ⟨c, cs, h0, h1⟩ := hr
    refine hupsert _ _ (fun r => contentsAt plan.change plan.zone.externalZoneId r = [plan.change.value] ↔
      TableFits plan m) ?_
    simp [TableFits, he, h0, h1]
  · refine Act.wp_mono (fun _ r' hr => ?_) (fun _ _ _ => trivial) (createRecord_contents hz)
    refine hupsert _ _ (fun r => contentsAt plan.change plan.zone.externalZoneId r = [plan.change.value] ↔
      TableFits plan m) ?_
    simp [TableFits, he, hr]

/-- After a DNS failover that succeeds, the name holds the address of the standby node and nothing else exactly if
the table of the worker fits the service: no row and no record, or a row and one record. -/
theorem applyDnsFailover_moves_iff (net : Nat → Delivery) (site : SiteSnapshot) (policy : PolicySnapshot)
    (zones : List DnsZoneSnapshot) (plan : DnsFailoverPlan) (now : DateTime) (m m' : Mesh)
    (hplan : buildDnsFailoverPlan site policy zones = .ok (some plan)) (hp : plan.zone.providerType = "cloudflare")
    (h : applyDnsFailover net plan now m = (.ok (), m')) :
    (∃ ip, standbyAddress policy = some ip ∧
      contentsAt plan.change plan.zone.externalZoneId m'.remote = [ip]) ↔ TableFits plan m := by
  obtain ⟨haddr, hzone, -⟩ := buildDnsFailoverPlan_change hplan
  rw [← Act.wp_ok (applyDnsFailover_contents net hp hzone) h]
  constructor
  · rintro ⟨ip, hip, hc⟩
    rw [haddr, Option.some.injEq] at hip
    rw [hip]
    exact hc
  · intro hc
    exact ⟨_, haddr, hc⟩

/-! ## A name that somebody else has set -/

/-- A site whose name is moved. -/
def wwwSite : SiteSnapshot :=
  { siteId := 1, siteCode := "www", name := "www", domain := "www.example.com", listenPort := 80, protocol := .http
    tlsEnabled := false, status := .published, config := .object [], bindings := [] }

/-- A policy from node 10 to node 11 that moves the name of its site. -/
def wwwPolicy : PolicySnapshot :=
  { policyId := 2, scopeType := "site", scopeId := 1, primaryNodeId := 10, standbyNodeId := 11, triggerMode := "auto"
    failureThreshold := 3
    precheckPolicy := .object [("dns_failover", .object [("enabled", .bool true)])]
    primaryNodeCode := "a", standbyNodeCode := "b", primaryStatus := "offline", standbyStatus := "online"
    standbyPublicIp := some "203.0.113.10", primaryLastSeenAt := none, primaryActiveConfigVersion := none
    standbyActiveConfigVersion := none }

/-- The zone of the name. -/
def wwwZone : DnsZoneSnapshot :=
  { zoneId := 3, providerId := 4, providerType := "cloudflare", apiEndpoint := none
    credentials := .object [("api_token", .string "t")], zoneName := "example.com", externalZoneId := "z1"
    status := "active" }

/-- What the policy plans. -/
def wwwPlan : DnsFailoverPlan :=
  { zone := wwwZone
    change :=
      { zoneId := some "z1", zoneName := "example.com", recordType := "A", host := "www.example.com"
        value := "203.0.113.10", ttl := 60 } }

/-- A service that has the zone and no record. -/
def wwwDns : RemoteDns := .ofZones [{ zoneId := "z1", zoneName := "example.com", status := "active" }]

/-- A service with a record that was made by hand. -/
def wwwDnsByHand : RemoteDns := wwwDns.post "z1" "A" "www.example.com" "203.0.113.5" 60

/-- The first record is made with the address of the standby. -/
theorem applyDnsFailover_moves_iff_first :
    TableFits wwwPlan (.init wwwDns) ∧ ∃ ip, standbyAddress wwwPolicy = some ip ∧
      contentsAt wwwPlan.change wwwPlan.zone.externalZoneId
        (applyDnsFailover (fun _ => .done) wwwPlan 0 (.init wwwDns)).2.remote = [ip] := by
  have hiff := applyDnsFailover_moves_iff (fun _ => .done) wwwSite wwwPolicy [wwwZone] wwwPlan 0 (.init wwwDns) _
    rfl rfl rfl
  have hfits : TableFits wwwPlan (.init wwwDns) := hiff.1 ⟨"203.0.113.10", by decide, by decide⟩
  exact ⟨hfits, hiff.2 hfits⟩

/-- The table is empty and the service has a record: the new record is put beside it. -/
theorem applyDnsFailover_leaves_other_record :
    buildDnsFailoverPlan wwwSite wwwPolicy [wwwZone] = .ok (some wwwPlan) ∧
      (applyDnsFailover (fun _ => .done) wwwPlan 0 (.init wwwDnsByHand)).1 = .ok () ∧
      contentsAt wwwPlan.change wwwPlan.zone.externalZoneId
        (applyDnsFailover (fun _ => .done) wwwPlan 0 (.init wwwDnsByHand)).2.remote = ["203.0.113.5", "203.0.113.10"] ∧
      standbyAddress wwwPolicy = some "203.0.113.10" := by
  refine ⟨rfl, rfl, ?_, ?_⟩
  · decide
  · decide

end PingoraMesh
