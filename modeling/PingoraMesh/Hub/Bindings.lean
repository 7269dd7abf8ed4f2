import PingoraMesh.Hub.Sites
import PingoraMesh.Lib.Maps

/-!
# Bindings of a site

`WellBound` says what the bindings of a site should look like: different nodes that exist, primaries and standbys, and
exactly one primary unless there are none at all.

* `wellBound_normalizeSiteBindings`: what `normalize_site_bindings` lets through, once its nodes exist;
* `WellBound.switched`: what `switch_site_primary` makes of such bindings.
-/

namespace PingoraMesh

open Calls

/-- The bindings with the role of a primary. -/
def primaries (bindings : List SiteBindingRecord) : List SiteBindingRecord :=
  bindings.filter (·.bindingRole == "primary")

/-- Different nodes that exist, known roles, and one primary if there are any. -/
structure WellBound (nodes : HashMap Uuid NodeRecord) (bindings : List SiteBindingRecord) : Prop where
  existing : ∀ b ∈ bindings, b.nodeId ∈ nodes
  distinct : (bindings.map (·.nodeId)).Nodup
  roles : ∀ b ∈ bindings, b.bindingRole = "primary" ∨ b.bindingRole = "standby"
  primary : bindings ≠ [] → (primaries bindings).length = 1

section WellBound

variable {nodes nodes' : HashMap Uuid NodeRecord} {bindings bindings' : List SiteBindingRecord}

theorem WellBound.nil (nodes : HashMap Uuid NodeRecord) : WellBound nodes [] :=
  ⟨nofun, List.nodup_nil, nofun, fun h => absurd rfl h⟩

theorem WellBound.of_nodes (h : WellBound nodes bindings) (hn : ∀ b ∈ bindings, b.nodeId ∈ nodes → b.nodeId ∈ nodes') :
    WellBound nodes' bindings :=
  { h with existing := fun b hb => hn b hb (h.existing b hb) }

theorem WellBound.perm (h : WellBound nodes bindings) (hp : bindings'.Perm bindings) : WellBound nodes bindings' where
  existing b hb := h.existing b (hp.mem_iff.1 hb)
  distinct := ((hp.map _).nodup_iff).2 h.distinct
  roles b hb := h.roles b (hp.mem_iff.1 hb)
  primary hne := by
    rw [primaries, (hp.filter _).length_eq]
    exact h.primary fun e => hne (List.perm_nil.1 (e ▸ hp))

end WellBound

/-- A node that the guard of `delete_node` lets go is bound to no site. -/
theorem unbound_of_guard {s : MemoryState} {nodeId : Uuid} (h : (s.nodeDeleteGuard nodeId).boundSiteCodes.isEmpty) :
    ∀ (k : Uuid) (site : SiteRecord), s.sites[k]? = some site → ∀ b ∈ site.bindings, b.nodeId ≠ nodeId := by
  intro k site hk b hb e
  have hmem : site.siteCode ∈ (s.nodeDeleteGuard nodeId).boundSiteCodes := by
    refine List.mem_dedup.2 ((List.perm_insertionSort _ _).mem_iff.2 (List.mem_map_of_mem (List.mem_filter.2 ⟨?_, ?_⟩)))
    · exact Maps.mem_values.2 ⟨k, hk⟩
    · exact List.any_eq_true.2 ⟨b, hb, beq_iff_eq.2 e⟩
  rw [List.isEmpty_iff.1 h] at hmem
  cases hmem

/-! ## Normalisation -/

theorem normalizeBindingRole_ok {raw role : String} (h : normalizeBindingRole raw = .ok role) :
    role = "primary" ∨ role = "standby" := by
  unfold normalizeBindingRole at h
  split at h
  · cases h
    exact .inl rfl
  · cases h
    exact .inr rfl
  · cases h

theorem normalizeBindingItems_ok {items : List SiteBindingItem} {seen : List Uuid} {bindings : List SiteBindingRecord}
    (h : normalizeBindingItems items seen = .ok bindings) :
    bindings.map (·.nodeId) = items.map (·.nodeId) ∧ (bindings.map (·.nodeId)).Nodup ∧
      (∀ b ∈ bindings, b.nodeId ∉ seen) ∧ ∀ b ∈ bindings, b.bindingRole = "primary" ∨ b.bindingRole = "standby" := by
  induction items generalizing seen bindings with
  | nil =>
    cases h
    exact ⟨rfl, List.nodup_nil, nofun, nofun⟩
  | cons item items ih =>
    rw [normalizeBindingItems] at h
    split at h
    · cases h
    · rename_i hseen
      obtain ⟨role, hrole, h⟩ := bind_eq_ok.1 h
      obtain ⟨rest, hrest, h⟩ := bind_eq_ok.1 h
      cases h
      obtain ⟨hmap, hnodup, hfresh, hroles⟩ := ih hrest
      refine ⟨by rw [List.map_cons, List.map_cons, hmap], ?_, ?_, ?_⟩
      · refine List.nodup_cons.2 ⟨fun hm => ?_, hnodup⟩
        obtain ⟨b, hb, e⟩ := List.mem_map.1 hm
        exact hfresh b hb (e ▸ List.mem_cons_self)
      · refine List.forall_mem_cons.2 ⟨?_, fun b hb hs => hfresh b hb (List.mem_cons_of_mem _ hs)⟩
        simpa using hseen
      · exact List.forall_mem_cons.2 ⟨normalizeBindingRole_ok hrole, hroles⟩

/-- Bindings that pass the checks, of nodes that exist. -/
theorem wellBound_normalizeSiteBindings {raw : List SiteBindingItem} {bindings : List SiteBindingRecord}
    {nodes : HashMap Uuid NodeRecord} (h : normalizeSiteBindings raw = .ok bindings)
    (hn : ∀ b ∈ bindings, b.nodeId ∈ nodes) : WellBound nodes bindings := by
  unfold normalizeSiteBindings at h
  split at h
  · cases h
  · obtain ⟨items, hitems, h⟩ := bind_eq_ok.1 h
    split at h
    · cases h
    · rename_i hone
      cases h
      obtain ⟨-, hnodup, -, hroles⟩ := normalizeBindingItems_ok hitems
      have hp := List.perm_insertionSort (fun l r : SiteBindingRecord => l.priority ≤ r.priority) items
      have hwell : WellBound nodes items :=
        ⟨fun b hb => hn b (hp.mem_iff.2 hb), hnodup, hroles, fun _ => not_not.1 hone⟩
      exact hwell.perm hp

/-! ## The switch of the hub -/

theorem mem_of_primarySiteBinding {site : SiteRecord} {n : Uuid}
    (h : n ∈ (primarySiteBinding site).map (·.nodeId)) : ∃ b ∈ site.bindings, n = b.nodeId := by
  obtain ⟨b, hb, rfl⟩ := Option.map_eq_some_iff.1 h
  refine ⟨b, ?_, rfl⟩
  rcases (Option.orElse_eq_some _ _ _).1 hb with hb | ⟨-, hb⟩
  · exact List.mem_of_find?_eq_some hb
  · exact List.mem_of_head? hb

theorem mem_of_switchTarget {bindings : List SiteBindingRecord} {current : Option Uuid} {n : Uuid}
    (h : n ∈ switchTarget bindings current) : ∃ b ∈ bindings, n = b.nodeId := by
  obtain ⟨b, hb, rfl⟩ := Option.map_eq_some_iff.1 h
  refine ⟨b, ?_, rfl⟩
  rcases (Option.orElse_eq_some _ _ _).1 hb with hb | ⟨-, hb⟩
  · exact (List.mem_filter.1 (List.mem_of_find?_eq_some hb)).1
  · exact (List.mem_filter.1 (List.mem_of_head? hb)).1

theorem map_nodeId_renumberBindings (next : Int) (bs : List SiteBindingRecord) :
    (renumberBindings next bs).map (·.nodeId) = bs.map (·.nodeId) := by
  induction bs generalizing next with
  | nil => rfl
  | cons b bs ih => rw [renumberBindings, List.map_cons, List.map_cons, ih]

theorem role_renumberBindings {next : Int} {bs : List SiteBindingRecord}
    (h : ∀ b ∈ bs, b.bindingRole = "primary" ∨ b.bindingRole = "standby") :
    ∀ b ∈ renumberBindings next bs, b.bindingRole = "standby" := by
  induction bs generalizing next with
  | nil => exact nofun
  | cons b bs ih =>
    refine List.forall_mem_cons.2 ⟨?_, ih fun b hb => h b (List.mem_cons_of_mem _ hb)⟩
    dsimp only
    split
    · rfl
    · rename_i hr
      exact (h b List.mem_cons_self).resolve_left hr

/-- Standbys are no primaries. -/
theorem primaries_eq_nil {bs : List SiteBindingRecord} (h : ∀ b ∈ bs, b.bindingRole = "standby") :
    primaries bs = [] := by
  rw [primaries, List.filter_eq_nil_iff]
  intro b hb
  rw [h b hb]
  decide

/-- The target first, then the previous primary if it is kept as a standby, then the others. -/
theorem switchedBindings_eq (bindings : List SiteBindingRecord) (target : Uuid) (previous : Option Uuid) (keep : Bool) :
    ∃ kept next, switchedBindings bindings target previous keep =
        { nodeId := target, bindingRole := "primary", priority := 100 } :: kept ++ renumberBindings next
          ((bindings.insertionSort fun l r => l.priority ≤ r.priority).filter fun b =>
            !(b.nodeId == target || some b.nodeId == previous)) ∧
      (kept = [] ∨ ∃ node, previous = some node ∧ node ≠ target ∧
        kept = [{ nodeId := node, bindingRole := "standby", priority := 200 }]) := by
  cases previous with
  | none => exact ⟨[], _, rfl, .inl rfl⟩
  | some node =>
    refine ⟨_, _, rfl, ?_⟩
    dsimp only
    split
    · rename_i hk
      exact .inr ⟨node, rfl, bne_iff_ne.1 (Bool.and_eq_true_iff.1 hk).2, rfl⟩
    · exact .inl rfl

/-- A switch to a node that exists keeps bindings well. -/
theorem WellBound.switched {nodes : HashMap Uuid NodeRecord} {bindings : List SiteBindingRecord}
    (h : WellBound nodes bindings) {target : Uuid} (ht : target ∈ nodes) {previous : Option Uuid}
    (hprev : ∀ n ∈ previous, n ∈ nodes) (keep : Bool) :
    WellBound nodes (switchedBindings bindings target previous keep) := by
  obtain ⟨kept, next, heq, hkept⟩ := switchedBindings_eq bindings target previous keep
  rw [heq]
  -- the other bindings, in the order of their priorities
  have hp := List.perm_insertionSort (fun l r : SiteBindingRecord => l.priority ≤ r.priority) bindings
  generalize hothers : (bindings.insertionSort fun l r => l.priority ≤ r.priority).filter
    (fun b => !(b.nodeId == target || some b.nodeId == previous)) = others
  have hmem : ∀ b ∈ others, b ∈ bindings ∧ b.nodeId ≠ target ∧ some b.nodeId ≠ previous := by
    intro b hb
    rw [← hothers, List.mem_filter, Bool.not_eq_true', Bool.or_eq_false_iff, beq_eq_false_iff_ne,
      beq_eq_false_iff_ne] at hb
    exact ⟨hp.mem_iff.1 hb.1, hb.2⟩
  have hnodup : (others.map (·.nodeId)).Nodup := by
    refine List.Nodup.sublist ?_ (((hp.map (·.nodeId)).nodup_iff).2 h.distinct)
    rw [← hothers]
    exact List.filter_sublist.map _
  have hstandby : ∀ b ∈ renumberBindings next others, b.bindingRole = "standby" :=
    role_renumberBindings fun b hb => h.roles b (hmem b hb).1
  have hids := map_nodeId_renumberBindings next others
  generalize renumberBindings next others = rest at hstandby hids ⊢
  have hrest : ∀ b ∈ rest, b.nodeId ∈ nodes ∧ b.nodeId ≠ target ∧ some b.nodeId ≠ previous := by
    intro b hb
    obtain ⟨b', hb', e⟩ := List.mem_map.1 (hids ▸ List.mem_map_of_mem hb : b.nodeId ∈ others.map (·.nodeId))
    rw [← e]
    exact ⟨h.existing b' (hmem b' hb').1, (hmem b' hb').2⟩
  rw [← hids] at hnodup
  rcases hkept with rfl | ⟨node, rfl, hne, rfl⟩
  · refine ⟨?_, ?_, ?_, fun _ => ?_⟩
    · exact List.forall_mem_cons.2 ⟨ht, fun b hb => (hrest b hb).1⟩
    · refine List.nodup_cons.2 ⟨fun hm => ?_, hnodup⟩
      obtain ⟨b, hb, e⟩ := List.mem_map.1 hm
      exact (hrest b hb).2.1 e
    · exact List.forall_mem_cons.2 ⟨.inl rfl, fun b hb => .inr (hstandby b hb)⟩
    · change (_ :: primaries rest).length = 1
      rw [primaries_eq_nil hstandby]
      rfl
  · refine ⟨?_, ?_, ?_, fun _ => ?_⟩
    · exact List.forall_mem_cons.2 ⟨ht, List.forall_mem_cons.2 ⟨hprev node rfl, fun b hb => (hrest b hb).1⟩⟩
    · refine List.nodup_cons.2 ⟨fun hm => ?_, List.nodup_cons.2 ⟨fun hm => ?_, hnodup⟩⟩
      · rcases List.mem_cons.1 hm with e | hm
        · exact hne e.symm
        · obtain ⟨b, hb, e⟩ := List.mem_map.1 hm
          exact (hrest b hb).2.1 e
      · obtain ⟨b, hb, e⟩ := List.mem_map.1 hm
        exact (hrest b hb).2.2 (congrArg some e)
    · exact List.forall_mem_cons.2 ⟨.inl rfl, List.forall_mem_cons.2 ⟨.inr rfl, fun b hb => .inr (hstandby b hb)⟩⟩
    · change (_ :: primaries rest).length = 1
      rw [primaries_eq_nil hstandby]
      rfl

end PingoraMesh
