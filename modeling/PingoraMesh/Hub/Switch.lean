import PingoraMesh.Hub.Alone
import PingoraMesh.Hub.Bindings
import PingoraMesh.Hub.Effects
import PingoraMesh.Lib.Maps

/-!
# The manual switch

What `switch_site_primary` makes of the bindings of a site with one primary (`ManualSwitch`): which nodes, roles and
priorities, and which standby comes next.

* `switchedBindings_spec`: the specification holds of the list that the request computes;
* `manual_switch_spec`: it holds of the stored bindings and of the response of every request that succeeds.
-/

namespace PingoraMesh

open Calls Fallible HubService

/-! ## The specification -/

/-- The bindings that a switch from `p` to `t` neither replaces nor promotes. -/
def remainingBindings (old : List SiteBindingRecord) (p t : Uuid) : List SiteBindingRecord :=
  old.filter fun b => b.nodeId != t && b.nodeId != p

/-- The list in the order of the priorities; equal ones stay as they were. -/
structure PriorityOrder (bs out : List SiteBindingRecord) : Prop where
  perm : out.Perm bs
  sorted : out.Pairwise fun l r => l.priority ≤ r.priority
  stable : ∀ n, out.filter (·.priority == n) = bs.filter (·.priority == n)

/-- What a manual switch to `t` makes of the bindings `old` of the primary `p`: `new`, and the standby that comes
next. -/
structure ManualSwitch (old : List SiteBindingRecord) (p t : Uuid) (keep : Bool) (new : List SiteBindingRecord)
    (next : Option Uuid) : Prop where
  distinct : (new.map (·.nodeId)).Nodup
  nodes : ∀ n, n ∈ new.map (·.nodeId) ↔ (n ∈ old.map (·.nodeId) ∨ n = t) ∧ (keep = false → n ≠ p)
  first : ∃ rest, new = { nodeId := t, bindingRole := "primary", priority := 100 } :: rest ∧
    ∀ b ∈ rest, b.bindingRole = "standby"
  priorities : new.map (·.priority) = (List.range new.length).map fun i : Nat => 100 * ((i : Int) + 1)
  order : ∃ rest, PriorityOrder (remainingBindings old p t) rest ∧
    new.map (·.nodeId) = t :: (if keep then [p] else []) ++ rest.map (·.nodeId) ∧
    next = if keep then some p else rest.head?.map (·.nodeId)

/-! ## The list that is computed -/

section Bindings

variable {old : List SiteBindingRecord} {p t : Uuid}

theorem priorities_renumberBindings (next : Int) (bs : List SiteBindingRecord) :
    (renumberBindings next bs).map (·.priority) =
      (List.range bs.length).map fun i : Nat => next + 100 * (i : Int) := by
  induction bs generalizing next with
  | nil => rfl
  | cons b bs ih =>
    rw [renumberBindings, List.map_cons, ih, List.length_cons, List.range_succ_eq_map, List.map_cons, List.map_map]
    refine congrArg₂ List.cons (by simp) (List.map_congr_left fun i _ => ?_)
    simp only [Function.comp_apply, Nat.cast_succ]
    omega

/-- A list whose keys grow is first at its minimum. -/
theorem minByKey_of_growing {α : Type} {key : α → Int} {a : α} {as : List α}
    (h : ∀ b ∈ as, key a < key b) : minByKey key (a :: as) = some a := by
  unfold minByKey
  cases hm : minByKey key as with
  | none => rfl
  | some b =>
    have hb := h b (mem_of_minByKey hm)
    dsimp only
    rw [if_neg (by omega)]

/-- The remaining bindings, sorted. -/
theorem priorityOrder_remaining (old : List SiteBindingRecord) (p t : Uuid) :
    PriorityOrder (remainingBindings old p t)
      ((old.insertionSort fun l r => l.priority ≤ r.priority).filter fun b =>
        !(b.nodeId == t || some b.nodeId == some p)) := by
  have hsame : (fun b : SiteBindingRecord => !(b.nodeId == t || some b.nodeId == some p)) =
      fun b => b.nodeId != t && b.nodeId != p := by
    funext b
    simp [bne]
  have htrans : IsTrans SiteBindingRecord fun l r => l.priority ≤ r.priority := ⟨fun _ _ _ hab hbc => hab.trans hbc⟩
  have htotal : Std.Total fun l r : SiteBindingRecord => l.priority ≤ r.priority := ⟨fun a b => le_total _ _⟩
  rw [hsame]
  refine ⟨(List.perm_insertionSort _ _).filter _, (List.pairwise_insertionSort _ _).filter _, fun n => ?_⟩
  have hstable := Sorted.filter_insertionSort (r := fun l r : SiteBindingRecord => l.priority ≤ r.priority)
    (p := fun b => b.priority == n) (fun a b ha hb => ((beq_iff_eq.1 ha).trans (beq_iff_eq.1 hb).symm).le) old
  rw [remainingBindings, List.filter_comm, hstable, List.filter_comm]

/-- The bindings behind the new primary, before they are numbered. -/
def standbySources (old : List SiteBindingRecord) (p t : Uuid) (keep : Bool) : List SiteBindingRecord :=
  (if keep then [{ nodeId := p, bindingRole := "standby", priority := 200 }] else []) ++
    (old.insertionSort fun l r => l.priority ≤ r.priority).filter fun b =>
      !(b.nodeId == t || some b.nodeId == some p)

/-- The new bindings are the target and the numbered others, the previous primary among them when it is kept. -/
theorem switchedBindings_numbered (old : List SiteBindingRecord) (hne : t ≠ p) (keep : Bool) :
    switchedBindings old t (some p) keep = { nodeId := t, bindingRole := "primary", priority := 100 } ::
      renumberBindings 200 (standbySources old p t keep) := by
  have hbne : (p != t) = true := bne_iff_ne.2 hne.symm
  cases keep with
  | false => simp [switchedBindings, standbySources]
  | true => simp [switchedBindings, standbySources, hbne, renumberBindings]

theorem mem_standbySources {keep : Bool} {b : SiteBindingRecord} (h : b ∈ standbySources old p t keep) :
    (keep = true ∧ b = { nodeId := p, bindingRole := "standby", priority := 200 }) ∨
      b ∈ old ∧ b.nodeId ≠ t ∧ b.nodeId ≠ p := by
  rcases List.mem_append.1 h with h | h
  · split at h
    · exact .inl ⟨by assumption, List.mem_singleton.1 h⟩
    · cases h
  · have hrest := (priorityOrder_remaining old p t).perm.mem_iff.1 h
    rw [remainingBindings, List.mem_filter, Bool.and_eq_true, bne_iff_ne, bne_iff_ne] at hrest
    exact .inr hrest

theorem map_nodeId_standbySources (keep : Bool) :
    (standbySources old p t keep).map (·.nodeId) = (if keep then [p] else []) ++
      ((old.insertionSort fun l r => l.priority ≤ r.priority).filter fun b =>
        !(b.nodeId == t || some b.nodeId == some p)).map (·.nodeId) := by
  rw [standbySources, List.map_append]
  split <;> rfl

theorem mem_map_standbySources (keep : Bool) (n : Uuid) :
    n ∈ (standbySources old p t keep).map (·.nodeId) ↔
      (keep = true ∧ n = p) ∨ n ∈ old.map (·.nodeId) ∧ n ≠ t ∧ n ≠ p := by
  have hrest : n ∈ (remainingBindings old p t).map (·.nodeId) ↔ n ∈ old.map (·.nodeId) ∧ n ≠ t ∧ n ≠ p := by
    simp only [remainingBindings, List.mem_map, List.mem_filter, Bool.and_eq_true, bne_iff_ne]
    constructor
    · rintro ⟨b, ⟨hb, ht, hp⟩, rfl⟩
      exact ⟨⟨b, hb, rfl⟩, ht, hp⟩
    · rintro ⟨⟨b, hb, rfl⟩, ht, hp⟩
      exact ⟨b, ⟨hb, ht, hp⟩, rfl⟩
  rw [map_nodeId_standbySources, List.mem_append, ((priorityOrder_remaining old p t).perm.map _).mem_iff, hrest]
  cases keep <;> simp

/-- The next standby is the first binding behind the new primary. -/
theorem selectNext_numbered {bs : List SiteBindingRecord}
    (hrole : ∀ b ∈ renumberBindings 200 bs, b.bindingRole = "standby")
    (hnode : ∀ b ∈ renumberBindings 200 bs, b.nodeId ≠ t) :
    selectNextFailoverPolicyStandby
        ({ nodeId := t, bindingRole := "primary", priority := 100 } :: renumberBindings 200 bs) t =
      bs.head?.map (·.nodeId) := by
  have hfilter : (renumberBindings 200 bs).filter (fun b => b.nodeId != t && b.bindingRole == "standby") =
      renumberBindings 200 bs := by
    refine List.filter_eq_self.2 fun b hb => ?_
    rw [Bool.and_eq_true, bne_iff_ne, beq_iff_eq]
    exact ⟨hnode b hb, hrole b hb⟩
  rw [selectNextFailoverPolicyStandby, List.filter_cons_of_neg (by simp), hfilter]
  cases bs with
  | nil => rfl
  | cons b bs =>
    rw [renumberBindings, minByKey_of_growing]
    · rfl
    · intro c hc
      have hmem : c.priority ∈ (renumberBindings (200 + 100) bs).map (·.priority) := List.mem_map_of_mem hc
      rw [priorities_renumberBindings, List.mem_map] at hmem
      obtain ⟨i, -, hi⟩ := hmem
      dsimp only
      omega

/-- **The switch of the bindings** is as specified, for different nodes with the roles of primaries and standbys. -/
theorem switchedBindings_spec (hdistinct : (old.map (·.nodeId)).Nodup)
    (hroles : ∀ b ∈ old, b.bindingRole = "primary" ∨ b.bindingRole = "standby") (hp : p ∈ old.map (·.nodeId))
    (hne : t ≠ p) (keep : Bool) :
    ManualSwitch old p t keep (switchedBindings old t (some p) keep)
      (selectNextFailoverPolicyStandby (switchedBindings old t (some p) keep) t) := by
  have horder := priorityOrder_remaining old p t
  have hids : (renumberBindings 200 (standbySources old p t keep)).map (·.nodeId) =
      (if keep then [p] else []) ++ ((old.insertionSort fun l r => l.priority ≤ r.priority).filter fun b =>
        !(b.nodeId == t || some b.nodeId == some p)).map (·.nodeId) := by
    rw [map_nodeId_renumberBindings, map_nodeId_standbySources]
  have hrole : ∀ b ∈ renumberBindings 200 (standbySources old p t keep), b.bindingRole = "standby" := by
    refine role_renumberBindings fun b hb => ?_
    rcases mem_standbySources hb with ⟨-, rfl⟩ | ⟨hb, -⟩
    · exact .inr rfl
    · exact hroles b hb
  have hmem : ∀ n, n ∈ (renumberBindings 200 (standbySources old p t keep)).map (·.nodeId) ↔
      (keep = true ∧ n = p) ∨ n ∈ old.map (·.nodeId) ∧ n ≠ t ∧ n ≠ p := by
    intro n
    rw [map_nodeId_renumberBindings]
    exact mem_map_standbySources keep n
  have hnode : ∀ b ∈ renumberBindings 200 (standbySources old p t keep), b.nodeId ≠ t := by
    intro b hb e
    have hb := (hmem b.nodeId).1 (List.mem_map_of_mem hb)
    rw [e] at hb
    rcases hb with ⟨-, h⟩ | ⟨-, h, -⟩
    · exact hne h
    · exact h rfl
  rw [switchedBindings_numbered old hne keep]
  refine ⟨?_, ?_, ⟨_, rfl, hrole⟩, ?_, ⟨_, horder, ?_, ?_⟩⟩
  · rw [List.map_cons, List.nodup_cons]
    refine ⟨fun h => ?_, ?_⟩
    · obtain ⟨b, hb, e⟩ := List.mem_map.1 h
      exact hnode b hb e
    · rw [hids]
      refine List.Nodup.append ?_ ?_ ?_
      · split <;> simp
      · rw [(horder.perm.map _).nodup_iff]
        exact hdistinct.sublist (List.filter_sublist.map _)
      · intro n hn hrest
        obtain ⟨b, hb, rfl⟩ := List.mem_map.1 ((horder.perm.map _).mem_iff.1 hrest)
        have hb := (List.mem_filter.1 hb).2
        rw [Bool.and_eq_true, bne_iff_ne, bne_iff_ne] at hb
        split at hn
        · exact hb.2 (List.mem_singleton.1 hn)
        · cases hn
  · intro n
    rw [List.map_cons, List.mem_cons, hmem n]
    by_cases hnp : n = p
    · subst hnp
      cases keep <;> simp [hne.symm, hp]
    · by_cases hnt : n = t
      · subst hnt
        simp [hnp]
      · simp [hnp, hnt]
  · rw [List.map_cons, priorities_renumberBindings, List.length_cons, List.range_succ_eq_map, List.map_cons,
      List.map_map]
    have hlen :
        (renumberBindings 200 (standbySources old p t keep)).length = (standbySources old p t keep).length := by
      rw [← List.length_map (·.nodeId), map_nodeId_renumberBindings, List.length_map]
    rw [hlen]
    refine congrArg₂ List.cons (by simp) (List.map_congr_left fun i _ => ?_)
    simp only [Function.comp_apply, Nat.cast_succ]
    omega
  · rw [List.map_cons, hids]
    rfl
  · rw [selectNext_numbered hrole hnode, standbySources]
    cases keep with
    | false => rfl
    | true => rfl

end Bindings

/-! ## The request -/

/-- Requests leave every site under its own identifier. -/
theorem SitesKeyed.serve {p : Platform} {w : World} (h : SitesKeyed w.store) (hub : Hub) (request : Request) :
    SitesKeyed (w.serve p hub request).store :=
  serve_of_wp (only_alone (program_only p hub request) (I := fun w' => SitesKeyed w'.store)
    (fun c _ _ hw' => hw'.call c) h)

theorem SitesKeyed.serveAll {p : Platform} {w : World} (h : SitesKeyed w.store) (hub : Hub)
    (requests : List Request) :
    SitesKeyed (w.serveAll p hub requests).store := by
  induction requests generalizing w with
  | nil => exact h
  | cons r rs ih => exact ih (h.serve hub r)

theorem SitesKeyed.init : SitesKeyed World.init.store := by
  intro k site hk
  simp [World.init, MemoryState.empty] at hk

section Request

variable {p : Platform} {hub : Nat} {w : World} {site : SiteRecord}

/-- The site that is stored under the identifier has these bindings. -/
def World.Binds (siteId : Uuid) (bindings : List SiteBindingRecord) (w : World) : Prop :=
  ∃ site, w.store.sites[siteId]? = some site ∧ site.bindings = bindings

/-- Saving a release leaves the sites. -/
theorem saveSiteRelease_sites (releaseType reason : String) :
    wp (aloneSpec p) (saveSiteRelease p hub site releaseType reason) (fun _ w' => w'.store.sites = w.store.sites)
      (fun _ _ => True) w :=
  saveSiteRelease_rule (fun _ _ _ => trivial) (fun _ => trivial) (fun _ => trivial) fun _ _ =>
    ⟨trivial, fun _ _ _ => rfl⟩

theorem saveSiteCleanupRelease_sites (detached : List Uuid) (reason : String) :
    wp (aloneSpec p) (saveSiteCleanupRelease p hub site detached reason) (fun _ w' => w'.store.sites = w.store.sites)
      (fun _ _ => True) w :=
  saveSiteCleanupRelease_rule (fun _ _ _ => trivial) (fun _ _ => trivial) fun _ _ => ⟨trivial, fun _ _ _ => rfl⟩

/-- `create_release` leaves the bindings of its site. -/
theorem createRelease_binds {request : CreateReleaseRequest} (hsite : w.store.sites[request.scopeId]? = some site)
    (hid : site.id = request.scopeId) :
    wp (aloneSpec p) (createRelease p hub request) (fun _ w' => w'.Binds request.scopeId site.bindings)
      (fun _ _ => True) w := by
  simp only [createRelease, detachedNodeIdsForSite, repo, wp_bind, wp_ensure, wp_okOr, wp_call_alone, wp_pure,
    hubHandler, World.read, World.write, implies_true, and_true, forall_const, true_and]
  intro _ found hfound _
  rw [hsite] at hfound
  cases hfound
  refine wp_mono (fun _ w₁ _ => ?_) (fun _ _ h => h)
    (wp_onlyIf_of (saveSiteRelease_sites request.releaseType request.reason) rfl)
  refine wp_mono (fun _ w₂ _ => ?_) (fun _ _ h => h)
    (wp_onlyIf_of (saveSiteCleanupRelease_sites _ request.reason) rfl)
  intro _ _
  have hstored : ∀ saved : SiteRecord, saved.id = request.scopeId →
      (w₂.store.saveSite saved).sites[request.scopeId]? = some saved := by
    rintro saved e
    rw [← e]
    exact Std.ExtTreeMap.getElem?_insert_self
  exact ⟨_, hstored { site with status := _ } hid, rfl⟩

/-- What a switch leaves stored, and what it answers. -/
theorem switchSitePrimary_binds (hkeyed : SitesKeyed w.store) {siteId : Uuid} (request : SwitchSitePrimaryRequest)
    (hsite : w.store.sites[siteId]? = some site) :
    wp (aloneSpec p) (switchSitePrimary p hub siteId request)
      (fun response w' =>
        response.currentPrimaryNodeId ∈
            (request.targetNodeId <|> switchTarget site.bindings ((primarySiteBinding site).map (·.nodeId))) ∧
          (primarySiteBinding site).map (·.nodeId) ≠ some response.currentPrimaryNodeId ∧
          w'.Binds siteId (switchedBindings site.bindings response.currentPrimaryNodeId
            ((primarySiteBinding site).map (·.nodeId)) (request.keepPreviousAsStandby.getD true)) ∧
          response.nextStandbyNodeId = selectNextFailoverPolicyStandby (switchedBindings site.bindings
            response.currentPrimaryNodeId ((primarySiteBinding site).map (·.nodeId))
            (request.keepPreviousAsStandby.getD true)) response.currentPrimaryNodeId)
      (fun _ _ => True) w := by
  have hid := hkeyed siteId site hsite
  simp only [switchSitePrimary, repo, wp_bind, wp_okOr, wp_ensure, wp_call_alone, wp_pure, wp_forSome, hubHandler,
    World.read, World.write, implies_true, and_true, forall_const, true_and]
  intro found hfound _
  rw [hsite] at hfound
  cases hfound
  refine chooseSwitchTarget_rule (fun _ _ _ => trivial) (fun target htarget _ => ?_) fun _ => trivial
  intro hne
  have hne := bne_iff_ne.1 hne
  -- The site that `create_release` reads is the one with the new bindings.
  have hrelease : ∀ (draft : SiteRecord) (w' : World) (r : CreateReleaseRequest), draft.id = siteId →
      w'.store.sites = w.store.sites.insert draft.id draft → r.scopeId = siteId →
      wp (aloneSpec p) (createRelease p hub r) (fun _ w'' => w''.Binds siteId draft.bindings) (fun _ _ => True)
        w' := by
    intro draft w' r hdraft hsites hscope
    have hstored : w'.store.sites[r.scopeId]? = some draft := by
      rw [hsites, hscope, ← hdraft]
      exact Std.ExtTreeMap.getElem?_insert_self
    rw [← hscope]
    exact createRelease_binds hstored (hdraft.trans hscope.symm)
  constructor
  · intro next _
    refine wp_mono (fun _ w' hb => ⟨htarget, hne, hb, rfl⟩) (fun _ _ h => h) (hrelease
      { site with bindings := _, status := .draft, version := site.version + 1 } _ _ hid rfl rfl)
  · intro _
    refine wp_mono (fun _ w' hb => ⟨htarget, hne, hb, rfl⟩) (fun _ _ h => h) (hrelease
      { site with bindings := _, status := .draft, version := site.version + 1 } _ _ hid rfl rfl)

/-- One primary is the current one. -/
theorem primarySiteBinding_of_primaries {primary : SiteBindingRecord} (h : primaries site.bindings = [primary]) :
    primarySiteBinding site = some primary := by
  have hfind : site.bindings.find? (·.bindingRole == "primary") = some primary := by
    rw [← List.head?_filter]
    exact congrArg List.head? h
  rw [primarySiteBinding, hfind]
  rfl

/-- Among primaries and standbys the target is the first standby. -/
theorem switchTarget_eq {bindings : List SiteBindingRecord} {primary : SiteBindingRecord}
    (hdistinct : (bindings.map (·.nodeId)).Nodup)
    (hroles : ∀ b ∈ bindings, b.bindingRole = "primary" ∨ b.bindingRole = "standby")
    (hprimary : primaries bindings = [primary]) :
    switchTarget bindings (some primary.nodeId) = (bindings.find? (·.bindingRole == "standby")).map (·.nodeId) := by
  have hmem : ∀ b, b ∈ bindings ∧ b.bindingRole = "primary" ↔ b = primary := by
    intro b
    have hb : b ∈ primaries bindings ↔ b = primary := by rw [hprimary, List.mem_singleton]
    rw [← hb, primaries, List.mem_filter, beq_iff_eq]
  -- The bindings of other nodes are the standbys.
  have hothers : bindings.filter (fun b => some b.nodeId != some primary.nodeId) =
      bindings.filter (·.bindingRole == "standby") := by
    refine List.filter_congr fun b hb => ?_
    rw [Bool.eq_iff_iff, bne_iff_ne, beq_iff_eq]
    constructor
    · intro hne
      refine (hroles b hb).resolve_left fun hr => hne ?_
      rw [(hmem b).1 ⟨hb, hr⟩]
    · intro hr e
      have hsame := List.inj_on_of_nodup_map hdistinct hb ((hmem primary).2 rfl).1 (Option.some.inj e)
      rw [hsame, ((hmem primary).2 rfl).2] at hr
      exact absurd hr (by decide)
  unfold switchTarget
  dsimp only
  rw [hothers, ← List.head?_filter, List.filter_filter, ← List.head?_filter]
  simp only [Bool.and_self]
  cases (bindings.filter (·.bindingRole == "standby")).head? <;> rfl

/-- **The manual switch**: for every stored site with different nodes, primaries and standbys, and one primary, a
request that succeeds leaves bindings and answers as specified. -/
theorem manual_switch_spec (p : Platform) (hub : Nat) (w : World) (hkeyed : SitesKeyed w.store) (siteId : Uuid)
    (site : SiteRecord) (hsite : w.store.sites[siteId]? = some site)
    (hdistinct : (site.bindings.map (·.nodeId)).Nodup)
    (hroles : ∀ b ∈ site.bindings, b.bindingRole = "primary" ∨ b.bindingRole = "standby")
    (primary : SiteBindingRecord) (hprimary : primaries site.bindings = [primary])
    (request : SwitchSitePrimaryRequest) (response : SwitchSitePrimaryResponse) (w' : World)
    (hrun : Fallible.run (hubHandler p) (switchSitePrimary p hub siteId request) w = (.ok response, w')) :
    (∃ site', w'.store.sites[siteId]? = some site' ∧
      ManualSwitch site.bindings primary.nodeId response.currentPrimaryNodeId
        (request.keepPreviousAsStandby != some false) site'.bindings response.nextStandbyNodeId) ∧
      (∀ t ∈ request.targetNodeId, response.currentPrimaryNodeId = t) ∧
      (request.targetNodeId = none → (site.bindings.find? (·.bindingRole == "standby")).map (·.nodeId) =
        some response.currentPrimaryNodeId) := by
  have hbinds : wp _ (switchSitePrimary p hub siteId request) _ _ w := switchSitePrimary_binds hkeyed request hsite
  have hwp := (wp_run (fun _ _ _ _ => trivial) trivial hbinds).1
  rw [hrun] at hwp
  obtain ⟨htarget, hne, ⟨site', hsite', hbindings⟩, hnext⟩ := hwp
  have hcurrent := primarySiteBinding_of_primaries hprimary
  rw [hcurrent, Option.map_some] at htarget hne hbindings hnext
  have hkeep : request.keepPreviousAsStandby.getD true = (request.keepPreviousAsStandby != some false) := by
    rcases request.keepPreviousAsStandby with - | - | - <;> rfl
  have hmem : primary ∈ site.bindings := by
    have h := List.mem_singleton_self primary
    rw [← hprimary] at h
    exact (List.mem_filter.1 h).1
  have hspec := switchedBindings_spec hdistinct hroles (List.mem_map_of_mem hmem)
    (fun e => hne (congrArg some e.symm)) (request.keepPreviousAsStandby != some false)
  rw [hkeep] at hbindings hnext
  refine ⟨⟨site', hsite', ?_⟩, ?_, ?_⟩
  · rw [hbindings, hnext]
    exact hspec
  · intro t ht
    rw [ht] at htarget
    exact (Option.some.inj htarget).symm
  · intro hnone
    rw [hnone, switchTarget_eq hdistinct hroles hprimary] at htarget
    exact htarget

end Request

/-- Three nodes, and a site that is bound to all of them. -/
def switchableSite : List Request :=
  [.node "edge-1", .node "edge-2", .node "edge-3", .site "example", .bind 6 0 [2, 4]]

/-- The site is switched to its first standby, and the old primary goes. -/
theorem manual_switch_spec_bound :
    ∃ response w' site', Fallible.run (hubHandler .plain) (switchSitePrimary .plain 0 6 ⟨none, some false, none⟩)
        (World.init.serveAll .plain ⟨0, 30⟩ switchableSite) = (.ok response, w') ∧
      response.currentPrimaryNodeId = 2 ∧ w'.store.sites[6]? = some site' ∧
      ManualSwitch [⟨0, "primary", 100⟩, ⟨2, "standby", 200⟩, ⟨4, "standby", 200⟩] 0 2 false site'.bindings
        response.nextStandbyNodeId := by
  have hok : (Fallible.run (hubHandler .plain) (switchSitePrimary .plain 0 6 ⟨none, some false, none⟩)
      (World.init.serveAll .plain ⟨0, 30⟩ switchableSite)).1.isOk = true := by decide +kernel
  have hsite : (World.init.serveAll .plain ⟨0, 30⟩ switchableSite).store.sites[6]?.map (·.bindings) =
      some [⟨0, "primary", 100⟩, ⟨2, "standby", 200⟩, ⟨4, "standby", 200⟩] := by decide +kernel
  obtain ⟨site, hsite, hbindings⟩ := Option.map_eq_some_iff.1 hsite
  generalize hrun : Fallible.run (hubHandler .plain) (switchSitePrimary .plain 0 6 ⟨none, some false, none⟩)
    (World.init.serveAll .plain ⟨0, 30⟩ switchableSite) = out at hok
  rcases out with ⟨e | response, w'⟩
  · cases hok
  · have hspec := manual_switch_spec .plain 0 _ (SitesKeyed.init.serveAll ⟨0, 30⟩ switchableSite) 6 site hsite
      (by rw [hbindings]; decide) (by rw [hbindings]; decide) ⟨0, "primary", 100⟩ (by rw [hbindings]; decide)
      ⟨none, some false, none⟩ response w' hrun
    obtain ⟨⟨site', hsite', hswitch⟩, -, htarget⟩ := hspec
    have hsecond : (2 : Uuid) = response.currentPrimaryNodeId := by
      have h := htarget rfl
      rw [hbindings] at h
      exact Option.some.inj h
    rw [hbindings, ← hsecond] at hswitch
    exact ⟨response, w', site', rfl, hsecond.symm, hsite', hswitch⟩

end PingoraMesh
