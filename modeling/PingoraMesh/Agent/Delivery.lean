import PingoraMesh.Agent.Acks
import PingoraMesh.Agent.Polls
import PingoraMesh.Hub.Provenance
import PingoraMesh.Hub.References

/-!
# Releases on their way to a node

The hub keeps one latest release for each node, whatever site it is for, and a poll asks for that one only. A release
that nobody has fetched is out of reach as soon as a release for another site is saved for the same node.

* `Waiting` is what keeps a release within reach: it is the latest one of the node, and its version is that of no other
  release that the node was or would be served; `StoreInv` says that each release waits, was fetched or is superseded
  by a newer one for its site;
* `no_release_lost`: as long as releases are saved in turn (`SavedInTurn`), a poll that ends well leaves no release
  behind that was there when it asked;
* `release_lost`: two sites on one node are published before its first poll, and the first release is never fetched.
-/

namespace PingoraMesh.NodeAgent

open Calls

/-! ## What a trace tells -/

section Trace

variable {ι : Type}

/-- The release that a call saves. -/
def savedBy : PollCall → Option ReleaseRecord
  | .hub (.saveRelease release) => some release
  | _ => none

/-- The identifier of the release that is saved. -/
def createdBy : Event pollSig ι → Option Uuid
  | ⟨_, .hub (.saveRelease release), _⟩ => some release.releaseId
  | _ => none

/-- The version that a call finds for a node, and its release. -/
def servedBy : Event pollSig ι → Option (Uuid × String × Uuid)
  | ⟨_, .serving nodeId (.releaseByVersion _), some release⟩ =>
    if nodeId ∈ release.targetNodeIds then some (nodeId, release.releaseVersion, release.releaseId) else none
  | _ => none

/-- The package that arrives at a node. -/
def fetchedBy : Event pollSig ι → Option (Uuid × Uuid)
  | ⟨_, .response nodeId (some package), none⟩ => some (nodeId, package)
  | _ => none

/-- The poll that asks for the latest release of its node, and what it is told. -/
def queriedBy : Event pollSig ι → Option (ι × Uuid × Option Uuid)
  | ⟨i, .serving nodeId (.latestReleaseIdForNode _), latest⟩ => some (i, nodeId, latest)
  | _ => none

/-- The releases in the order in which they were saved. -/
def created (tr : List (Event pollSig ι)) : List Uuid := tr.filterMap createdBy

/-- The versions that the hub has served, with the node and the release. -/
def served (tr : List (Event pollSig ι)) : List (Uuid × String × Uuid) := tr.filterMap servedBy

/-- The packages that have arrived, each with its node. -/
def fetched (tr : List (Event pollSig ι)) : List (Uuid × Uuid) := tr.filterMap fetchedBy

/-- A newer release for the same site is there for the node. -/
def Superseded (tr : List (Event pollSig ι)) (s : MemoryState) (nodeId id : Uuid) (r : ReleaseRecord) : Prop :=
  ∃ (id' : Uuid) (r' : ReleaseRecord), [id, id'].Sublist (created tr) ∧ s.releases[id']? = some r' ∧
    r'.scopeId = r.scopeId ∧ nodeId ∈ r'.targetNodeIds

/-- A poll of the node has fetched the release, or it need not. -/
def Reached (tr : List (Event pollSig ι)) (s : MemoryState) (nodeId id : Uuid) (r : ReleaseRecord) : Prop :=
  (nodeId, id) ∈ fetched tr ∨ Superseded tr s nodeId id r

/-- The release is the latest one of the node, and the node is served its version as no other release. -/
structure Waiting (tr : List (Event pollSig ι)) (s : MemoryState) (nodeId id : Uuid) (r : ReleaseRecord) : Prop where
  latest : s.latestReleaseByNode[nodeId]? = some id
  served : ∀ id', (nodeId, r.releaseVersion, id') ∈ served tr → id' = id
  version : ∀ (id' : Uuid) (r' : ReleaseRecord), s.releaseIdsByVersion[r.releaseVersion]? = some id' →
    s.releases[id']? = some r' → nodeId ∈ r'.targetNodeIds → id' = id

theorem mem_created_concat {tr : List (Event pollSig ι)} {e : Event pollSig ι} {id : Uuid} :
    id ∈ created (tr ++ [e]) ↔ id ∈ created tr ∨ createdBy e = some id := by
  simp [created]

theorem mem_served_concat {tr : List (Event pollSig ι)} {e : Event pollSig ι} {x : Uuid × String × Uuid} :
    x ∈ served (tr ++ [e]) ↔ x ∈ served tr ∨ servedBy e = some x := by
  simp [served]

theorem mem_fetched_concat {tr : List (Event pollSig ι)} {e : Event pollSig ι} {x : Uuid × Uuid} :
    x ∈ fetched (tr ++ [e]) ↔ x ∈ fetched tr ∨ fetchedBy e = some x := by
  simp [fetched]

theorem created_sublist_concat (tr : List (Event pollSig ι)) (e : Event pollSig ι) :
    (created tr).Sublist (created (tr ++ [e])) := by
  rw [created, created, List.filterMap_append]
  exact List.sublist_append_left _ _

end Trace

/-! ## What becomes of the releases -/

/-- The releases that were there are still there, with the same nodes unless one has gone from all. -/
structure Later (s s' : MemoryState) : Prop where
  stays : ∀ id : Uuid, id ∈ s.releases → id ∈ s'.releases
  becomes : ∀ (id : Uuid) (r' : ReleaseRecord), id ∈ s.releases → s'.releases[id]? = some r' →
    ∃ r : ReleaseRecord, s.releases[id]? = some r ∧ r.Becomes r'
  listed : ∀ (nodeId id id₀ : Uuid) (r r₀ : ReleaseRecord), s.releases[id]? = some r → nodeId ∈ r.targetNodeIds →
    id₀ ∈ s.releases → s'.releases[id₀]? = some r₀ → nodeId ∈ r₀.targetNodeIds →
    ∃ r' : ReleaseRecord, s'.releases[id]? = some r' ∧ r.Becomes r' ∧ nodeId ∈ r'.targetNodeIds

/-- No release is saved. -/
structure Unsaved (w w' : World) : Prop where
  nextUuid : w.nextUuid ≤ w'.nextUuid
  releases : ∃ (f : Uuid → ReleaseRecord → ReleaseRecord) (gone : Option Uuid),
    (∀ k r, r.Becomes (f k r) ∧ ∀ n, n ∈ (f k r).targetNodeIds ↔ n ∈ r.targetNodeIds ∧ n ∉ gone) ∧
      ∀ k : Uuid, w'.store.releases[k]? = w.store.releases[k]?.map (f k)
  versions : w'.store.releaseIdsByVersion = w.store.releaseIdsByVersion
  pointed : ∀ n id : Uuid, w'.store.latestReleaseByNode[n]? = some id → w.store.latestReleaseByNode[n]? = some id
  latest : ∀ (n id : Uuid) (r : ReleaseRecord), w'.store.releases[id]? = some r → n ∈ r.targetNodeIds →
    w'.store.latestReleaseByNode[n]? = w.store.latestReleaseByNode[n]?

section Stores

variable {p : Platform} {c : HubCall} {w w' : World}

theorem Unsaved.refl (w : World) : Unsaved w w where
  nextUuid := Nat.le_refl _
  releases := ⟨fun _ r => r, none, fun _ r => ⟨.refl r, by simp⟩, fun k => Option.map_id'.symm⟩
  versions := rfl
  pointed _ _ h := h
  latest _ _ _ _ _ := rfl

/-- The latest release of a node is forgotten only with the node. -/
theorem latest_of_effect (h : c.effect ≠ some .saveRelease) (n : Uuid) :
    (hubHandler p c w).2.store.latestReleaseByNode[n]? = w.store.latestReleaseByNode[n]? ∨
      (hubHandler p c w).2.store.latestReleaseByNode[n]? = none ∧
        ∀ (id : Uuid) (r : ReleaseRecord), (hubHandler p c w).2.store.releases[id]? = some r → n ∉ r.targetNodeIds := by
  cases c with
  | saveRelease r => exact absurd rfl h
  | deleteNode nodeId =>
    simp only [hubHandler, World.write, MemoryState.deleteNode]
    split
    · exact .inl rfl
    · by_cases hn : n = nodeId
      · subst hn
        refine .inr ⟨Std.ExtTreeMap.getElem?_erase_self, fun id r hr hmem => ?_⟩
        obtain ⟨r₀, -, rfl⟩ := Maps.getElem?_map_eq_some hr
        exact absurd (List.mem_filter.1 hmem).2 (by simp)
      · refine .inl ?_
        rw [Std.ExtTreeMap.getElem?_erase, if_neg]
        rw [Std.compare_eq_iff_eq]
        exact Ne.symm hn
  | deleteSite siteId =>
    simp only [hubHandler, World.write, MemoryState.deleteSite]
    split <;> exact .inl rfl
  | deleteDnsProvider providerId =>
    simp only [hubHandler, World.write, MemoryState.deleteDnsProvider]
    split <;> exact .inl rfl
  | deleteOperationTemplate templateId =>
    simp only [hubHandler, World.write, MemoryState.deleteOperationTemplate]
    split <;> exact .inl rfl
  | claimNextNodeOperation nodeId =>
    simp only [hubHandler, MemoryState.claimNextNodeOperation]
    split <;> exact .inl rfl
  | _ => exact .inl rfl

theorem Unsaved.call (h : c.effect ≠ some .saveRelease) : Unsaved w (hubHandler p c w).2 where
  nextUuid := nextUuid_le
  releases := releases_map_of_effect h
  versions := releaseIdsByVersion_of_effect h
  pointed n id hid := by
    rcases latest_of_effect (p := p) (w := w) h n with hsame | ⟨hnone, -⟩
    · rw [← hsame, hid]
    · rw [hnone] at hid
      cases hid
  latest n id r hr hn := by
    rcases latest_of_effect (p := p) (w := w) h n with hsame | ⟨-, hgone⟩
    · exact hsame
    · exact absurd hn (hgone id r hr)

theorem Unsaved.mem_releases (h : Unsaved w w') {id : Uuid} : id ∈ w'.store.releases ↔ id ∈ w.store.releases := by
  obtain ⟨f, gone, -, hmap⟩ := h.releases
  rw [Std.ExtTreeMap.mem_iff_isSome_getElem?, hmap, Option.isSome_map, Std.ExtTreeMap.mem_iff_isSome_getElem?]

theorem Unsaved.later (h : Unsaved w w') : Later w.store w'.store := by
  obtain ⟨f, gone, hf, hmap⟩ := h.releases
  constructor
  · exact fun id hid => h.mem_releases.2 hid
  · intro id r' _ hr'
    rw [hmap, Option.map_eq_some_iff] at hr'
    obtain ⟨r, hr, rfl⟩ := hr'
    exact ⟨r, hr, (hf id r).1⟩
  · intro nodeId id id₀ r r₀ hr hn _ hr₀ hn₀
    rw [hmap, Option.map_eq_some_iff] at hr₀
    obtain ⟨r₁, -, rfl⟩ := hr₀
    have hstill := (((hf id₀ r₁).2 nodeId).1 hn₀).2
    exact ⟨f id r, by rw [hmap, hr]; rfl, (hf id r).1, ((hf id r).2 nodeId).2 ⟨hn, hstill⟩⟩

/-- The latest releases after one more: the new one for its targets. -/
theorem latest_saveRelease (s : MemoryState) (r : ReleaseRecord) (n : Uuid) :
    (s.saveRelease r).latestReleaseByNode[n]? =
      if n ∈ r.targetNodeIds then some r.releaseId else s.latestReleaseByNode[n]? := by
  simp only [MemoryState.saveRelease]
  generalize s.latestReleaseByNode = m
  induction r.targetNodeIds generalizing m with
  | nil => rfl
  | cons t ts ih =>
    rw [List.foldl_cons, ih, Std.ExtTreeMap.getElem?_insert]
    simp only [Std.compare_eq_iff_eq, List.mem_cons]
    by_cases hts : n ∈ ts
    · simp [hts]
    · by_cases ht : t = n
      · simp [ht]
      · simp [hts, ht, Ne.symm ht]

theorem getElem?_saveRelease {s : MemoryState} {r r' : ReleaseRecord} {id : Uuid} (hne : id ≠ r.releaseId) :
    (s.saveRelease r).releases[id]? = some r' ↔ s.releases[id]? = some r' := by
  simp only [MemoryState.saveRelease]
  rw [Std.ExtTreeMap.getElem?_insert, if_neg]
  rw [Std.compare_eq_iff_eq]
  exact Ne.symm hne

theorem getElem?_saveRelease_self (s : MemoryState) (r : ReleaseRecord) :
    (s.saveRelease r).releases[r.releaseId]? = some r := Std.ExtTreeMap.getElem?_insert_self

theorem Later.saveRelease {s : MemoryState} {r : ReleaseRecord} (hfresh : r.releaseId ∉ s.releases) :
    Later s (s.saveRelease r) := by
  have hne : ∀ id : Uuid, id ∈ s.releases → id ≠ r.releaseId := fun id hid e => hfresh (e ▸ hid)
  have hmem : ∀ (id : Uuid) (r₁ : ReleaseRecord), s.releases[id]? = some r₁ → id ∈ s.releases := fun id r₁ hr => by
    rw [Std.ExtTreeMap.mem_iff_isSome_getElem?, hr]
    rfl
  constructor
  · intro id hid
    exact Std.ExtTreeMap.mem_insert.2 (.inr hid)
  · intro id r' hid hr'
    exact ⟨r', (getElem?_saveRelease (hne id hid)).1 hr', .refl r'⟩
  · intro nodeId id id₀ r₁ r₀ hr₁ hn _ _ _
    exact ⟨r₁, (getElem?_saveRelease (hne id (hmem id r₁ hr₁))).2 hr₁, .refl r₁, hn⟩

end Stores

/-! ## The hub's part of the invariant -/

/-- Each release waits for its nodes or has reached them. -/
structure StoreInv {ι : Type} (w : World) (tr : List (Event pollSig ι)) : Prop where
  keyed : ∀ (id : Uuid) (r : ReleaseRecord), w.store.releases[id]? = some r → r.releaseId = id
  drawn : ∀ id : Uuid, id ∈ w.store.releases → id < w.nextUuid
  saved : ∀ id : Uuid, id ∈ created tr ↔ id ∈ w.store.releases
  path : ∀ (id : Uuid) (r : ReleaseRecord), w.store.releases[id]? = some r → '?' ∉ r.releaseVersion.toList
  version : ∀ (v : String) (id : Uuid), w.store.releaseIdsByVersion[v]? = some id →
    ∃ r : ReleaseRecord, w.store.releases[id]? = some r ∧ r.releaseVersion = v
  pointed : ∀ n id : Uuid, w.store.latestReleaseByNode[n]? = some id → id ∈ w.store.releases
  waiting : ∀ (n id : Uuid) (r : ReleaseRecord), w.store.releases[id]? = some r → n ∈ r.targetNodeIds →
    Reached tr w.store n id r ∨ Waiting tr w.store n id r

section StoreInv

variable {ι : Type} {w w' : World} {tr : List (Event pollSig ι)} {e : Event pollSig ι} {s s' : MemoryState}
  {n id : Uuid} {r r' : ReleaseRecord}

theorem mem_of_getElem? {m : HashMap Uuid ReleaseRecord} (h : m[id]? = some r) : id ∈ m := by
  rw [Std.ExtTreeMap.mem_iff_isSome_getElem?, h]
  rfl

theorem StoreInv.init : StoreInv World.init ([] : List (Event pollSig ι)) := by
  constructor
  all_goals simp [World.init, MemoryState.empty, created]

/-- A release that was fetched or superseded stays so. -/
theorem Reached.later (h : Reached tr s n id r) (hs : Later s s') (hr : s.releases[id]? = some r)
    (hr' : s'.releases[id]? = some r') (hb : r.Becomes r') (hn : n ∈ r'.targetNodeIds) (e : Event pollSig ι) :
    Reached (tr ++ [e]) s' n id r' := by
  rcases h with h | ⟨id₂, r₂, hsub, hr₂, hscope, hn₂⟩
  · exact .inl (mem_fetched_concat.2 (.inl h))
  · obtain ⟨r₂', hr₂', hb₂, hn₂'⟩ := hs.listed n id₂ id r₂ r' hr₂ hn₂ (mem_of_getElem? hr) hr' hn
    refine .inr ⟨id₂, r₂', hsub.trans (created_sublist_concat tr e), hr₂', ?_, hn₂'⟩
    rw [hb₂.scopeId, hscope, hb.scopeId]

/-- A call that saves no release. -/
theorem StoreInv.unsaved (h : StoreInv w tr) (hw : Unsaved w w') (hcreated : createdBy e = none)
    (hserved : ∀ n v id, servedBy e = some (n, v, id) → w.store.releaseIdsByVersion[v]? = some id ∧
      ∃ r : ReleaseRecord, w.store.releases[id]? = some r ∧ n ∈ r.targetNodeIds) :
    StoreInv w' (tr ++ [e]) := by
  have hlater := hw.later
  have hback : ∀ (id : Uuid) (r' : ReleaseRecord), w'.store.releases[id]? = some r' →
      ∃ r : ReleaseRecord, w.store.releases[id]? = some r ∧ r.Becomes r' := fun id r' hr' =>
    hlater.becomes id r' (hw.mem_releases.1 (mem_of_getElem? hr')) hr'
  constructor
  · intro id r' hr'
    obtain ⟨r, hr, hb⟩ := hback id r' hr'
    rw [hb.releaseId, h.keyed id r hr]
  · intro id hid
    exact Nat.lt_of_lt_of_le (h.drawn id (hw.mem_releases.1 hid)) hw.nextUuid
  · intro id
    rw [mem_created_concat, hcreated, hw.mem_releases, ← h.saved id]
    simp
  · intro id r' hr'
    obtain ⟨r, hr, hb⟩ := hback id r' hr'
    rw [hb.version]
    exact h.path id r hr
  · intro v id hv
    rw [hw.versions] at hv
    obtain ⟨r, hr, hrv⟩ := h.version v id hv
    have hid := hw.mem_releases.2 (mem_of_getElem? hr)
    rw [Std.ExtTreeMap.mem_iff_isSome_getElem?] at hid
    obtain ⟨r', hr'⟩ := Option.isSome_iff_exists.1 hid
    obtain ⟨r₀, hr₀, hb⟩ := hback id r' hr'
    rw [hr] at hr₀
    cases hr₀
    exact ⟨r', hr', hb.version.trans hrv⟩
  · intro n id hid
    exact hw.mem_releases.2 (h.pointed n id (hw.pointed n id hid))
  · intro n id r' hr' hn
    obtain ⟨r, hr, hb⟩ := hback id r' hr'
    rcases h.waiting n id r hr (hb.targets n hn) with hreached | hwaiting
    · exact .inl (hreached.later hlater hr hr' hb hn e)
    · have hversion : ∀ (id' : Uuid) (r₁ : ReleaseRecord), w.store.releaseIdsByVersion[r.releaseVersion]? = some id' →
          w.store.releases[id']? = some r₁ → n ∈ r₁.targetNodeIds → id' = id := hwaiting.version
      refine .inr ⟨?_, ?_, ?_⟩
      · rw [hw.latest n id r' hr' hn]
        exact hwaiting.latest
      · intro id' hserve
        rw [hb.version] at hserve
        rcases mem_served_concat.1 hserve with hserve | hserve
        · exact hwaiting.served id' hserve
        · obtain ⟨hv, r₁, hr₁, hn₁⟩ := hserved _ _ _ hserve
          exact hversion id' r₁ hv hr₁ hn₁
      · intro id' r₁' hv hr₁' hn₁
        rw [hb.version, hw.versions] at hv
        obtain ⟨r₁, hr₁, hb₁⟩ := hback id' r₁' hr₁'
        exact hversion id' r₁ hv hr₁ (hb₁.targets n hn₁)

/-- A release is saved in turn: the nodes were not served its version, and their latest releases are for the same site
or were fetched. -/
theorem StoreInv.saveRelease (h : StoreInv w tr) (hfresh : r.releaseId ∉ w.store.releases)
    (hdrawn : r.releaseId < w.nextUuid) (hpath : '?' ∉ r.releaseVersion.toList)
    (he : createdBy e = some r.releaseId) (hserved : servedBy e = none)
    (hversion : ∀ n ∈ r.targetNodeIds, ∀ id, (n, r.releaseVersion, id) ∉ served tr)
    (hturn : ∀ n ∈ r.targetNodeIds, ∀ (id : Uuid) (r₀ : ReleaseRecord), w.store.latestReleaseByNode[n]? = some id →
      w.store.releases[id]? = some r₀ → r.scopeId = r₀.scopeId ∨ (n, id) ∈ fetched tr) :
    StoreInv { w with store := w.store.saveRelease r } (tr ++ [e]) := by
  have hlater := Later.saveRelease hfresh
  have hself := getElem?_saveRelease_self w.store r
  have hother : ∀ (id : Uuid) (r' : ReleaseRecord), (w.store.saveRelease r).releases[id]? = some r' →
      (id = r.releaseId ∧ r' = r) ∨ (id ≠ r.releaseId ∧ w.store.releases[id]? = some r') := fun id r' hr' =>
    Maps.getElem?_insert_eq_some hr'
  have hindex : ∀ (v : String) (id : Uuid), (w.store.saveRelease r).releaseIdsByVersion[v]? = some id →
      (v = r.releaseVersion ∧ id = r.releaseId) ∨ (v ≠ r.releaseVersion ∧ w.store.releaseIdsByVersion[v]? = some id) :=
    fun v id hv => Maps.getElem?_insert_eq_some hv
  constructor
  · intro id r' hr'
    rcases hother id r' hr' with ⟨rfl, rfl⟩ | ⟨-, hr'⟩
    · rfl
    · exact h.keyed id r' hr'
  · intro id hid
    rcases Std.ExtTreeMap.mem_insert.1 hid with hid | hid
    · rw [Std.compare_eq_iff_eq] at hid
      exact hid ▸ hdrawn
    · exact h.drawn id hid
  · intro id
    rw [mem_created_concat, he, h.saved id]
    constructor
    · rintro (hid | hid)
      · exact hlater.stays id hid
      · exact mem_of_getElem? (Option.some.inj hid ▸ hself)
    · intro hid
      rcases Std.ExtTreeMap.mem_insert.1 hid with hid | hid
      · rw [Std.compare_eq_iff_eq] at hid
        exact .inr (congrArg some hid)
      · exact .inl hid
  · intro id r' hr'
    rcases hother id r' hr' with ⟨rfl, rfl⟩ | ⟨-, hr'⟩
    · exact hpath
    · exact h.path id r' hr'
  · intro v id hv
    rcases hindex v id hv with ⟨rfl, rfl⟩ | ⟨-, hv⟩
    · exact ⟨r, hself, rfl⟩
    · obtain ⟨r', hr', hrv⟩ := h.version v id hv
      exact ⟨r', (getElem?_saveRelease fun hid => hfresh (hid ▸ mem_of_getElem? hr')).2 hr', hrv⟩
  · intro n id hid
    rw [latest_saveRelease] at hid
    split at hid
    · cases hid
      exact mem_of_getElem? hself
    · exact hlater.stays id (h.pointed n id hid)
  · intro n id r' hr' hn
    rcases hother id r' hr' with ⟨rfl, rfl⟩ | ⟨hne, hr⟩
    · -- the new release
      refine .inr ⟨by rw [latest_saveRelease, if_pos hn], ?_, ?_⟩
      · intro id' hserve
        rcases mem_served_concat.1 hserve with hserve | hserve
        · exact absurd hserve (hversion n hn id')
        · rw [hserved] at hserve
          cases hserve
      · intro id' r₁ hv _ _
        rcases hindex _ id' hv with ⟨-, rfl⟩ | ⟨hnv, -⟩
        · rfl
        · exact absurd rfl hnv
    · rcases h.waiting n id r' hr hn with hreached | hwaiting
      · exact .inl (hreached.later hlater hr hr' (.refl r') hn e)
      · by_cases hmem : n ∈ r.targetNodeIds
        · -- the new release takes its place
          refine .inl ?_
          rcases hturn n hmem id r' hwaiting.latest hr with hscope | hfetched
          · refine .inr ⟨r.releaseId, r, ?_, hself, hscope, hmem⟩
            have hid : [id].Sublist (created tr) :=
              List.singleton_sublist.2 ((h.saved id).2 (mem_of_getElem? hr))
            have hcreated : created (tr ++ [e]) = created tr ++ [r.releaseId] := by
              rw [created, List.filterMap_append, List.filterMap_cons, he]
              rfl
            rw [hcreated]
            exact hid.append (List.Sublist.refl [r.releaseId])
          · exact .inl (mem_fetched_concat.2 (.inl hfetched))
        · refine .inr ⟨?_, ?_, ?_⟩
          · rw [latest_saveRelease, if_neg hmem]
            exact hwaiting.latest
          · intro id' hserve
            rcases mem_served_concat.1 hserve with hserve | hserve
            · exact hwaiting.served id' hserve
            · rw [hserved] at hserve
              cases hserve
          · intro id' r₁ hv hr₁ hn₁
            rcases hother id' r₁ hr₁ with ⟨rfl, rfl⟩ | ⟨-, hr₁⟩
            · exact absurd hn₁ hmem
            · rcases hindex _ id' hv with ⟨-, rfl⟩ | ⟨-, hv⟩
              · exact absurd (mem_of_getElem? hr₁) hfresh
              · exact hwaiting.version id' r₁ hv hr₁ hn₁

end StoreInv

/-! ## The polls' part of the invariant -/

/-- A version was served to the node of a poll; if it is that of the release asked for, then as that release, unless it
was out of the question. -/
structure FoundFor {ι : Type} (tr : List (Event pollSig ι)) (s : MemoryState) (g : Poll) (version : String)
    (package : Uuid) : Prop where
  served : (g.nodeId, version, package) ∈ served tr
  asked : ∀ id, g.asked = some (some id) → ∀ r : ReleaseRecord, s.releases[id]? = some r → r.releaseVersion = version →
    g.nodeId ∈ r.targetNodeIds → Reached tr s g.nodeId id r ∨ package = id

/-- What a poll knows is true. -/
structure PollInv {ι : Type} (tr : List (Event pollSig ι)) (s : MemoryState) (g : Poll) : Prop where
  held : ∀ version, g.held = some version →
    ∃ package, (g.nodeId, package) ∈ fetched tr ∧ (g.nodeId, version, package) ∈ served tr
  stored : ∀ id, g.asked = some (some id) → id ∈ s.releases
  asked : ∀ id, g.asked = some (some id) → ∀ r : ReleaseRecord, s.releases[id]? = some r → g.nodeId ∈ r.targetNodeIds →
    g.held = some r.releaseVersion → Reached tr s g.nodeId id r
  offered : ∀ version, g.offered = some version → ∀ id, g.asked = some (some id) → ∀ r : ReleaseRecord,
    s.releases[id]? = some r → r.releaseVersion = version
  found : ∀ version package, g.found = some (version, package) → FoundFor tr s g version package
  got : ∀ version package, g.got = some (version, package) →
    (g.nodeId, package) ∈ fetched tr ∧ FoundFor tr s g version package

section PollInv

variable {ι : Type} {tr : List (Event pollSig ι)} {s s' : MemoryState} {g : Poll}

theorem FoundFor.later {version : String} {package : Uuid} (h : FoundFor tr s g version package) (hs : Later s s')
    (hstored : ∀ id, g.asked = some (some id) → id ∈ s.releases) (e : Event pollSig ι) :
    FoundFor (tr ++ [e]) s' g version package := by
  refine ⟨mem_served_concat.2 (.inl h.served), fun id hid r' hr' hversion hn => ?_⟩
  obtain ⟨r, hr, hb⟩ := hs.becomes id r' (hstored id hid) hr'
  rcases h.asked id hid r hr (hb.version.symm.trans hversion) (hb.targets _ hn) with hreached | hpackage
  · exact .inl (hreached.later hs hr hr' hb hn e)
  · exact .inr hpackage

/-- What a poll knows stays true. -/
theorem PollInv.later (h : PollInv tr s g) (hs : Later s s') (e : Event pollSig ι) : PollInv (tr ++ [e]) s' g := by
  constructor
  · intro version hheld
    obtain ⟨package, hfetched, hserved⟩ := h.held version hheld
    exact ⟨package, mem_fetched_concat.2 (.inl hfetched), mem_served_concat.2 (.inl hserved)⟩
  · exact fun id hid => hs.stays id (h.stored id hid)
  · intro id hid r' hr' hn hheld
    obtain ⟨r, hr, hb⟩ := hs.becomes id r' (h.stored id hid) hr'
    rw [hb.version] at hheld
    exact (h.asked id hid r hr (hb.targets _ hn) hheld).later hs hr hr' hb hn e
  · intro version hoffered id hid r' hr'
    obtain ⟨r, hr, hb⟩ := hs.becomes id r' (h.stored id hid) hr'
    rw [hb.version]
    exact h.offered version hoffered id hid r hr
  · exact fun version package hfound => (h.found version package hfound).later hs h.stored e
  · intro version package hgot
    obtain ⟨hfetched, hfound⟩ := h.got version package hgot
    exact ⟨mem_fetched_concat.2 (.inl hfetched), hfound.later hs h.stored e⟩

/-- A poll that has asked for nothing yet and starts with a version that its node has fetched. -/
theorem PollInv.start {nodeId : Uuid} {state : LocalAgentState}
    (h : ∀ version, state.currentReleaseVersion = some version →
      ∃ package, (nodeId, package) ∈ fetched tr ∧ (nodeId, version, package) ∈ served tr) :
    PollInv tr s (.start nodeId state) := by
  constructor
  case held => exact h
  all_goals simp [Poll.start]

/-- The latest release of a node: its version was served as no other release. -/
theorem PollInv.query {w : World} (h : PollInv tr w.store g) (hs : StoreInv w tr) (hg : g.Fresh)
    (e : Event pollSig ι) :
    PollInv (tr ++ [e]) w.store { g with asked := some w.store.latestReleaseByNode[g.nodeId]? } := by
  obtain ⟨-, hoffered, hfound, hgot⟩ := hg
  have hlater := (Unsaved.refl w).later
  constructor
  · exact (h.later hlater e).held
  · intro id hid
    exact hs.pointed g.nodeId id (Option.some.inj hid)
  · intro id hid r hr hn hheld
    obtain ⟨package, hfetched, hserved⟩ := h.held r.releaseVersion hheld
    have hreached : Reached tr w.store g.nodeId id r := by
      rcases hs.waiting g.nodeId id r hr hn with hreached | hwaiting
      · exact hreached
      · rw [hwaiting.served package hserved] at hfetched
        exact .inl hfetched
    exact hreached.later hlater hr hr (.refl r) hn e
  all_goals simp [hoffered, hfound, hgot]

/-- The release asked for. -/
theorem PollInv.release {id : Uuid} {r : ReleaseRecord} (h : PollInv tr s g) (hr : s.releases[id]? = some r)
    (hasked : g.asked = some (some id)) : PollInv tr s { g with offered := g.offered.or (some r.releaseVersion) } where
  held := h.held
  stored := h.stored
  asked := h.asked
  offered version hversion id' hid r' hr' := by
    cases ho : g.offered with
    | some old =>
      rw [ho] at hversion
      cases hversion
      exact h.offered _ ho id' hid r' hr'
    | none =>
      rw [ho] at hversion
      cases hversion
      rw [hasked] at hid
      cases hid
      rw [hr] at hr'
      cases hr'
      rfl
  found version package hfound := ⟨(h.found version package hfound).served, (h.found version package hfound).asked⟩
  got version package hgot :=
    ⟨(h.got version package hgot).1, (h.got version package hgot).2.served, (h.got version package hgot).2.asked⟩

/-- A release that the version asked for finds: the one that waits under that version, if there is one. -/
theorem PollInv.package {w : World} {id : Uuid} {r : ReleaseRecord} (h : PollInv tr w.store g) (hs : StoreInv w tr)
    (hv : w.store.releaseIdsByVersion[r.releaseVersion]? = some id) (hr : w.store.releases[id]? = some r)
    (hn : g.nodeId ∈ r.targetNodeIds) {e : Event pollSig ι}
    (he : servedBy e = some (g.nodeId, r.releaseVersion, r.releaseId)) :
    PollInv (tr ++ [e]) w.store { g with found := some (r.releaseVersion, r.releaseId) } := by
  have hlater := (Unsaved.refl w).later
  have h' := h.later hlater e
  refine { held := h'.held, stored := h'.stored, asked := h'.asked, offered := h'.offered, found := ?_, got := ?_ }
  · rintro _ _ ⟨⟩
    refine ⟨mem_served_concat.2 (.inr he), fun id' hid r' hr' hversion hn' => ?_⟩
    rcases hs.waiting g.nodeId id' r' hr' hn' with hreached | hwaiting
    · exact .inl (hreached.later hlater hr' hr' (.refl r') hn' e)
    · rw [← hversion] at hv
      rw [hs.keyed id r hr]
      exact .inr (hwaiting.version id r hv hr hn)
  · intro version package hgot
    obtain ⟨hfetched, hfound⟩ := h'.got version package hgot
    exact ⟨hfetched, hfound.served, hfound.asked⟩

/-- A package that arrives. -/
theorem PollInv.receive (h : PollInv tr s g) {package : Option Uuid} {failure : Option String} {e : Event pollSig ι}
    (hs : Later s s) (hok : ∀ id ∈ package, ∃ version, g.found = some (version, id))
    (he : ∀ id, package = some id → failure = none → fetchedBy e = some (g.nodeId, id)) :
    PollInv (tr ++ [e]) s (g.receive package failure) := by
  have h' := h.later hs e
  unfold Poll.receive
  split
  · rename_i id
    obtain ⟨version, hfound⟩ := hok id rfl
    refine { held := h'.held, stored := h'.stored, asked := h'.asked, offered := h'.offered, found := ?_, got := ?_ }
    · exact fun v k hf => ⟨(h'.found v k hf).served, (h'.found v k hf).asked⟩
    · intro v k hgot
      have hgot : g.found = some (v, k) := hgot
      rw [hfound] at hgot
      cases hgot
      refine ⟨mem_fetched_concat.2 (.inr (he id rfl rfl)), ?_⟩
      exact ⟨(h'.found version id hfound).served, (h'.found version id hfound).asked⟩
  · exact h'

end PollInv

/-! ## The invariant -/

/-- The releases and the polls, identifiers that are drawn and not used yet, and what each query has left behind. -/
structure DeliveryInv {ι η : Type} (g : ι → Option (Option Uuid ⊕ Poll)) (s : World × η) (tr : List (Event pollSig ι)) :
    Prop where
  store : StoreInv s.1 tr
  drawn : ∀ i id, g i = some (.inl (some id)) → id < s.1.nextUuid ∧ id ∉ s.1.store.releases ∧
    ∀ j, g j = some (.inl (some id)) → j = i
  polls : ∀ i poll, g i = some (.inr poll) → PollInv tr s.1.store poll
  queries : ∀ pre e post, tr = pre ++ e :: post → ∀ i n latest, queriedBy e = some (i, n, latest) →
    ∃ poll, g i = some (.inr poll) ∧ poll.nodeId = n ∧ poll.asked = some latest ∧
      ∀ id ∈ created pre, ∀ r : ReleaseRecord, s.1.store.releases[id]? = some r → n ∈ r.targetNodeIds →
        Reached tr s.1.store n id r ∨ latest = some id

section DeliveryInv

variable {ι η : Type} [DecidableEq ι] {g : ι → Option (Option Uuid ⊕ Poll)} {w w' : World} {x x' : η}
  {tr : List (Event pollSig ι)} {i : ι} {e : Event pollSig ι}

omit [DecidableEq ι] in
theorem DeliveryInv.init (x : η) : DeliveryInv (ι := ι) (fun _ => none) (World.init, x) [] where
  store := .init
  drawn _ _ h := by cases h
  polls _ _ h := by cases h
  queries pre e post h := by simp at h

/-- The queries that were made, after one more call. -/
theorem DeliveryInv.old_queries (h : DeliveryInv g (w, x) tr) (hlater : Later w.store w'.store)
    {gi : Option Uuid ⊕ Poll}
    (hgi : ∀ poll latest, g i = some (.inr poll) → poll.asked = some latest →
      ∃ poll', gi = .inr poll' ∧ poll'.nodeId = poll.nodeId ∧ poll'.asked = some latest)
    (hnew : ∀ j n latest, queriedBy e = some (j, n, latest) → j = i ∧ ∃ poll, gi = .inr poll ∧ poll.nodeId = n ∧
      poll.asked = some latest ∧ ∀ id ∈ created tr, ∀ r : ReleaseRecord, w'.store.releases[id]? = some r →
        n ∈ r.targetNodeIds → Reached (tr ++ [e]) w'.store n id r ∨ latest = some id) :
    ∀ pre e' post, tr ++ [e] = pre ++ e' :: post → ∀ j n latest, queriedBy e' = some (j, n, latest) →
      ∃ poll, Function.update g i (some gi) j = some (.inr poll) ∧ poll.nodeId = n ∧ poll.asked = some latest ∧
        ∀ id ∈ created pre, ∀ r : ReleaseRecord, w'.store.releases[id]? = some r → n ∈ r.targetNodeIds →
          Reached (tr ++ [e]) w'.store n id r ∨ latest = some id := by
  intro pre e' post hsplit j n latest hq
  rcases List.eq_nil_or_concat post with rfl | ⟨post, last, rfl⟩
  · -- the call itself
    obtain ⟨rfl, hlast⟩ := List.append_inj' hsplit rfl
    cases hlast
    obtain ⟨rfl, poll, rfl, hnode, hasked, hall⟩ := hnew j n latest hq
    exact ⟨poll, Function.update_self .., hnode, hasked, hall⟩
  · rw [List.concat_eq_append, ← List.cons_append, ← List.append_assoc] at hsplit
    obtain ⟨rfl, hlast⟩ := List.append_inj' hsplit rfl
    obtain ⟨poll, hj, hnode, hasked, hall⟩ := h.queries pre e' post rfl j n latest hq
    have hreached : ∀ id ∈ created pre, ∀ r : ReleaseRecord, w'.store.releases[id]? = some r → n ∈ r.targetNodeIds →
        Reached (pre ++ e' :: post ++ [e]) w'.store n id r ∨ latest = some id := by
      intro id hid r' hr' hn
      have hmem : id ∈ w.store.releases := by
        refine (h.store.saved id).1 ?_
        rw [created, List.filterMap_append]
        exact List.mem_append_left _ hid
      obtain ⟨r, hr, hb⟩ := hlater.becomes id r' hmem hr'
      rcases hall id hid r hr (hb.targets n hn) with hreached | hlatest
      · exact .inl (hreached.later hlater hr hr' hb hn e)
      · exact .inr hlatest
    by_cases hji : j = i
    · subst hji
      obtain ⟨poll', rfl, hnode', hasked'⟩ := hgi poll latest hj hasked
      exact ⟨poll', Function.update_self .., hnode'.trans hnode, hasked', hreached⟩
    · exact ⟨poll, (Function.update_of_ne hji ..).trans hj, hnode, hasked, hreached⟩

/-- A call that saves no release. -/
theorem DeliveryInv.unsaved (h : DeliveryInv g (w, x) tr) (hw : Unsaved w w') (hcreated : createdBy e = none)
    (hserved : ∀ n v id, servedBy e = some (n, v, id) → w.store.releaseIdsByVersion[v]? = some id ∧
      ∃ r : ReleaseRecord, w.store.releases[id]? = some r ∧ n ∈ r.targetNodeIds)
    {gi : Option Uuid ⊕ Poll}
    (hdrawn : ∀ id, gi = .inl (some id) → g i = some (.inl (some id)) ∨ w.nextUuid ≤ id ∧ id < w'.nextUuid)
    (hpoll : ∀ poll, gi = .inr poll → PollInv (tr ++ [e]) w'.store poll)
    (hgi : ∀ poll latest, g i = some (.inr poll) → poll.asked = some latest →
      ∃ poll', gi = .inr poll' ∧ poll'.nodeId = poll.nodeId ∧ poll'.asked = some latest)
    (hnew : ∀ j n latest, queriedBy e = some (j, n, latest) → j = i ∧ ∃ poll, gi = .inr poll ∧ poll.nodeId = n ∧
      poll.asked = some latest ∧ ∀ id ∈ created tr, ∀ r : ReleaseRecord, w'.store.releases[id]? = some r →
        n ∈ r.targetNodeIds → Reached (tr ++ [e]) w'.store n id r ∨ latest = some id) :
    DeliveryInv (Function.update g i (some gi)) (w', x') (tr ++ [e]) := by
  have hbelow : ∀ j id, g j = some (.inl (some id)) → id < w.nextUuid := fun j id hj => (h.drawn j id hj).1
  constructor
  · exact h.store.unsaved hw hcreated hserved
  · -- an identifier that a request holds now, and who else holds it
    have hheld : ∀ j id, Function.update g i (some gi) j = some (.inl (some id)) →
        g j = some (.inl (some id)) ∨ j = i ∧ w.nextUuid ≤ id ∧ id < w'.nextUuid := by
      intro j id hj
      by_cases hji : j = i
      · subst hji
        rw [Function.update_self] at hj
        rcases hdrawn id (Option.some.inj hj) with hold | hfresh
        · exact .inl hold
        · exact .inr ⟨rfl, hfresh⟩
      · rw [Function.update_of_ne hji] at hj
        exact .inl hj
    intro j id hj
    rcases hheld j id hj with hold | ⟨rfl, hlow, hhigh⟩
    · obtain ⟨hlt, hfree, hunique⟩ := h.drawn j id hold
      refine ⟨Nat.lt_of_lt_of_le hlt hw.nextUuid, fun hmem => hfree (hw.mem_releases.1 hmem), fun k hk => ?_⟩
      rcases hheld k id hk with hold' | ⟨-, hlow, -⟩
      · exact hunique k hold'
      · exact absurd hlt (Nat.not_lt.2 hlow)
    · refine ⟨hhigh, fun hmem => ?_, fun k hk => ?_⟩
      · exact absurd (h.store.drawn id (hw.mem_releases.1 hmem)) (Nat.not_lt.2 hlow)
      · rcases hheld k id hk with hold | ⟨rfl, -⟩
        · exact absurd (hbelow k id hold) (Nat.not_lt.2 hlow)
        · rfl
  · intro j poll hj
    by_cases hji : j = i
    · subst hji
      rw [Function.update_self] at hj
      exact hpoll poll (Option.some.inj hj)
    · rw [Function.update_of_ne hji] at hj
      exact (h.polls j poll hj).later hw.later e
  · exact h.old_queries hw.later hgi hnew

/-- A request saves the release whose identifier it holds, in turn. -/
theorem DeliveryInv.saveRelease (h : DeliveryInv g (w, x) tr) {r : ReleaseRecord}
    (hi : g i = some (.inl (some r.releaseId))) (hpath : '?' ∉ r.releaseVersion.toList)
    (he : createdBy e = some r.releaseId) (hserved : servedBy e = none) (hqueried : queriedBy e = none)
    (hversion : ∀ n ∈ r.targetNodeIds, ∀ id, (n, r.releaseVersion, id) ∉ served tr)
    (hturn : ∀ n ∈ r.targetNodeIds, ∀ (id : Uuid) (r₀ : ReleaseRecord), w.store.latestReleaseByNode[n]? = some id →
      w.store.releases[id]? = some r₀ → r.scopeId = r₀.scopeId ∨ (n, id) ∈ fetched tr) :
    DeliveryInv (Function.update g i (some (.inl none))) ({ w with store := w.store.saveRelease r }, x)
      (tr ++ [e]) := by
  obtain ⟨hdrawn, hfresh, hunique⟩ := h.drawn i r.releaseId hi
  have hlater := Later.saveRelease hfresh
  constructor
  · exact h.store.saveRelease hfresh hdrawn hpath he hserved hversion hturn
  · intro j id hj
    by_cases hji : j = i
    · subst hji
      rw [Function.update_self] at hj
      cases hj
    · rw [Function.update_of_ne hji] at hj
      obtain ⟨hlt, hfree, hother⟩ := h.drawn j id hj
      refine ⟨hlt, fun hmem => ?_, fun k hk => ?_⟩
      · rcases Std.ExtTreeMap.mem_insert.1 hmem with hid | hmem
        · rw [Std.compare_eq_iff_eq] at hid
          subst hid
          exact hji (hunique j hj)
        · exact hfree hmem
      · by_cases hki : k = i
        · subst hki
          rw [Function.update_self] at hk
          cases hk
        · rw [Function.update_of_ne hki] at hk
          exact hother k hk
  · intro j poll hj
    by_cases hji : j = i
    · subst hji
      rw [Function.update_self] at hj
      cases hj
    · rw [Function.update_of_ne hji] at hj
      exact (h.polls j poll hj).later hlater e
  · refine h.old_queries hlater (fun poll latest hpoll _ => ?_) fun j n latest hq => ?_
    · rw [hi] at hpoll
      cases hpoll
    · rw [hqueried] at hq
      cases hq

end DeliveryInv

/-! ## The runs -/

section Runs

variable {ι η : Type} [DecidableEq ι]

/-- A poll starts without a version, or with the one that an earlier poll of its node has left. -/
def Carried (P : Pool pollSig (Option Polled) ι (World × η)) : Move ι PollRequest → Prop
  | .spawn _ (.poll _ registration state _) => ∀ version ∈ state.currentReleaseVersion,
      ∃ j polled, P.result j = some (some polled) ∧ polled.nodeId = registration.nodeId ∧
        polled.state.currentReleaseVersion = some version
  | _ => True

/-- When a release is saved, the hub has not served its version to its nodes, and the latest releases of its nodes are
for the same site or have been fetched. -/
def SavedInTurn (P : Pool pollSig (Option Polled) ι (World × η)) : Move ι PollRequest → Prop
  | .go i => ∀ c ∈ P.next i, ∀ r ∈ savedBy c, ∀ n ∈ r.targetNodeIds,
      (∀ x ∈ served P.trace, x.1 = n → x.2.1 ≠ r.releaseVersion) ∧
      ∀ id ∈ P.state.1.store.latestReleaseByNode[n]?, ∀ r₀ ∈ P.state.1.store.releases[id]?,
        r.scopeId = r₀.scopeId ∨ (n, id) ∈ fetched P.trace
  | .spawn _ _ => True

instance (P : Pool pollSig (Option Polled) ι (World × η)) : DecidablePred (SavedInTurn P)
  | .go i => inferInstanceAs (Decidable (∀ c ∈ P.next i, ∀ r ∈ savedBy c, ∀ n ∈ r.targetNodeIds,
      (∀ x ∈ served P.trace, x.1 = n → x.2.1 ≠ r.releaseVersion) ∧
      ∀ id ∈ P.state.1.store.latestReleaseByNode[n]?, ∀ r₀ ∈ P.state.1.store.releases[id]?,
        r.scopeId = r₀.scopeId ∨ (n, id) ∈ fetched P.trace))
  | .spawn _ _ => inferInstanceAs (Decidable True)

/-- A poll that has ended well leaves no release behind that was saved before it asked and lists its node: the node has
fetched the release, or there is a newer one for the same site that lists the node. -/
def NoReleaseLost (P : Pool pollSig (Option Polled) ι (World × η)) : Prop :=
  ∀ i nodeId ended, P.result i = some (some ⟨nodeId, .ok ended⟩) →
    ∀ pre query post, P.trace = pre ++ query :: post → (∃ latest, queriedBy query = some (i, nodeId, latest)) →
      ∀ id ∈ created pre, ∀ r : ReleaseRecord, P.state.1.store.releases[id]? = some r → nodeId ∈ r.targetNodeIds →
        (nodeId, id) ∈ fetched P.trace ∨ Superseded P.trace P.state.1.store nodeId id r

variable {p : Platform} {around : Surroundings η} {encoding : Encoding}

/-- What is asked of a move. -/
def DeliveryMove (P : Pool pollSig (Option Polled) ι (World × η)) (m : Move ι PollRequest) : Prop :=
  Carried P m ∧ SavedInTurn P m

omit [DecidableEq ι] in
/-- What an answer of the hub to a poll is like. -/
theorem trusts_answer {w : World} {tr : List (Event pollSig ι)} {g : Poll} (hs : StoreInv w tr)
    (h : PollInv tr w.store g) (c : HubCall) : g.Trusts c (hubHandler p c w).1 := by
  cases c with
  | release id =>
    simp only [hubHandler, World.read, Poll.Trusts]
    cases hr : w.store.releases[id]? with
    | none =>
      intro hasked
      have hmem := h.stored id hasked
      rw [Std.ExtTreeMap.mem_iff_isSome_getElem?, hr] at hmem
      cases hmem
    | some r => exact hs.path id r hr
  | releaseByVersion version =>
    simp only [hubHandler, World.read, Poll.Trusts, MemoryState.releaseByVersion]
    cases hv : w.store.releaseIdsByVersion[version]? with
    | none => trivial
    | some id =>
      obtain ⟨r, hr, hversion⟩ := hs.version version id hv
      rw [Option.bind_some, hr]
      exact hversion
  | _ => trivial

omit [DecidableEq ι] in
/-- A call that the hub makes for a poll. -/
theorem PollInv.see {w : World} {tr : List (Event pollSig ι)} {g : Poll} (h : PollInv tr w.store g) (hs : StoreInv w tr)
    {c : HubCall} (hok : servingSpec.ok c g) (i : ι) :
    PollInv (tr ++ [⟨i, .serving g.nodeId c, (hubHandler p c w).1⟩]) (hubHandler p c w).2.store
      (g.see c (hubHandler p c w).1) := by
  have hlater : Later w.store (hubHandler p c w).2.store := (Unsaved.call hok.1).later
  cases c with
  | latestReleaseIdForNode nodeId =>
    obtain ⟨rfl, hg⟩ := hok.2 nodeId rfl
    exact h.query hs hg _
  | release id =>
    simp only [hubHandler, World.read] at hlater ⊢
    cases hr : w.store.releases[id]? with
    | none => exact h.later hlater _
    | some r =>
      simp only [Poll.see]
      split
      · exact (h.later hlater _).release hr (by assumption)
      · exact h.later hlater _
  | releaseByVersion version =>
    simp only [hubHandler, World.read, MemoryState.releaseByVersion] at hlater ⊢
    cases hv : w.store.releaseIdsByVersion[version]? with
    | none => exact h.later hlater _
    | some id =>
      obtain ⟨r, hr, rfl⟩ := hs.version version id hv
      simp only [Option.bind_some, hr, Poll.see]
      split
      · rename_i hn
        exact h.package hs hv hr hn (if_pos hn)
      · exact h.later hlater _
  | saveRelease r => exact absurd rfl hok.1
  | _ => exact h.later hlater _

omit [DecidableEq ι] in
/-- What was served is in the store. -/
theorem stored_of_servedBy {w : World} {tr : List (Event pollSig ι)} (hs : StoreInv w tr) {i : ι} {nodeId : Uuid}
    {c : HubCall} {n : Uuid} {v : String} {id : Uuid}
    (h : servedBy ⟨i, .serving nodeId c, (hubHandler p c w).1⟩ = some (n, v, id)) :
    w.store.releaseIdsByVersion[v]? = some id ∧
      ∃ r : ReleaseRecord, w.store.releases[id]? = some r ∧ n ∈ r.targetNodeIds := by
  cases c with
  | releaseByVersion version =>
    simp only [hubHandler, World.read, MemoryState.releaseByVersion] at h
    cases hv : w.store.releaseIdsByVersion[version]? with
    | none =>
      rw [hv] at h
      cases h
    | some id' =>
      obtain ⟨r, hr, rfl⟩ := hs.version version id' hv
      rw [hv, Option.bind_some, hr] at h
      simp only [servedBy] at h
      split at h
      · rename_i hn
        cases h
        rw [hs.keyed id' r hr]
        exact ⟨hv, r, hr, hn⟩
      · cases h
  | _ => cases h

/-- A query is answered with the release that waits. -/
theorem asked_see {g : Poll} {c : HubCall} {r : c.Ans} (hc : ∀ nodeId, c ≠ .latestReleaseIdForNode nodeId) :
    (g.see c r).asked = g.asked := by
  unfold Poll.see
  split
  · exact absurd rfl (hc _)
  · split <;> rfl
  · split <;> rfl
  · rfl

/-- A request makes a call that saves no release. -/
theorem DeliveryInv.hub_call {g : ι → Option (Option Uuid ⊕ Poll)} {w : World} {x : η} {tr : List (Event pollSig ι)}
    {i : ι} {d : Option Uuid} (h : DeliveryInv g (w, x) tr) (hi : g i = some (.inl d)) {c : HubCall}
    (hc : ∀ r, c ≠ .saveRelease r) :
    ∃ gi, pollSpec.can (.hub c) (.inl d) (hubHandler p c w).1 gi ∧
      DeliveryInv (Function.update g i (some gi)) ((hubHandler p c w).2, x)
        (tr ++ [⟨i, .hub c, (hubHandler p c w).1⟩]) := by
  have heffect : c.effect ≠ some .saveRelease := by
    cases c with
    | saveRelease r => exact absurd rfl (hc r)
    | _ => simp [HubCall.effect]
  refine ⟨.inl _, rfl, h.unsaved (Unsaved.call heffect) ?_ (fun _ _ _ e => by cases e) ?_
    (fun _ e => by cases e) ?_ (fun _ _ _ e => by cases e)⟩
  · cases c with
    | saveRelease r => exact absurd rfl (hc r)
    | _ => rfl
  · intro id hid
    cases c with
    | saveRelease r => exact absurd rfl (hc r)
    | newUuid =>
      cases hid
      exact .inr ⟨Nat.le_refl _, Nat.lt_succ_self _⟩
    | _ => exact .inl (hi.trans (congrArg some hid))
  · intro poll latest hpoll
    rw [hi] at hpoll
    cases hpoll

/-- The hub makes a call for a poll. -/
theorem DeliveryInv.serving_call {g : ι → Option (Option Uuid ⊕ Poll)} {w : World} {x : η}
    {tr : List (Event pollSig ι)} {i : ι} {poll : Poll} (h : DeliveryInv g (w, x) tr) (hi : g i = some (.inr poll))
    {c : HubCall} (hok : servingSpec.ok c poll) :
    DeliveryInv (Function.update g i (some (.inr (poll.see c (hubHandler p c w).1)))) ((hubHandler p c w).2, x)
      (tr ++ [⟨i, .serving poll.nodeId c, (hubHandler p c w).1⟩]) := by
  have hpoll := h.polls i poll hi
  refine h.unsaved (Unsaved.call hok.1) rfl (fun n v id => stored_of_servedBy h.store) (fun _ e => by cases e) ?_ ?_ ?_
  · rintro _ ⟨⟩
    exact hpoll.see h.store hok i
  · intro poll' latest hpoll' hasked
    rw [hi] at hpoll'
    cases hpoll'
    refine ⟨_, rfl, Poll.nodeId_see _ _ _, ?_⟩
    rw [asked_see, hasked]
    rintro nodeId rfl
    rw [(hok.2 nodeId rfl).2.1] at hasked
    cases hasked
  · intro j n latest hq
    cases c with
    | latestReleaseIdForNode nodeId =>
      cases hq
      obtain ⟨rfl, -⟩ := hok.2 nodeId rfl
      refine ⟨rfl, _, rfl, rfl, rfl, fun id _ r hr hn => ?_⟩
      rcases h.store.waiting poll.nodeId id r hr hn with hreached | hwaiting
      · exact .inl (hreached.later (Unsaved.refl w).later hr hr (.refl r) hn _)
      · exact .inr hwaiting.latest
    | _ => cases hq

/-- A call that the hub takes no part in, and that tells the poll nothing. -/
theorem DeliveryInv.elsewhere {g : ι → Option (Option Uuid ⊕ Poll)} {w : World} {x x' : η}
    {tr : List (Event pollSig ι)} {i : ι} {poll : Poll} (h : DeliveryInv g (w, x) tr) (hi : g i = some (.inr poll))
    {e : Event pollSig ι} (hcreated : createdBy e = none) (hserved : servedBy e = none)
      (hqueried : queriedBy e = none) :
    DeliveryInv (Function.update g i (some (.inr poll))) (w, x') (tr ++ [e]) := by
  refine h.unsaved (.refl w) hcreated (fun _ _ _ hs => ?_) (fun _ hd => by cases hd) ?_ ?_ fun _ _ _ hq => ?_
  · rw [hserved] at hs
    cases hs
  · rintro _ ⟨⟩
    exact (h.polls i poll hi).later (Unsaved.refl w).later _
  · exact fun poll' latest hpoll' hasked => ⟨poll', Option.some.inj (hi.symm.trans hpoll'), rfl, hasked⟩
  · rw [hqueried] at hq
    cases hq

/-- The answer of the hub arrives at the node, or does not. -/
theorem DeliveryInv.response {g : ι → Option (Option Uuid ⊕ Poll)} {w : World} {x x' : η}
    {tr : List (Event pollSig ι)} {i : ι} {poll : Poll} (h : DeliveryInv g (w, x) tr) (hi : g i = some (.inr poll))
    {package : Option Uuid} (hfound : ∀ id ∈ package, ∃ version, poll.found = some (version, id))
    (failure : Option String) :
    DeliveryInv (Function.update g i (some (.inr (poll.receive package failure)))) (w, x')
      (tr ++ [⟨i, .response poll.nodeId package, failure⟩]) := by
  refine h.unsaved (.refl w) rfl (fun _ _ _ e => by cases e) (fun _ e => by cases e) ?_ ?_ (fun _ _ _ e => by cases e)
  · rintro _ ⟨⟩
    refine (h.polls i poll hi).receive (Unsaved.refl w).later hfound ?_
    rintro id rfl rfl
    rfl
  · intro poll' latest hpoll' hasked
    rw [hi] at hpoll'
    cases hpoll'
    exact ⟨_, rfl, by unfold Poll.receive; split <;> rfl, by unfold Poll.receive; split <;> exact hasked⟩

theorem call_keeps_delivery :
    Pool.CallKeeps (pollHandler p around) pollSpec (DeliveryInv (ι := ι) (η := η)) Ends DeliveryMove := by
  intro P g i c k gi hadm hthread hi hok hF
  obtain ⟨threads, ⟨w, x⟩, tr⟩ := P
  have h : DeliveryInv g (w, x) tr := hF.inv
  cases c with
  | hub c =>
    cases gi with
    | inr poll => exact hok.elim
    | inl d =>
      by_cases hsave : ∃ r, c = .saveRelease r
      · obtain ⟨r, rfl⟩ := hsave
        obtain ⟨rfl, hpath⟩ := hok r rfl
        have hturn := hadm.2 _ (Pool.next_eq hthread) r rfl
        refine ⟨.inl none, rfl, h.saveRelease hi hpath rfl rfl rfl ?_ ?_⟩
        · exact fun n hn id hserved => (hturn n hn).1 _ hserved rfl rfl
        · exact fun n hn id r₀ hid hr₀ => (hturn n hn).2 id hid r₀ hr₀
      · exact h.hub_call hi (not_exists.1 hsave)
  | serving nodeId c =>
    cases gi with
    | inl d => exact hok.elim
    | inr poll =>
      obtain ⟨rfl, hok⟩ := hok
      exact ⟨.inr _, ⟨trusts_answer h.store (h.polls i poll hi) c, rfl⟩, h.serving_call hi hok⟩
  | onNode nodeId c =>
    cases gi with
    | inl d => exact hok.elim
    | inr poll => exact ⟨.inr poll, rfl, h.elsewhere hi rfl rfl rfl⟩
  | request nodeId =>
    cases gi with
    | inl d => exact hok.elim
    | inr poll => exact ⟨.inr poll, rfl, h.elsewhere hi rfl rfl rfl⟩
  | response nodeId package =>
    cases gi with
    | inl d => exact hok.elim
    | inr poll =>
      obtain ⟨rfl, hfound⟩ := hok
      exact ⟨.inr _, rfl, h.response hi hfound _⟩

theorem spawn_keeps_delivery :
    Pool.SpawnKeeps (pollProgram p encoding) pollSpec (DeliveryInv (ι := ι) (η := η)) Ends DeliveryMove := by
  intro P g i q hadm hfree hF
  have h : DeliveryInv g P.state P.trace := hF.inv
  have hi : g i = none := hF.fresh i hfree
  -- what is known of the others is known still
  have hkeep : ∀ gi : Option Uuid ⊕ Poll, gi = .inl none ∨
      (∃ poll, gi = .inr poll ∧ PollInv P.trace P.state.1.store poll) →
      DeliveryInv (Function.update g i (some gi)) P.state P.trace := by
    intro gi hgi
    constructor
    · exact h.store
    · refine fun j id hj => ?_
      have hold : ∀ k id, Function.update g i (some gi) k = some (.inl (some id)) → g k = some (.inl (some id)) := by
        intro k id hk
        by_cases hki : k = i
        · subst hki
          rw [Function.update_self] at hk
          rcases hgi with rfl | ⟨poll, rfl, -⟩
          · cases hk
          · cases hk
        · rwa [Function.update_of_ne hki] at hk
      obtain ⟨hlt, hfree, hunique⟩ := h.drawn j id (hold j id hj)
      exact ⟨hlt, hfree, fun k hk => hunique k (hold k id hk)⟩
    · intro j poll hj
      by_cases hji : j = i
      · subst hji
        rw [Function.update_self] at hj
        rcases hgi with rfl | ⟨poll', rfl, hpoll⟩
        · cases hj
        · cases hj
          exact hpoll
      · rw [Function.update_of_ne hji] at hj
        exact h.polls j poll hj
    · intro pre e post hsplit j n latest hq
      obtain ⟨poll, hj, hall⟩ := h.queries pre e post hsplit j n latest hq
      refine ⟨poll, ?_, hall⟩
      rw [Function.update_of_ne, hj]
      rintro rfl
      rw [hi] at hj
      cases hj
  cases q with
  | hub hub request => exact ⟨.inl none, pollProgram_hub hub request, hkeep _ (.inl rfl)⟩
  | poll config registration state session =>
    refine ⟨_, pollProgram_poll config registration state session, hkeep _ (.inr ⟨_, rfl, .start ?_⟩)⟩
    intro version hversion
    obtain ⟨j, polled, hj, hnode, hleft⟩ := hadm.1 version hversion
    obtain ⟨gj, hgj, hends⟩ := hF.follows j _ (Pool.threads_of_result hj)
    rw [Prog.wp_ret] at hends
    cases gj with
    | inl d => exact hends.elim
    | inr poll =>
      obtain ⟨hsame, hleaves, -⟩ := hends
      have hpoll := h.polls j poll hgj
      rw [← hnode, hsame]
      rcases hleaves with hheld | ⟨v, package, hgot, hv⟩
      · exact hpoll.held version (hheld.symm.trans hleft)
      · rw [hv] at hleft
        cases hleft
        obtain ⟨hfetched, hfound⟩ := hpoll.got _ package hgot
        exact ⟨package, hfetched, hfound.served⟩

/-- **No release is lost**: as long as releases are saved in turn, a poll that ends well has fetched every release for
its node that was there when it asked, unless there is a newer one for the same site. -/
theorem no_release_lost (p : Platform) (around : Surroundings η) (encoding : Encoding) (x : η)
    (ms : List (Move ι PollRequest))
    (hcarried : Pool.Admits (pollHandler p around) (pollProgram p encoding) Carried (.init (World.init, x)) ms)
    (hturn : Pool.Admits (pollHandler p around) (pollProgram p encoding) SavedInTurn (.init (World.init, x)) ms) :
    NoReleaseLost (Pool.exec (pollHandler p around) (pollProgram p encoding) (.init (World.init, x)) ms) := by
  obtain ⟨g, hF⟩ := Pool.invariant spawn_keeps_delivery call_keeps_delivery (Pool.fits_init (DeliveryInv.init x)) ms
    (Pool.admits_and _ _ hcarried hturn)
  have h := hF.inv
  rintro i nodeId ended hresult pre query post hsplit ⟨latest, hq⟩ id hid r hr hn
  obtain ⟨poll, hi, rfl, hasked, hall⟩ := h.queries pre query post hsplit i nodeId latest hq
  obtain ⟨gi, hgi, hends⟩ := hF.follows i _ (Pool.threads_of_result hresult)
  rw [Prog.wp_ret] at hends
  rw [hi] at hgi
  cases hgi
  rcases hall id hid r hr hn with hreached | rfl
  · exact hreached
  · have hpoll := h.polls i poll hi
    obtain ⟨version, hoffered, hheld | ⟨package, hgot⟩⟩ := hends.2.2 rfl id hasked
    · rw [← hpoll.offered version hoffered id hasked r hr] at hheld
      exact hpoll.asked id hasked r hr hn hheld
    · obtain ⟨hfetched, hfound⟩ := hpoll.got version package hgot
      rcases hfound.asked id hasked r hr (hpoll.offered version hoffered id hasked r hr) hn with hreached | rfl
      · exact hreached
      · exact .inl hfetched

end Runs

/-! ## Two sites on one node -/

/-- Surroundings in which everything goes well. -/
def calmly : Surroundings (Node Unit) where
  onNode _ := agentHandler calm (.fromEnv applyVars)
  request _ s := (none, s)
  response _ _ s := (none, s)

/-- Errors are sent as their messages. -/
def plainly : Encoding where
  errorBody e := e.message
  manifest _ := .null
  certificates _ := .null

/-- A program that nothing interrupts. -/
def alone (i calls : Nat) (q : PollRequest) : List (Move Nat PollRequest) := .spawn i q :: List.replicate calls (.go i)

/-- Requests to the hub one after another. -/
def inOrder (i : Nat) (rs : List Request) : List (Move Nat PollRequest) :=
  (rs.zipIdx i).flatMap fun r => alone r.2 10 (.hub ⟨0, 30⟩ r.1)

/-- A node registers, and two sites are bound to it. -/
def twoSites : List Request :=
  [.node "edge-1",
    .registerNode {
      nodeCode := "edge-1", bootstrapToken := "boot-" ++ Uuid.hyphenated 1, hostname := "h", publicIp := none
      privateIp := none, agentVersion := "1" },
    .site "example.org", .site "example.net", .bind 4 0 [], .bind 5 0 []]

/-- The first poll of the node. -/
def firstPoll : PollRequest :=
  .poll (.fromEnv applyVars)
    { nodeId := 0, nodeCode := "edge-1", hostname := "h", privateIp := "10.0.0.1", refreshToken := "r", expiresAt := ""
      registrationMode := "manual" }
    {} ⟨"node-at-" ++ Uuid.hyphenated 2, 0⟩

/-- The second site is published after the node has asked. -/
def inTurn : List (Move Nat PollRequest) :=
  inOrder 0 (twoSites ++ [Request.publish 4]) ++ alone 7 60 firstPoll ++ inOrder 8 [Request.publish 5]

/-- Both sites are published before the node asks. -/
def atOnce : List (Move Nat PollRequest) := inOrder 0 (twoSites ++ [Request.publish 4, .publish 5]) ++
    alone 8 60 firstPoll

/-- What a schedule leads to. -/
abbrev calmRun (ms : List (Move Nat PollRequest)) : Pool pollSig (Option Polled) Nat (World × Node Unit) :=
  Pool.exec (pollHandler .plain calmly) (pollProgram .plain plainly) (.init (World.init, freshNode)) ms

/-- A poll that starts without a version. -/
def startsFresh : Move Nat PollRequest → Bool
  | .spawn _ (.poll _ _ state _) => state.currentReleaseVersion.isNone
  | _ => true

theorem carried_of_fresh {P : Pool pollSig (Option Polled) Nat (World × Node Unit)} {ms : List (Move Nat PollRequest)}
    (h : ms.all startsFresh = true) : Pool.Admits (pollHandler .plain calmly)
      (pollProgram .plain plainly) Carried P ms := by
  rw [Pool.admits_iff]
  intro pre m hpre
  have hm : startsFresh m = true := List.all_eq_true.1 h m (hpre.subset (by simp))
  cases m with
  | go i => trivial
  | spawn i q =>
    cases q with
    | hub hub request => trivial
    | poll config registration state session =>
      intro version hversion
      rw [startsFresh, Option.isNone_iff_eq_none] at hm
      rw [hm] at hversion
      cases hversion

/-- If the node asks between the two, it has fetched the first release, and the second waits. -/
theorem no_release_lost_in_turn : fetched (calmRun inTurn).trace = [(0, 6)] ∧ NoReleaseLost (calmRun inTurn) := by
  obtain ⟨hfetched, hturn⟩ : fetched (calmRun inTurn).trace = [(0, 6)] ∧ Pool.Admits (pollHandler .plain calmly)
      (pollProgram .plain plainly) SavedInTurn (.init (World.init, freshNode)) inTurn := by
    decide +kernel
  exact ⟨hfetched, no_release_lost .plain calmly plainly freshNode inTurn (carried_of_fresh rfl) hturn⟩

/-- If the node asks after both, it never fetches the first release. -/
theorem release_lost :
    Pool.Admits (pollHandler .plain calmly) (pollProgram .plain plainly) Carried
      (.init (World.init, freshNode)) atOnce ∧ ¬ NoReleaseLost (calmRun atOnce) := by
  refine ⟨carried_of_fresh rfl, fun h => ?_⟩
  have hfacts : (((calmRun atOnce).result 8).join.map fun polled => (polled.nodeId, polled.outcome.isOk)) =
        some (0, true) ∧
      created (calmRun atOnce).trace = [6, 7] ∧ fetched (calmRun atOnce).trace = [(0, 7)] ∧
      (calmRun atOnce).trace[46]?.bind queriedBy = some (8, 0, some 7) ∧
      6 ∈ created ((calmRun atOnce).trace.take 46) ∧
      ((calmRun atOnce).state.1.store.releases[6]?.map fun r : ReleaseRecord => (r.scopeId, r.targetNodeIds)) =
        some (some 4, [0]) ∧
      ((calmRun atOnce).state.1.store.releases[7]?.map ReleaseRecord.scopeId) = some (some 5) := by
    decide +kernel
  generalize calmRun atOnce = P at h hfacts
  obtain ⟨hended, hcreated, hfetched, hquery, hbefore, hfirst, hsecond⟩ := hfacts
  obtain ⟨⟨_, outcome⟩, hresult, hended⟩ := Option.map_eq_some_iff.1 hended
  obtain ⟨rfl, hok⟩ := Prod.mk.inj hended
  cases outcome with
  | error e => cases hok
  | ok ended =>
    obtain ⟨query, hat, hquery⟩ := Option.bind_eq_some_iff.1 hquery
    obtain ⟨hlt, hat⟩ := List.getElem?_eq_some_iff.1 hat
    have htr : P.trace = P.trace.take 46 ++ query :: P.trace.drop 47 := by
      rw [← hat, ← List.drop_eq_getElem_cons hlt, List.take_append_drop]
    obtain ⟨r, hr, htargets⟩ := Option.map_eq_some_iff.1 hfirst
    obtain ⟨hscope, htargets⟩ := Prod.mk.inj htargets
    have hn : (0 : Uuid) ∈ r.targetNodeIds := by simp [htargets]
    have hjoin := Option.join_eq_some_iff.1 hresult
    rcases h 8 0 ended hjoin _ query _ htr ⟨_, hquery⟩ 6 hbefore r hr hn with hgot | ⟨id', r', hsub, hr', hsame, -⟩
    · rw [hfetched] at hgot
      exact absurd hgot (by decide)
    · -- the only release that was saved later is for the other site
      rw [hcreated] at hsub
      have hpair : [6, id'] = [6, 7] := hsub.eq_of_length rfl
      obtain rfl : id' = 7 := by simpa using hpair
      rw [hr', Option.map_some, hsame, hscope] at hsecond
      exact absurd hsecond (by decide)

end PingoraMesh.NodeAgent
