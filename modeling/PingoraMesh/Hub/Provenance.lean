import PingoraMesh.Hub.Sound

/-!
# Where releases come from

A node fetches a release by its version, with the certificates that were put in when it was created. `HubStep` adds the
store's own way to put certificates in to the requests of the hub, and `World.history` keeps the calls that the requests
have made.

* `Provenance` says that each stored release was created by one of these calls (`ReleaseRecord.CreatedIn`): for a site
  with the bindings and the certificates it had then, and that no target of it has been deleted since;
* `history_provenance`: so it is after every sequence of steps;
* `package_of_history`: what that says of the package that a node gets.
-/

namespace PingoraMesh

open Calls Fallible HubService

/-! ## Histories -/

/-- `set_site_certificates`. -/
def MemoryState.setSiteCertificates (siteId : Uuid) (certificates : List CertificateRef) (s : MemoryState) :
    MemoryState :=
  { s with siteCertificates := s.siteCertificates.insert siteId certificates }

/-- A request, before which `uuids` identifiers have been drawn and the clock has been read `ticks` times by others, or
certificates for a site. -/
inductive HubStep where
  | request (r : Request) (uuids ticks : Nat)
  | setSiteCertificates (siteId : Uuid) (certificates : List CertificateRef)

/-- A world, and the calls that have led to it, each with the world it was made in. -/
abbrev History := World × List (HubCall × World)

/-- Identifiers are drawn and the clock is read by others. -/
def World.later (w : World) (uuids ticks : Nat) : World :=
  { w with nextUuid := w.nextUuid + uuids, tick := w.tick + ticks }

variable (p : Platform) (hub : Hub)

/-- One more step. -/
def History.step (g : History) : HubStep → History
  | .request r uuids ticks =>
    let w := g.1.later uuids ticks
    (w.serve p hub r, g.2 ++ Prog.log (hubHandler p) (ExceptT.run (HubService.program p hub r)) w)
  | .setSiteCertificates siteId certificates =>
    ({ g.1 with store := g.1.store.setSiteCertificates siteId certificates }, g.2)

/-- The steps from an empty store. -/
def World.history (steps : List HubStep) : History := steps.foldl (History.step p hub) (World.init, [])

/-- The answer of `config_package_for_node`. -/
def World.package (w : World) (nodeId : Uuid) (version : String) : Except AppError ConfigPackageResponse :=
  (Fallible.run (hubHandler p) (configPackageForNode nodeId version) w).1

variable {p hub}

/-! ## The invariant -/

/-- The release was created by a call of the log and has only lost targets since, by no deletion of one it still has. -/
def ReleaseRecord.CreatedIn (r : ReleaseRecord) (log : List (HubCall × World)) : Prop :=
  ∃ pre r₀ w₀ post, log = pre ++ (HubCall.saveRelease r₀, w₀) :: post ∧ r₀.Issued w₀.store ∧ r₀.Becomes r ∧
    ∀ n ∈ r.targetNodeIds, ∀ e ∈ post, e.1 ≠ .deleteNode n

/-- Every stored release was created by a call, and its version finds it. -/
structure Provenance (g : History) : Prop where
  sound : Sound g.1.store
  fresh : ∀ (k : Uuid) (r : ReleaseRecord), g.1.store.releases[k]? = some r → k < g.1.nextUuid
  version : ∀ (v : String) (k : Uuid), g.1.store.releaseIdsByVersion[v]? = some k →
    ∃ r : ReleaseRecord, g.1.store.releases[k]? = some r ∧ r.releaseVersion = v
  created : ∀ (k : Uuid) (r : ReleaseRecord), g.1.store.releases[k]? = some r → r.CreatedIn g.2

theorem Provenance.init : Provenance (World.init, []) := by
  refine ⟨.empty, fun k r h => ?_, fun v k h => ?_, fun k r h => ?_⟩
  all_goals simp [World.init, MemoryState.empty] at h

theorem ReleaseRecord.Becomes.trans {r r' r'' : ReleaseRecord} (h : r.Becomes r') (h' : r'.Becomes r'') :
    r.Becomes r'' where
  releaseId := h'.releaseId.trans h.releaseId
  version := h'.version.trans h.version
  scopeType := h'.scopeType.trans h.scopeType
  scopeId := h'.scopeId.trans h.scopeId
  createdAt := h'.createdAt.trans h.createdAt
  bundle := h'.bundle.trans h.bundle
  targets n hn := h.targets n (h'.targets n hn)

/-- One more call. -/
theorem ReleaseRecord.CreatedIn.snoc {r r' : ReleaseRecord} {log : List (HubCall × World)} (h : r.CreatedIn log)
    (hb : r.Becomes r') {e : HubCall × World} (he : ∀ n ∈ r'.targetNodeIds, e.1 ≠ .deleteNode n) :
    r'.CreatedIn (log ++ [e]) := by
  obtain ⟨pre, r₀, w₀, post, rfl, hi, hb₀, hpost⟩ := h
  refine ⟨pre, r₀, w₀, post ++ [e], by simp, hi, hb₀.trans hb, fun n hn x hx => ?_⟩
  rcases List.mem_append.1 hx with hx | hx
  · exact hpost n (hb.targets n hn) x hx
  · rw [List.mem_singleton.1 hx]
    exact he n hn

theorem releaseIdsByVersion_of_effect {c : HubCall} {w : World} (h : c.effect ≠ some .saveRelease) :
    (hubHandler p c w).2.store.releaseIdsByVersion = w.store.releaseIdsByVersion := by
  cases c with
  | saveRelease r => exact absurd rfl h
  | deleteNode nodeId =>
    simp only [hubHandler, World.write, MemoryState.deleteNode]
    split <;> rfl
  | deleteSite siteId =>
    simp only [hubHandler, World.write, MemoryState.deleteSite]
    split <;> rfl
  | deleteDnsProvider providerId =>
    simp only [hubHandler, World.write, MemoryState.deleteDnsProvider]
    split <;> rfl
  | deleteOperationTemplate templateId =>
    simp only [hubHandler, World.write, MemoryState.deleteOperationTemplate]
    split <;> rfl
  | claimNextNodeOperation nodeId =>
    simp only [hubHandler, MemoryState.claimNextNodeOperation]
    split <;> rfl
  | _ => rfl

theorem not_mem_nodes_deleteNode (s : MemoryState) (nodeId : Uuid) : nodeId ∉ (s.deleteNode nodeId).nodes := by
  unfold MemoryState.deleteNode
  split
  · rename_i hn
    rw [Std.ExtTreeMap.mem_iff_isSome_getElem?, hn]
    exact nofun
  · exact fun h => (mem_erase_node.1 h).1 rfl

/-- A call that saves no release. -/
theorem Provenance.call {g : History} (h : Provenance g) {c : HubCall} (hc : c.Fits g.1.store)
    (hne : c.effect ≠ some .saveRelease) : Provenance ((hubHandler p c g.1).2, g.2 ++ [(c, g.1)]) := by
  have hsound := h.sound.call p hc
  obtain ⟨f, gone, hf, hmap⟩ := releases_map_of_effect (p := p) (w := g.1) hne
  refine ⟨hsound, fun k r hk => ?_, fun v k hk => ?_, fun k r hk => ?_⟩
  · obtain ⟨r₀, hr₀, -⟩ := releases_of_effect hne hk
    exact (h.fresh k r₀ hr₀).trans_le nextUuid_le
  · dsimp only at hk
    rw [releaseIdsByVersion_of_effect hne] at hk
    obtain ⟨r, hr, hv⟩ := h.version v k hk
    exact ⟨f k r, by dsimp only; rw [hmap, hr]; rfl, (hf k r).1.version.trans hv⟩
  · obtain ⟨r₀, hr₀, hb⟩ := releases_of_effect hne hk
    refine (h.created k r₀ hr₀).snoc hb fun n hn e => ?_
    -- a node that has just been deleted is not the target of any release
    dsimp only at e
    subst e
    exact not_mem_nodes_deleteNode g.1.store n (hsound.targets k r hk n hn)

theorem Provenance.saveRelease {g : History} (h : Provenance g) {new : ReleaseRecord} (hi : new.Issued g.1.store)
    (hfree : g.1.store.releases[new.releaseId]? = none) (hlt : new.releaseId < g.1.nextUuid) :
    Provenance ((hubHandler p (.saveRelease new) g.1).2, g.2 ++ [(.saveRelease new, g.1)]) := by
  refine ⟨h.sound.call p (c := .saveRelease new) hi, fun k r hk => ?_, fun v k hk => ?_, fun k r hk => ?_⟩
  · rcases Maps.getElem?_insert_eq_some hk with ⟨rfl, -⟩ | ⟨-, hk⟩
    · exact hlt
    · exact h.fresh k r hk
  · rcases Maps.getElem?_insert_eq_some hk with ⟨rfl, rfl⟩ | ⟨-, hk⟩
    · exact ⟨new, Std.ExtTreeMap.getElem?_insert_self, rfl⟩
    · obtain ⟨r, hr, hv⟩ := h.version v k hk
      refine ⟨r, ?_, hv⟩
      simp only [hubHandler, World.write, MemoryState.saveRelease]
      rw [Std.ExtTreeMap.getElem?_insert, if_neg]
      · exact hr
      · rw [Std.compare_eq_iff_eq]
        rintro rfl
        rw [hfree] at hr
        cases hr
  · rcases Maps.getElem?_insert_eq_some hk with ⟨-, rfl⟩ | ⟨-, hk⟩
    · exact ⟨g.2, r, g.1, [], rfl, hi, .refl r, fun n _ e he => by cases he⟩
    · exact (h.created k r hk).snoc (.refl r) fun n _ e => by cases e

/-! ## The steps -/

/-- What is asked of a call: it fits, and a release has an identifier of its own. -/
def CreatesAnew (c : HubCall) (w : World) : Prop :=
  c.Fits w.store ∧ ∀ r, c = .saveRelease r → w.store.releases[r.releaseId]? = none ∧ r.releaseId < w.nextUuid

/-- The part of the invariant that does not look at the log. -/
def Numbered (w : World) : Prop :=
  Sound w.store ∧ ∀ (k : Uuid) (r : ReleaseRecord), w.store.releases[k]? = some r → k < w.nextUuid

theorem program_createsAnew {w : World} (h : Numbered w) (r : Request) :
    wp (.alone (hubHandler p) CreatesAnew Numbered) (HubService.program p hub r) (fun _ _ => True)
      (fun _ _ => True) w := by
  refine program_rule (fun _ h => h.1) (fun c w hne hc => ⟨hc, ?_⟩) (fun w r h hid hr => ⟨hr, ?_⟩) h r
  · rintro r rfl
    exact absurd rfl hne
  · rintro r' ⟨⟩
    rw [hid]
    refine ⟨?_, Nat.lt_succ_self _⟩
    cases hk : w.store.releases[w.nextUuid]? with
    | none => exact hk
    | some x => exact absurd (h.2 _ x hk) (Nat.lt_irrefl _)

theorem Provenance.recorded (c : HubCall) (g : History) (hc : CreatesAnew c g.1) (h : Provenance g) :
    Provenance (Prog.recording (hubHandler p) c g).2 := by
  cases c with
  | saveRelease r => exact h.saveRelease hc.1 (hc.2 r rfl).1 (hc.2 r rfl).2
  | _ => exact h.call hc.1 (by simp [HubCall.effect])

/-- A step keeps the invariant. -/
theorem Provenance.step {g : History} (h : Provenance g) (x : HubStep) : Provenance (g.step p hub x) := by
  cases x with
  | setSiteCertificates siteId certificates => exact ⟨{ h.sound with }, h.fresh, h.version, h.created⟩
  | request r uuids ticks =>
    have hl : Provenance (g.1.later uuids ticks, g.2) :=
      ⟨h.sound, fun k r hk => (h.fresh k r hk).trans_le (Nat.le_add_right _ _), h.version, h.created⟩
    have hw : wp (.alone (hubHandler p) CreatesAnew Numbered) (HubService.program p hub r) (fun _ _ => True)
        (fun _ _ => True) (g.1.later uuids ticks) := program_createsAnew ⟨hl.sound, hl.fresh⟩ r
    have hrun := (Prog.wp_run Provenance.recorded hl
      (Prog.wp_recording (J := Provenance) (g := (g.1.later uuids ticks, g.2)) (fun g h => ⟨h.sound, h.fresh⟩)
        (wp.either hw))).2
    rw [Prog.run_recording] at hrun
    exact hrun

/-- After every sequence of steps, each release was created by one of the calls. -/
theorem history_provenance (steps : List HubStep) : Provenance (World.history p hub steps) := by
  have hall : ∀ (xs : List HubStep) (g : History), Provenance g → Provenance (xs.foldl (History.step p hub) g) := by
    intro xs
    induction xs with
    | nil => exact fun g h => h
    | cons x xs ih => exact fun g h => ih _ (h.step x)
  exact hall steps _ .init

/-! ## Packages -/

/-- The package of a release. -/
def ReleaseRecord.package (r : ReleaseRecord) : ConfigPackageResponse :=
  { releaseId := r.releaseId
    releaseVersion := r.releaseVersion
    manifest := r.bundle.manifest
    renderedConfig := r.bundle.renderedConfig
    certificates := r.bundle.certificates
    signature := r.bundle.signature }

theorem World.package_eq (w : World) (nodeId : Uuid) (version : String) :
    w.package p nodeId version = match w.store.releaseByVersion version with
      | none => .error (.notFound "release version not found")
      | some r =>
        if r.targetNodeIds.contains nodeId then .ok r.package
        else .error (.unauthorized "node is not a target of this release") := by
  have hrun : w.package p nodeId version = (Fallible.run (hubHandler p) (okOr (w.store.releaseByVersion version)
      (.notFound "release version not found") >>= fun release =>
        ensure (release.targetNodeIds.contains nodeId) (.unauthorized "node is not a target of this release") >>=
          fun _ =>
          (pure release.package : HubM ConfigPackageResponse)) w).1 := rfl
  rw [hrun]
  cases w.store.releaseByVersion version with
  | none => rfl
  | some r =>
    change (Fallible.run (hubHandler p) (ensure (r.targetNodeIds.contains nodeId) _ >>= fun _ => _) w).1 = _
    dsimp only
    generalize r.targetNodeIds.contains nodeId = b
    cases b <;> rfl

/-- A package belongs to the release of its version, which was created for the node by a call; the node has not been
deleted since. -/
theorem package_of_history {steps : List HubStep} {nodeId : Uuid} {version : String} {package : ConfigPackageResponse}
    (h : (World.history p hub steps).1.package p nodeId version = .ok package) :
    ∃ pre r₀ w₀ post, (World.history p hub steps).2 = pre ++ (HubCall.saveRelease r₀, w₀) :: post ∧
      r₀.releaseVersion = version ∧ r₀.Issued w₀.store ∧ nodeId ∈ r₀.targetNodeIds ∧
      (∀ e ∈ post, e.1 ≠ .deleteNode nodeId) ∧ package.manifest = r₀.bundle.manifest ∧
      package.certificates = r₀.bundle.certificates := by
  have hp : Provenance (World.history p hub steps) := history_provenance steps
  rw [World.package_eq] at h
  split at h
  · cases h
  · rename_i r hr
    split at h
    · rename_i hn
      cases h
      obtain ⟨k, hk, hr⟩ := Option.bind_eq_some_iff.1 hr
      obtain ⟨r', hr', hv⟩ := hp.version version k hk
      obtain rfl : r' = r := Option.some.inj (hr'.symm.trans hr)
      obtain ⟨pre, r₀, w₀, post, hlog, hi, hb, hpost⟩ := hp.created k r' hr'
      have hn := List.contains_iff_mem.1 hn
      exact ⟨pre, r₀, w₀, post, hlog, hb.version.symm.trans hv, hi, hb.targets nodeId hn, hpost nodeId hn,
        congrArg CompiledConfigBundle.manifest hb.bundle, congrArg CompiledConfigBundle.certificates hb.bundle⟩
    · cases h

end PingoraMesh
