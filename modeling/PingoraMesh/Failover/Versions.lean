import PingoraMesh.Failover.Switch
import PingoraMesh.Hub.Alone
import PingoraMesh.Hub.Effects
import PingoraMesh.Lib.Pool

/-!
# Release versions across a mesh

Any number of hub instances and failover cycles run at once over one store. A hub release takes a serial from the
counter of its instance and then reads the clock; a failover release takes both from the clock reading of its cycle.

* `follows_draws`: every program stores a release only under the version of what it has drawn (`drawSpec`);
* `versions_distinct`: in every run in which no two instances store the same serial within a second, and no two failover
  releases are stored under one millisecond, the stored releases have different versions;
* `two_hubs_one_version`: two instances that start together store their first releases under one version.
-/

namespace PingoraMesh

open Calls Fallible HubService

/-! ## What a program has drawn -/

/-- What a program has drawn for the release it stores next: nothing, a serial of an instance, or also a time. -/
inductive Draw where
  | none
  | serial (hub n : Nat)
  | issued (hub n : Nat) (issuedAt : DateTime)
  deriving DecidableEq

/-- The serial of a draw. -/
def Draw.Holds (hub n : Nat) : Draw → Prop
  | .none => False
  | .serial h m | .issued h m _ => h = hub ∧ m = n

/-- The first reading of the clock after a serial is the time of the release. -/
def Draw.read (t : DateTime) : Draw → Draw
  | .serial hub n => .issued hub n t
  | d => d

/-- What a call adds to the draw. -/
def Draw.next (c : HubCall) (r : c.Ans) (d : Draw) : Draw :=
  match c, r with
  | .fetchAddReleaseCounter hub, n => .serial hub n
  | .utcNow, t => d.read t
  | .saveRelease _, _ => .none
  | _, _ => d

/-- The scope in the version of a hub release, by the type of its scope. -/
def hubScope (scopeType : String) : String := if scopeType = "site" then "site" else "cleanup"

/-- A release that carries the version of a draw. -/
def Draw.Signs (r : ReleaseRecord) (d : Draw) : Prop :=
  ∃ hub n t, d = .issued hub n t ∧ r.scopeType ∈ ["site", "site_cleanup"] ∧
    r.releaseVersion = buildReleaseVersion (hubScope r.scopeType) t n

/-- A release is stored only under the version of the draw. -/
def hubDrawSpec : Spec hubSig Draw := .protocol
  (fun c d => ∀ r, c = .saveRelease r → d.Signs r) Draw.next

/-- The same on a mesh; the calls of the worker draw nothing. -/
def drawSpec : Spec meshSig Draw := .protocol
  (fun c d => ∀ r, c = .hub (.saveRelease r) → d.Signs r)
  (fun c r d => match c, r with
    | .hub c, r => Draw.next c r d
    | _, _ => d)

section Follows

variable (p : Platform) (hub : Nat) {d : Draw}

theorem saveSiteRelease_draws (site : SiteRecord) (releaseType reason : String) :
    wp hubDrawSpec (saveSiteRelease p hub site releaseType reason) (fun _ _ => True) (fun _ _ => True) d := by
  simp only [hubDrawSpec, saveSiteRelease, saveCompiledRelease, repo, wp_bind, wp_attempt, wp_call_protocol, wp_pure,
    Draw.next, Draw.read, reduceCtorEq, false_implies, implies_true, and_true, true_and]
  intro _ _ n t certificates releaseId createdAt bundle hb now r hr
  obtain ⟨-, hversion, -⟩ := compileSiteBundle_manifest hb
  cases hr
  exact ⟨hub, n, t, rfl, by simp [compiledRelease], hversion⟩

theorem saveSiteCleanupRelease_draws (site : SiteRecord) (detached : List Uuid) (reason : String) :
    wp hubDrawSpec (saveSiteCleanupRelease p hub site detached reason) (fun _ _ => True) (fun _ _ => True) d := by
  simp only [hubDrawSpec, saveSiteCleanupRelease, saveCompiledRelease, repo, wp_bind, wp_attempt, wp_call_protocol,
    wp_pure, Draw.next, Draw.read, reduceCtorEq, false_implies, implies_true, and_true, true_and]
  intro n t releaseId createdAt bundle hb now r hr
  obtain ⟨-, hversion, -⟩ := compileSiteCleanupBundle_manifest hb
  cases hr
  exact ⟨hub, n, t, rfl, by simp [compiledRelease], hversion⟩

theorem hubDrawSpec_ok {es : List Effect} (hes : .saveRelease ∉ es) (c : HubCall) (d : Draw) (hc : c.Within es) :
    hubDrawSpec.ok c d := by
  rintro r rfl
  exact absurd hc hes

/-- Every request of a hub stores releases only under the versions of its draws. -/
theorem program_draws (hub : Hub) (r : Request) : (HubService.program p hub r).Safe hubDrawSpec := by
  have h1 : ∀ site t r, (saveSiteRelease p hub.id site t r).Safe hubDrawSpec := fun site t r d =>
    saveSiteRelease_draws p hub.id site t r
  have h2 : ∀ site ds r, (saveSiteCleanupRelease p hub.id site ds r).Safe hubDrawSpec := fun site ds r d =>
    saveSiteCleanupRelease_draws p hub.id site ds r
  by_cases he : .saveRelease ∈ r.effects
  · cases r with
    | createRelease r => exact safe_discard (createRelease_safe p hub.id h1 h2 (hubDrawSpec_ok (by simp)) r)
    | updateSiteStatus s e => exact safe_discard (updateSiteStatus_safe p hub.id h1 (hubDrawSpec_ok (by simp)) s e)
    | deleteSite s => exact safe_discard (deleteSite_safe p hub.id h2 (hubDrawSpec_ok (by simp)) s)
    | switchSitePrimary s r => exact safe_discard (switchSitePrimary_safe p hub.id h1 h2 (hubDrawSpec_ok (by simp)) s r)
    | _ => simp [Request.effects] at he
  · exact (program_only p hub r).safe (hubDrawSpec_ok he)

/-- Every program on a mesh follows the specification from an empty draw. -/
theorem follows_draws (q : MeshRequest) : Prog.wp drawSpec (meshProgram p q) (fun _ _ => True) .none := by
  cases q with
  | hub hub r =>
    rw [meshProgram, Prog.wp_bind]
    refine Prog.wp_interpret (T := hubDrawSpec) (fun c d R hok hR => ?_)
      (Prog.wp_mono (fun _ _ _ => (Prog.wp_ret _).2 trivial) (program_draws p hub r).run)
    refine Prog.wp_call.2 ⟨fun r hr => hok r (by cases hr; rfl), fun a d' hd => (Prog.wp_ret _).2 (hR a d' hd)⟩
  | savePolicy policy => exact Prog.wp_call.2 ⟨fun _ e => (by cases e), fun _ _ _ => (Prog.wp_ret _).2 trivial⟩
  | failoverCycle n =>
    rw [meshProgram, Prog.wp_bind]
    refine Prog.wp_mono (fun _ _ _ => (Prog.wp_ret _).2 trivial) ((FailoverWorker.cycle_only n).wp (I := fun _ => True)
      (fun c d hc _ r hr => ?_) (fun _ _ _ _ _ _ _ => trivial) trivial)
    subst hr
    exact absurd hc (by simp [MeshCall.OfWorker])

end Follows

/-! ## What a trace tells -/

section Watch

variable {ι : Type} [DecidableEq ι]

/-- A release that a hub instance has stored: the type of its scope, the serial and the time it was issued. -/
structure Issue where
  scopeType : String
  hub : Nat
  serial : Nat
  issuedAt : DateTime
  deriving DecidableEq

/-- What the calls so far have drawn and stored: the draw of each program, the releases of the hub instances, and the
clock readings of the cycles that have stored one. -/
structure Watch (ι : Type) where
  drawn : ι → Draw
  issues : List Issue
  failovers : List DateTime

/-- A release stored under a draw. -/
def Draw.issue (scopeType : String) : Draw → List Issue
  | .issued hub n t => [⟨scopeType, hub, n, t⟩]
  | _ => []

/-- One more call of a hub. -/
def Watch.seeHub (w : Watch ι) (i : ι) (c : HubCall) (r : c.Ans) : Watch ι :=
  { w with
    drawn := Function.update w.drawn i ((w.drawn i).next c r)
    issues := match c with
      | .saveRelease release => (w.drawn i).issue release.scopeType ++ w.issues
      | _ => w.issues }

/-- One more call. -/
def Watch.see (w : Watch ι) : Event meshSig ι → Watch ι
  | ⟨i, .hub c, r⟩ => w.seeHub i c r
  | ⟨_, .executeSiteFailover _ _ _ now, .ok _⟩ => { w with failovers := now :: w.failovers }
  | _ => w

/-- What a trace tells. -/
def watch (tr : List (Event meshSig ι)) : Watch ι := tr.foldl Watch.see ⟨fun _ => .none, [], []⟩

theorem watch_concat (tr : List (Event meshSig ι)) (e : Event meshSig ι) : watch (tr ++ [e]) = (watch tr).see e := by
  simp [watch]

/-- The release that a call of a hub stores. -/
def MeshCall.stored : MeshCall → Option ReleaseRecord
  | .hub (.saveRelease r) => some r
  | _ => none

/-- The clock reading of the cycle under which a call has stored a failover release; a failover that fails stores
none. -/
def MeshCall.failoverAt : (c : MeshCall) → meshSig.Ans c → Option DateTime
  | .executeSiteFailover _ _ _ now, .ok _ => some now
  | _, _ => none

/-- What is asked of a call of the program `i` with its answer: a hub instance stores a release only if no other
instance has stored one of that scope with the same serial in the same second, and a cycle only if none has stored one
in the same millisecond. -/
def Watch.Apart (w : Watch ι) (i : ι) (c : MeshCall) (a : meshSig.Ans c) : Prop :=
  (∀ r ∈ c.stored, ∀ x ∈ (w.drawn i).issue r.scopeType, ∀ d ∈ w.issues,
    d.scopeType = x.scopeType → d.hub ≠ x.hub → d.serial = x.serial →
      DateTime.timestamp d.issuedAt ≠ DateTime.timestamp x.issuedAt) ∧
  ∀ now ∈ c.failoverAt a, ∀ t ∈ w.failovers, DateTime.timestampMillis t ≠ DateTime.timestampMillis now

instance (w : Watch ι) (i : ι) (c : MeshCall) (a : meshSig.Ans c) : Decidable (w.Apart i c a) :=
  inferInstanceAs (Decidable (_ ∧ _))

/-- The condition on a move. -/
def IssuedApart (p : Platform) (net : Nat → Delivery) (P : Pool meshSig Unit ι Mesh) : Move ι MeshRequest → Prop
  | .spawn _ _ => True
  | .go i => ∀ c ∈ P.next i, (watch P.trace).Apart i c (meshHandler p net c P.state).1

instance (p : Platform) (net : Nat → Delivery) (P : Pool meshSig Unit ι Mesh) : DecidablePred (IssuedApart p net P)
  | .spawn _ _ => inferInstanceAs (Decidable True)
  | .go i =>
    inferInstanceAs (Decidable (∀ c ∈ P.next i, (watch P.trace).Apart i c (meshHandler p net c P.state).1))

end Watch

/-! ## The transaction -/

/-- The version of a failover release determines its millisecond. -/
theorem failoverVersion_inj {t t' : DateTime} (h : failoverVersion t = failoverVersion t') :
    DateTime.timestampMillis t = DateTime.timestampMillis t' := by
  obtain ⟨-, hs, hn⟩ := buildReleaseVersion_inj (by decide) (by decide) h
  simp only [failoverSerial, DateTime.timestamp, DateTime.timestampMillis, DateTime.nanosPerSecond] at hs hn ⊢
  rw [Int.fdiv_eq_ediv_of_nonneg _ (by decide), Int.fdiv_eq_ediv_of_nonneg _ (by decide)] at hs
  rw [Int.fdiv_eq_ediv_of_nonneg _ (by decide), Int.fdiv_eq_ediv_of_nonneg _ (by decide)] at hn
  rw [Int.fdiv_eq_ediv_of_nonneg _ (by decide), Int.fdiv_eq_ediv_of_nonneg _ (by decide)]
  omega

/-! ## Serials -/

section Held

variable {ι : Type} [DecidableEq ι]

/-- Every serial that was taken is below the counter of its instance, and is held by one program or one release. -/
structure Held (w : Watch ι) (serial : Nat → Nat) : Prop where
  below : ∀ i hub n, (w.drawn i).Holds hub n → n < serial hub
  issuesBelow : ∀ d ∈ w.issues, d.serial < serial d.hub
  once : ∀ i j hub n, (w.drawn i).Holds hub n → (w.drawn j).Holds hub n → i = j
  fresh : ∀ i, ∀ d ∈ w.issues, ¬(w.drawn i).Holds d.hub d.serial

theorem Draw.holds_read {d : Draw} {t : DateTime} {hub n : Nat} : (d.read t).Holds hub n ↔ d.Holds hub n := by
  cases d <;> rfl

variable {w : Watch ι} {serial : Nat → Nat} {i : ι}

/-- A program that goes on holds what it held, or less. -/
theorem Held.narrow (h : Held w serial) {d : Draw} (hd : ∀ hub n, d.Holds hub n → (w.drawn i).Holds hub n) :
    Held { w with drawn := Function.update w.drawn i d } serial := by
  have hsub : ∀ j hub n, (Function.update w.drawn i d j).Holds hub n → (w.drawn j).Holds hub n := by
    intro j hub n hj
    by_cases e : j = i
    · subst e
      rw [Function.update_self] at hj
      exact hd hub n hj
    · rwa [Function.update_of_ne e] at hj
  exact ⟨fun j hub n hj => h.below j hub n (hsub j hub n hj), h.issuesBelow,
    fun j k hub n hj hk => h.once j k hub n (hsub j hub n hj) (hsub k hub n hk),
    fun j x hx hj => h.fresh j x hx (hsub j _ _ hj)⟩

/-- A new serial is held by nobody else. -/
theorem Held.draw (h : Held w serial) (hub : Nat) :
    Held { w with drawn := Function.update w.drawn i (.serial hub (serial hub)) }
      (Function.update serial hub (serial hub + 1)) := by
  have hle : ∀ k, serial k ≤ Function.update serial hub (serial hub + 1) k := by
    intro k
    by_cases e : k = hub
    · subst e
      rw [Function.update_self]
      omega
    · rw [Function.update_of_ne e]
  have hcase : ∀ j k n, (Function.update w.drawn i (.serial hub (serial hub)) j).Holds k n →
      (j = i ∧ k = hub ∧ n = serial hub) ∨ (j ≠ i ∧ (w.drawn j).Holds k n) := by
    intro j k n hj
    by_cases e : j = i
    · subst e
      rw [Function.update_self] at hj
      exact .inl ⟨rfl, hj.1.symm, hj.2.symm⟩
    · rw [Function.update_of_ne e] at hj
      exact .inr ⟨e, hj⟩
  refine ⟨fun j k n hj => ?_, fun x hx => (h.issuesBelow x hx).trans_le (hle _), fun j j' k n hj hj' => ?_,
    fun j x hx hj => ?_⟩
  · rcases hcase j k n hj with ⟨-, rfl, rfl⟩ | ⟨-, hj⟩
    · rw [Function.update_self]
      omega
    · exact (h.below j k n hj).trans_le (hle k)
  · rcases hcase j k n hj with ⟨ei, ek, en⟩ | ⟨-, hold⟩ <;> rcases hcase j' k n hj' with ⟨ei', ek', en'⟩ | ⟨-, hold'⟩
    · exact ei.trans ei'.symm
    · have := h.below j' k n hold'
      rw [ek, en] at this
      exact absurd this (Nat.lt_irrefl _)
    · have := h.below j k n hold
      rw [ek', en'] at this
      exact absurd this (Nat.lt_irrefl _)
    · exact h.once j j' k n hold hold'
  · rcases hcase j _ _ hj with ⟨-, hk, hn⟩ | ⟨-, hj⟩
    · have := h.issuesBelow x hx
      rw [hk] at this
      omega
    · exact h.fresh j x hx hj

/-- A stored release takes over the serial of its program. -/
theorem Held.issue (h : Held w serial) {hub n : Nat} {t : DateTime} (hi : w.drawn i = .issued hub n t)
    (scopeType : String) :
    Held { w with drawn := Function.update w.drawn i .none, issues := ⟨scopeType, hub, n, t⟩ :: w.issues } serial := by
  have hn := h.narrow (i := i) (d := .none) fun _ _ h => h.elim
  have hold : (w.drawn i).Holds hub n := by rw [hi]; exact ⟨rfl, rfl⟩
  refine ⟨hn.below, fun x hx => ?_, hn.once, fun j x hx hj => ?_⟩
  · rcases List.mem_cons.1 hx with rfl | hx
    · exact h.below i hub n hold
    · exact h.issuesBelow x hx
  · rcases List.mem_cons.1 hx with rfl | hx
    · dsimp only at hj
      by_cases e : j = i
      · subst e
        rw [Function.update_self] at hj
        exact hj
      · rw [Function.update_of_ne e] at hj
        exact e (h.once j i hub n hj hold)
    · exact hn.fresh j x hx hj

end Held

/-! ## The invariant -/

section Invariant

variable {ι : Type} [DecidableEq ι]

/-- The version of a stored release comes from an issue of a hub instance or from a failover. -/
def Watch.Explains (w : Watch ι) (version : String) : Prop :=
  (∃ d ∈ w.issues, d.scopeType ∈ ["site", "site_cleanup"] ∧
    version = buildReleaseVersion (hubScope d.scopeType) d.issuedAt d.serial) ∨
  ∃ t ∈ w.failovers, version = failoverVersion t

/-- Serials are held once, every stored version is explained, and no two are the same. -/
structure VersionInv (g : ι → Option Draw) (m : Mesh) (tr : List (Event meshSig ι)) : Prop where
  drawn : ∀ i, (watch tr).drawn i = (g i).getD .none
  held : Held (watch tr) m.world.serial
  explains : ∀ (k : Uuid) (r : ReleaseRecord), m.world.store.releases[k]? = some r →
    (watch tr).Explains r.releaseVersion
  distinct : ∀ (k k' : Uuid) (r r' : ReleaseRecord), m.world.store.releases[k]? = some r →
    m.world.store.releases[k']? = some r' → r.releaseVersion = r'.releaseVersion → k = k'

theorem VersionInv.init (remote : RemoteDns) : VersionInv (fun _ : ι => none) (Mesh.init remote) [] := by
  refine ⟨fun i => rfl, ⟨fun i hub n h => h.elim, by simp [watch], fun i j hub n h => h.elim, by simp [watch]⟩, ?_, ?_⟩
  · intro k r h
    simp [Mesh.init, World.init, MemoryState.empty] at h
  · intro k k' r r' h
    simp [Mesh.init, World.init, MemoryState.empty] at h

variable {g : ι → Option Draw} {m : Mesh} {tr : List (Event meshSig ι)} {i : ι}

/-- A start draws nothing. -/
theorem VersionInv.spawn (h : VersionInv g m tr) (hi : g i = none) :
    VersionInv (Function.update g i (some .none)) m tr := by
  refine { h with drawn := fun j => ?_ }
  by_cases hj : j = i
  · subst hj
    rw [Function.update_self, h.drawn, hi]
    rfl
  · rw [Function.update_of_ne hj, h.drawn]

/-- Releases that were there keep their versions apart. -/
theorem VersionInv.distinct_of (h : VersionInv g m tr) {releases : HashMap Uuid ReleaseRecord}
    (hr : ∀ (k : Uuid) (r' : ReleaseRecord), releases[k]? = some r' →
      ∃ r : ReleaseRecord, m.world.store.releases[k]? = some r ∧ r.Becomes r') (k k' : Uuid) (r r' : ReleaseRecord)
    (hk : releases[k]? = some r) (hk' : releases[k']? = some r') (e : r.releaseVersion = r'.releaseVersion) :
    k = k' := by
  obtain ⟨s, hs, hb⟩ := hr k r hk
  obtain ⟨s', hs', hb'⟩ := hr k' r' hk'
  exact h.distinct k k' s s' hs hs' (by rw [← hb.version, ← hb'.version, e])

/-- A release with a version that no stored one has may be added. -/
theorem VersionInv.distinct_insert (h : VersionInv g m tr) {new : ReleaseRecord}
    (hn : ∀ (k : Uuid) (r : ReleaseRecord), m.world.store.releases[k]? = some r →
      r.releaseVersion ≠ new.releaseVersion) (k k' : Uuid) (r r' : ReleaseRecord)
    (hk : (m.world.store.releases.insert new.releaseId new)[k]? = some r)
    (hk' : (m.world.store.releases.insert new.releaseId new)[k']? = some r')
    (e : r.releaseVersion = r'.releaseVersion) : k = k' := by
  rw [Std.ExtTreeMap.getElem?_insert] at hk hk'
  split at hk <;> split at hk'
  · rename_i e₁ e₂
    rw [Std.compare_eq_iff_eq] at e₁ e₂
    exact e₁.symm.trans e₂
  · cases hk
    exact absurd e.symm (hn k' r' hk')
  · cases hk'
    exact absurd e (hn k r hk)
  · exact h.distinct k k' r r' hk hk' e

/-- The serials of the world after a call of a hub. -/
theorem serial_hubHandler (p : Platform) (c : HubCall) (w : World) :
    (hubHandler p c w).2.serial = match c with
      | .fetchAddReleaseCounter hub => Function.update w.serial hub (w.serial hub + 1)
      | _ => w.serial := by
  by_cases hc : c.effect = some .serial
  · cases c <;> simp [HubCall.effect] at hc
    rename_i hub
    funext k
    simp only [hubHandler, World.serial, Std.ExtTreeMap.getD_insert, Std.compare_eq_iff_eq, Function.update_apply]
    simp only [eq_comm (a := hub)]
  · have := counters_of_effect (p := p) (w := w) hc
    cases c <;> first | exact absurd rfl hc | (funext k; simp only [World.serial, this])

/-- A call of a hub that stores no release. -/
theorem VersionInv.hub_call (p : Platform) (h : VersionInv g m tr) {c : HubCall} (hc : c.effect ≠ some .saveRelease)
    {d : Draw} (hd : g i = some d) :
    VersionInv (Function.update g i (some (d.next c (hubHandler p c m.world).1)))
      { m with world := (hubHandler p c m.world).2 } (tr ++ [⟨i, .hub c, (hubHandler p c m.world).1⟩]) := by
  have hdrawn : (watch tr).drawn i = d := by rw [h.drawn, hd]; rfl
  have hissues : (watch (tr ++ [⟨i, .hub c, (hubHandler p c m.world).1⟩])) =
      { watch tr with drawn := Function.update (watch tr).drawn i (d.next c (hubHandler p c m.world).1) } := by
    rw [watch_concat]
    simp only [Watch.see, Watch.seeHub, hdrawn]
    cases c <;> first | rfl | exact absurd rfl hc
  refine ⟨fun j => ?_, ?_, fun k r' hr => ?_, h.distinct_of fun k r' hr => releases_of_effect hc hr⟩
  · rw [hissues]
    by_cases hj : j = i
    · subst hj
      simp
    · simp [Function.update_of_ne hj, h.drawn]
  · rw [hissues, serial_hubHandler]
    cases c with
    | fetchAddReleaseCounter hub => exact h.held.draw hub
    | utcNow => exact h.held.narrow fun hub n hold => by rw [hdrawn]; exact Draw.holds_read.1 hold
    | saveRelease r => exact absurd rfl hc
    | _ => exact h.held.narrow fun hub n hold => by rw [hdrawn]; exact hold
  · obtain ⟨r, hr, hb⟩ := releases_of_effect hc hr
    rw [hb.version, hissues]
    exact h.explains k r hr

theorem hubScope_mem (scopeType : String) : hubScope scopeType ∈ releaseScopes := by
  unfold hubScope
  split <;> decide

theorem hubScope_inj {a b : String} (ha : a ∈ ["site", "site_cleanup"]) (hb : b ∈ ["site", "site_cleanup"])
    (h : hubScope a = hubScope b) : a = b := by
  simp only [List.mem_cons, List.not_mem_nil, or_false] at ha hb
  rcases ha with rfl | rfl <;> rcases hb with rfl | rfl <;> first | rfl | exact absurd h (by decide)

theorem hubScope_ne_failover (scopeType : String) : hubScope scopeType ≠ "failover" := by
  unfold hubScope
  split <;> decide

/-- A hub instance stores a release. -/
theorem VersionInv.save (h : VersionInv g m tr) {r : ReleaseRecord} {d : Draw} (hd : g i = some d) (hs : d.Signs r)
    (hadm : (watch tr).Apart i (.hub (.saveRelease r)) ()) :
    VersionInv (Function.update g i (some .none)) (m.onStore (·.saveRelease r))
      (tr ++ [⟨i, .hub (.saveRelease r), ()⟩]) := by
  obtain ⟨hub, n, t, rfl, hscope, hversion⟩ := hs
  have hdrawn : (watch tr).drawn i = .issued hub n t := by rw [h.drawn, hd]; rfl
  have hwatch : watch (tr ++ [⟨i, .hub (.saveRelease r), ()⟩]) = { watch tr with
      drawn := Function.update (watch tr).drawn i .none
      issues := ⟨r.scopeType, hub, n, t⟩ :: (watch tr).issues } := by
    rw [watch_concat]
    simp only [Watch.see, Watch.seeHub, hdrawn]
    rfl
  have hnew : ∀ (k : Uuid) (r' : ReleaseRecord), m.world.store.releases[k]? = some r' →
      r'.releaseVersion ≠ r.releaseVersion := by
    intro k r' hr' e
    rw [hversion] at e
    rcases h.explains k r' hr' with ⟨x, hx, hxs, hxv⟩ | ⟨t', -, ht'⟩
    · obtain ⟨hsc, hsec, hser⟩ := buildReleaseVersion_inj (hubScope_mem _) (hubScope_mem _) (hxv.symm.trans e)
      by_cases hh : x.hub = hub
      · -- the instance that issued `x` took this serial twice
        refine h.held.fresh i x hx ?_
        rw [hdrawn]
        exact ⟨hh.symm, hser.symm⟩
      · have hi : ⟨r.scopeType, hub, n, t⟩ ∈ ((watch tr).drawn i).issue r.scopeType := by
          rw [hdrawn]
          exact List.mem_singleton_self _
        exact hadm.1 r rfl _ hi x hx (hubScope_inj hxs hscope hsc) hh hser hsec
    · have := (buildReleaseVersion_inj (by decide) (hubScope_mem _) (ht'.symm.trans e)).1
      exact hubScope_ne_failover _ this.symm
  refine ⟨fun j => ?_, ?_, fun k r' hr' => ?_, h.distinct_insert hnew⟩
  · rw [hwatch]
    by_cases hj : j = i
    · subst hj
      simp
    · simp [Function.update_of_ne hj, h.drawn]
  · rw [hwatch]
    exact h.held.issue hdrawn r.scopeType
  · rw [hwatch]
    change (m.world.store.releases.insert r.releaseId r)[k]? = some r' at hr'
    rw [Std.ExtTreeMap.getElem?_insert] at hr'
    split at hr'
    · cases hr'
      exact .inl ⟨_, List.mem_cons_self, hscope, hversion⟩
    · rcases h.explains k r' hr' with ⟨x, hx, hxv⟩ | ht
      · exact .inl ⟨x, List.mem_cons_of_mem _ hx, hxv⟩
      · exact .inr ht

/-- A call of a worker that stores no release. -/
theorem VersionInv.keep (h : VersionInv g m tr) {m' : Mesh} {c : MeshCall} {a : c.Ans} {d : Draw} (hd : g i = some d)
    (hw : (watch tr).see ⟨i, c, a⟩ = watch tr) (hr : m'.world.store.releases = m.world.store.releases)
    (hc : m'.world.counters = m.world.counters) :
    VersionInv (Function.update g i (some d)) m' (tr ++ [⟨i, c, a⟩]) := by
  have hg : Function.update g i (some d) = g := by rw [← hd]; exact Function.update_eq_self i g
  rw [hg]
  have hs : m'.world.serial = m.world.serial := by funext k; simp only [World.serial, hc]
  refine ⟨?_, ?_, ?_, ?_⟩
  all_goals simp only [watch_concat, hw, hr, hs]
  · exact h.drawn
  · exact h.held
  · exact h.explains
  · exact h.distinct

/-- A cycle stores a release. -/
theorem VersionInv.failover (h : VersionInv g m tr) {m' : Mesh} {policy : PolicySnapshot} {site : SiteSnapshot}
    {eventId : Uuid} {now : DateTime} {d : Draw} (hd : g i = some d) (hdone : FailoverDone policy site now m m')
    (hadm : (watch tr).Apart i (.executeSiteFailover policy site eventId now) (.ok ())) :
    VersionInv (Function.update g i (some d)) m'
      (tr ++ [⟨i, .executeSiteFailover policy site eventId now, .ok ()⟩]) := by
  have hg : Function.update g i (some d) = g := by rw [← hd]; exact Function.update_eq_self i g
  have hwatch : watch (tr ++ [⟨i, .executeSiteFailover policy site eventId now, .ok ()⟩]) =
      { watch tr with failovers := now :: (watch tr).failovers } := by rw [watch_concat]; rfl
  have hs : m'.world.serial = m.world.serial := by funext k; simp only [World.serial, hdone.counters]
  obtain ⟨new, hversion, -, hreleases⟩ := hdone.release
  have hnew : ∀ (k : Uuid) (r' : ReleaseRecord), m.world.store.releases[k]? = some r' →
      r'.releaseVersion ≠ new.releaseVersion := by
    intro k r' hr' e
    rw [hversion] at e
    rcases h.explains k r' hr' with ⟨x, -, -, hxv⟩ | ⟨t, ht, htv⟩
    · exact hubScope_ne_failover _ (buildReleaseVersion_inj (hubScope_mem _) (by decide) (hxv.symm.trans e)).1
    · exact hadm.2 now rfl t ht (failoverVersion_inj (htv.symm.trans e))
  rw [hg]
  refine ⟨?_, ?_, ?_, ?_⟩
  all_goals simp only [hwatch, hreleases, hs]
  · exact h.drawn
  · exact ⟨h.held.below, h.held.issuesBelow, h.held.once, h.held.fresh⟩
  · intro k r' hr'
    rw [Std.ExtTreeMap.getElem?_insert] at hr'
    split at hr'
    · cases hr'
      exact .inr ⟨now, List.mem_cons_self, hversion⟩
    · rcases h.explains k r' hr' with hx | ⟨t, ht, htv⟩
      · exact .inl hx
      · exact .inr ⟨t, List.mem_cons_of_mem _ ht, htv⟩
  · exact h.distinct_insert hnew

end Invariant

/-! ## Runs -/

section Runs

variable {ι : Type} [DecidableEq ι] (p : Platform) (net : Nat → Delivery)

theorem spawn_keeps_versions :
    Pool.SpawnKeeps (ι := ι) (meshProgram p) drawSpec VersionInv (fun _ _ => True) (IssuedApart p net) := by
  intro P g i q _ hi hF
  exact ⟨.none, follows_draws p q, hF.inv.spawn (hF.fresh i hi)⟩

theorem call_keeps_versions :
    Pool.CallKeeps (ι := ι) (meshHandler p net) drawSpec VersionInv (fun (_ : Unit) _ => True) (IssuedApart p net) := by
  intro P g i c k d hadm hi hd hok hF
  have h := hF.inv
  replace hadm := hadm c (Pool.next_eq hi)
  cases c with
  | hub c =>
    refine ⟨d.next c (hubHandler p c P.state.world).1, rfl, ?_⟩
    by_cases hc : c.effect = some .saveRelease
    · cases c with
      | saveRelease r => exact h.save hd (hok r rfl) hadm
      | _ => simp [HubCall.effect] at hc
    · exact h.hub_call p hc hd
  | executeSiteFailover policy site eventId now =>
    refine ⟨d, rfl, ?_⟩
    have hdone := executeSiteFailover_done p net policy site eventId now P.state
    simp only [meshHandler] at hadm ⊢
    rcases hrun : executeSiteFailover p net policy site eventId now P.state with ⟨e | _, m'⟩
    · obtain ⟨m'', -, hm⟩ := Act.wp_error hdone hrun
      subst hm
      exact h.keep hd rfl rfl rfl
    · rw [hrun] at hadm
      exact h.failover hd (Act.wp_ok hdone hrun) hadm
  | savePolicy policy =>
    refine ⟨d, rfl, h.keep hd rfl ?_ rfl⟩
    simp only [meshHandler, Mesh.onStore, savePolicy]
    split <;> rfl
  | loadActivePolicies => exact ⟨d, rfl, h.keep hd rfl rfl rfl⟩
  | hasOpenFailoverEvent policyId => exact ⟨d, rfl, h.keep hd rfl rfl rfl⟩
  | loadSiteRow siteId => exact ⟨d, rfl, h.keep hd rfl rfl rfl⟩
  | loadSiteBindings siteId => exact ⟨d, rfl, h.keep hd rfl rfl rfl⟩
  | createFailoverEvent policy now reason => exact ⟨d, rfl, h.keep hd rfl rfl rfl⟩
  | finishFailoverEvent eventId status now => exact ⟨d, rfl, h.keep hd rfl rfl rfl⟩

/-- In every run in which the releases of different hub instances and of different cycles are issued apart, no two
stored releases have the same version. -/
theorem versions_distinct (remote : RemoteDns) (ms : List (Move ι MeshRequest))
    (hms : Pool.Admits (meshHandler p net) (meshProgram p) (IssuedApart p net) (Pool.init (Mesh.init remote)) ms)
    (k k' : Uuid) (r r' : ReleaseRecord)
    (hk : (Pool.exec (meshHandler p net) (meshProgram p) (Pool.init (Mesh.init remote))
      ms).state.world.store.releases[k]? = some r)
    (hk' : (Pool.exec (meshHandler p net) (meshProgram p) (Pool.init (Mesh.init remote))
      ms).state.world.store.releases[k']? = some r')
    (hne : k ≠ k') : r.releaseVersion ≠ r'.releaseVersion := by
  intro e
  obtain ⟨g, hF⟩ := Pool.invariant (spawn_keeps_versions p net) (call_keeps_versions p net)
    (Pool.fits_init (VersionInv.init remote)) ms hms
  exact hne (hF.inv.distinct k k' r r' hk hk' e)

end Runs

/-- The first instance makes a node and a site and publishes it, then the second publishes it again. -/
def publishTwice : List (Move Nat MeshRequest) :=
  request 0 0 4 (.node "edge-1") ++ request 1 0 3 (.site "example") ++ request 2 0 3 (.bind 2 0 []) ++
    request 3 0 10 (.publish 2) ++ request 4 1 10 (.publish 2)

/-- The releases of the two instances, on a given platform. -/
def publishedTwice (p : Platform) : HashMap Uuid ReleaseRecord :=
  (Pool.exec (meshHandler p fun _ => .done) (meshProgram p) (Pool.init (Mesh.init (.ofZones [])))
    publishTwice).state.world.store.releases

/-- With a clock that ticks every second the two publications are apart. -/
theorem versions_distinct_ticking : ∃ r r' : ReleaseRecord, (publishedTwice .plain)[3]? = some r ∧
    (publishedTwice .plain)[4]? = some r' ∧ r.releaseVersion ≠ r'.releaseVersion := by
  obtain ⟨r, hr⟩ := Option.isSome_iff_exists.1 (by decide : (publishedTwice .plain)[3]?.isSome)
  obtain ⟨r', hr'⟩ := Option.isSome_iff_exists.1 (by decide : (publishedTwice .plain)[4]?.isSome)
  exact ⟨r, r', hr, hr', versions_distinct .plain (fun _ => .done) (.ofZones []) publishTwice (by decide) 3 4 r r'
    hr hr' (by decide)⟩

/-- A platform whose clock ticks every nanosecond. -/
def Platform.fast : Platform := { Platform.plain with clock := fun n => n }

/-- Two instances that publish within a second store two releases under one version. -/
theorem two_hubs_one_version : ∃ r r' : ReleaseRecord, (publishedTwice .fast)[3]? = some r ∧
    (publishedTwice .fast)[4]? = some r' ∧ r.releaseVersion = r'.releaseVersion := by
  obtain ⟨r, hr⟩ := Option.isSome_iff_exists.1 (by decide +kernel : (publishedTwice .fast)[3]?.isSome)
  obtain ⟨r', hr'⟩ := Option.isSome_iff_exists.1 (by decide +kernel : (publishedTwice .fast)[4]?.isSome)
  have hv : (publishedTwice .fast)[3]?.map ReleaseRecord.releaseVersion =
      (publishedTwice .fast)[4]?.map ReleaseRecord.releaseVersion := by
    decide +kernel
  rw [hr, hr'] at hv
  exact ⟨r, r', hr, hr', Option.some.inj hv⟩

end PingoraMesh
