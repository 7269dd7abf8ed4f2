import PingoraMesh.Failover.Policy
import PingoraMesh.Hub.Sites
import PingoraMesh.Lib.Maps

/-!
# The bindings after a failover

What the worker's switch makes of bindings with one primary, and whether the two choices of a next standby agree.

* `switched_spec`: the standby takes over the role and the priority, the old primary becomes a standby, and the other
  bindings stay (`Switched`); a failback restores the bindings;
* `next_standbys_agree`: the hub's manual switch and the worker arm the same standby exactly when the one of the
  lowest priority is online, or none is.
-/

namespace PingoraMesh

/-! ## Lists with distinct keys -/

section Keys

variable {α K : Type} [DecidableEq K] {key : α → K} {as : List α}

/-- The key of an element finds it. -/
theorem find?_key (h : (as.map key).Nodup) {a : α} (ha : a ∈ as) : as.find? (fun x => key x == key a) = some a := by
  cases hf : as.find? (fun x => key x == key a) with
  | none => exact absurd (List.find?_eq_none.1 hf a ha) (by simp)
  | some b =>
    have hb : key b = key a := by simpa using List.find?_some hf
    rw [List.inj_on_of_nodup_map h (List.mem_of_find?_eq_some hf) ha hb]

/-- Two elements, and the rest. -/
theorem perm_pair_filter (h : (as.map key).Nodup) {a b : α} (ha : a ∈ as) (hb : b ∈ as) (hne : key a ≠ key b) :
    as.Perm (a :: b :: as.filter fun x => key x != key a && key x != key b) := by
  refine (List.perm_ext_iff_of_nodup h.of_map ?_).2 ?_
  · refine List.nodup_cons.2 ⟨?_, List.nodup_cons.2 ⟨?_, h.of_map.filter _⟩⟩
    · rw [List.mem_cons, List.mem_filter]
      rintro (rfl | ⟨-, hx⟩)
      · exact hne rfl
      · simp at hx
    · rw [List.mem_filter]
      rintro ⟨-, hx⟩
      simp at hx
  · intro x
    rw [List.mem_cons, List.mem_cons, List.mem_filter, Bool.and_eq_true, bne_iff_ne, bne_iff_ne]
    constructor
    · intro hx
      by_cases hxa : key x = key a
      · exact .inl (List.inj_on_of_nodup_map h hx ha hxa)
      · by_cases hxb : key x = key b
        · exact .inr (.inl (List.inj_on_of_nodup_map h hx hb hxb))
        · exact .inr (.inr ⟨hx, hxa, hxb⟩)
    · rintro (rfl | rfl | ⟨hx, -⟩)
      · exact ha
      · exact hb
      · exact hx

end Keys

/-! ## The switch of the worker -/

/-- Bindings of different nodes, of which `p` is the one primary. -/
structure PrimaryIs (bs : List SiteBindingSnapshot) (p : SiteBindingSnapshot) : Prop where
  distinct : (bs.map (·.nodeId)).Nodup
  mem : p ∈ bs
  role : p.bindingRole = "primary"
  only : ∀ b ∈ bs, b.bindingRole = "primary" → b = p

/-- The binding of a standby, or the one that `build_switched_bindings` makes up for it. -/
def standbyBinding (bs : List SiteBindingSnapshot) (p : SiteBindingSnapshot) (standby : Uuid) : SiteBindingSnapshot :=
  (bs.find? (·.nodeId == standby)).getD
    { nodeId := standby, nodeCode := Uuid.hyphenated standby, nodeStatus := "online", bindingRole := "standby"
      priority := p.priority + 10 }

/-- The bindings that a switch leaves alone. -/
def otherBindings (bs : List SiteBindingSnapshot) (primary standby : Uuid) : List SiteBindingSnapshot :=
  bs.filter fun b => b.nodeId != primary && b.nodeId != standby

/-- The binding of the new primary. -/
def promoted (p s : SiteBindingSnapshot) : SiteBindingSnapshot :=
  { s with bindingRole := "primary", priority := p.priority }

/-- The binding of the old primary. -/
def demoted (p s : SiteBindingSnapshot) : SiteBindingSnapshot :=
  { p with bindingRole := "standby", priority := max s.priority (p.priority + 10) }

section Switch

variable {bs : List SiteBindingSnapshot} {p : SiteBindingSnapshot} {standby : Uuid}

theorem nodeId_standbyBinding (bs : List SiteBindingSnapshot) (p : SiteBindingSnapshot) (standby : Uuid) :
    (standbyBinding bs p standby).nodeId = standby := by
  unfold standbyBinding
  cases hf : bs.find? (·.nodeId == standby) with
  | none => rfl
  | some b => simpa using List.find?_some hf

theorem PrimaryIs.standbyBinding_eq (h : PrimaryIs bs p) {s : SiteBindingSnapshot} (hs : s ∈ bs) :
    standbyBinding bs p s.nodeId = s := by
  rw [standbyBinding, find?_key h.distinct hs]
  rfl

theorem mem_otherBindings {primary standby : Uuid} {b : SiteBindingSnapshot} :
    b ∈ otherBindings bs primary standby ↔ b ∈ bs ∧ b.nodeId ≠ primary ∧ b.nodeId ≠ standby := by
  rw [otherBindings, List.mem_filter, Bool.and_eq_true, bne_iff_ne, bne_iff_ne]

/-- The switch sorts the others, the new primary and the old one. -/
theorem PrimaryIs.buildSwitchedBindings_eq (h : PrimaryIs bs p) (standby : Uuid) :
    buildSwitchedBindings bs p.nodeId standby =
      (otherBindings bs p.nodeId standby ++
        [promoted p (standbyBinding bs p standby), demoted p (standbyBinding bs p standby)]).insertionSort
          fun l r => bindingOrd l r ≠ .gt := by
  have hfind := find?_key h.distinct h.mem
  have hpriority : currentPrimaryPriority bs p.nodeId = p.priority := by
    have hprimary : bs.find? (fun b => b.nodeId == p.nodeId && b.bindingRole == "primary") = some p := by
      cases hf : bs.find? (fun b => b.nodeId == p.nodeId && b.bindingRole == "primary") with
      | none => exact absurd (List.find?_eq_none.1 hf p h.mem) (by simp [h.role])
      | some b =>
        have hb := List.find?_some hf
        rw [Bool.and_eq_true, beq_iff_eq, beq_iff_eq] at hb
        rw [h.only b (List.mem_of_find?_eq_some hf) hb.2]
    rw [currentPrimaryPriority, hprimary]
    rfl
  unfold buildSwitchedBindings
  dsimp only
  rw [hpriority, hfind]
  cases hf : bs.find? (·.nodeId == standby) with
  | none =>
    simp only [Option.map_none, Option.getD_none, Option.getD_some, otherBindings, promoted, demoted, standbyBinding,
      hf]
  | some s =>
    simp only [Option.map_some, Option.getD_some, otherBindings, promoted, demoted, standbyBinding, hf]

theorem PrimaryIs.switched_perm (h : PrimaryIs bs p) (standby : Uuid) :
    (buildSwitchedBindings bs p.nodeId standby).Perm
      (promoted p (standbyBinding bs p standby) :: demoted p (standbyBinding bs p standby) ::
        otherBindings bs p.nodeId standby) := by
  rw [h.buildSwitchedBindings_eq standby]
  exact (List.perm_insertionSort _ _).trans List.perm_append_comm

/-- After the switch the standby is the one primary. -/
theorem PrimaryIs.switched (h : PrimaryIs bs p) (hne : standby ≠ p.nodeId) :
    PrimaryIs (buildSwitchedBindings bs p.nodeId standby) (promoted p (standbyBinding bs p standby)) := by
  have hperm := h.switched_perm standby
  have hid : (promoted p (standbyBinding bs p standby)).nodeId = standby := nodeId_standbyBinding bs p standby
  refine ⟨?_, ?_, rfl, ?_⟩
  · rw [(hperm.map _).nodup_iff, List.map_cons, List.map_cons, hid]
    refine List.nodup_cons.2 ⟨?_, List.nodup_cons.2 ⟨?_, ?_⟩⟩
    · rintro hm
      rcases List.mem_cons.1 hm with e | hm
      · exact hne e
      · obtain ⟨b, hb, e⟩ := List.mem_map.1 hm
        exact (mem_otherBindings.1 hb).2.2 e
    · intro hm
      obtain ⟨b, hb, e⟩ := List.mem_map.1 hm
      exact (mem_otherBindings.1 hb).2.1 e
    · exact h.distinct.sublist (List.filter_sublist.map _)
  · exact hperm.mem_iff.2 List.mem_cons_self
  · intro b hb hrole
    rcases List.mem_cons.1 (hperm.mem_iff.1 hb) with rfl | hb
    · rfl
    · rcases List.mem_cons.1 hb with rfl | hb
      · exact absurd hrole (by simp [demoted])
      · obtain ⟨hb, hbp, -⟩ := mem_otherBindings.1 hb
        exact absurd (congrArg (·.nodeId) (h.only b hb hrole)) hbp

/-- The one primary is the current one. -/
theorem PrimaryIs.current (h : PrimaryIs bs p) : currentPrimaryNodeId bs = some p.nodeId := by
  obtain ⟨b, hb⟩ := Option.isSome_iff_exists.1 (@minByKey_isSome _ (·.priority) _ _
    (List.mem_filter.2 ⟨h.mem, beq_iff_eq.2 h.role⟩ : p ∈ bs.filter (·.bindingRole == "primary")))
  have hmem := List.mem_filter.1 (mem_of_minByKey hb)
  rw [currentPrimaryNodeId, hb, h.only b hmem.1 (beq_iff_eq.1 hmem.2)]
  rfl

instance : Std.TransCmp bindingOrd :=
  inferInstanceAs <| Std.TransCmp <|
    compareLex (compareOn SiteBindingSnapshot.priority) (compareOn SiteBindingSnapshot.nodeCode)

/-- By priority, then by node code. -/
def BindingBefore (l r : SiteBindingSnapshot) : Prop :=
  l.priority < r.priority ∨ l.priority = r.priority ∧ l.nodeCode ≤ r.nodeCode

theorem bindingOrd_ne_gt_iff {l r : SiteBindingSnapshot} : bindingOrd l r ≠ .gt ↔ BindingBefore l r := by
  have hcode : compare l.nodeCode r.nodeCode ≠ .gt ↔ l.nodeCode ≤ r.nodeCode := compare_le_iff_le
  exact Sorted.then_ne_gt_iff.trans (or_congr Iff.rfl (and_congr_right fun _ => hcode))

/-- A failback restores the bindings when the standby was bound as one, with room for the primary before it. -/
theorem PrimaryIs.failback (h : PrimaryIs bs p) {s : SiteBindingSnapshot} (hs : s ∈ bs) (hne : s.nodeId ≠ p.nodeId)
    (hrole : s.bindingRole = "standby") (hroom : p.priority + 10 ≤ s.priority) :
    (buildSwitchedBindings (buildSwitchedBindings bs p.nodeId s.nodeId) s.nodeId p.nodeId).Perm bs := by
  have hswitched := h.switched hne
  have hperm := h.switched_perm s.nodeId
  rw [h.standbyBinding_eq hs] at hswitched hperm
  have hold : demoted p s ∈ buildSwitchedBindings bs p.nodeId s.nodeId :=
    hperm.mem_iff.2 (List.mem_cons_of_mem _ List.mem_cons_self)
  have hback := hswitched.switched_perm p.nodeId
  have hstandby : standbyBinding (buildSwitchedBindings bs p.nodeId s.nodeId) (promoted p s) p.nodeId = demoted p s :=
    hswitched.standbyBinding_eq hold
  rw [hstandby] at hback
  -- The two bindings are what they were.
  have hnew : promoted (promoted p s) (demoted p s) = p := by
    simp only [promoted, demoted, ← h.role]
  have hdem : demoted (promoted p s) (demoted p s) = s := by
    simp only [promoted, demoted, ← hrole]
    rw [max_eq_left hroom, max_eq_left hroom]
  -- The others were not touched.
  have hothers : (otherBindings (buildSwitchedBindings bs p.nodeId s.nodeId) s.nodeId p.nodeId).Perm
      (otherBindings bs p.nodeId s.nodeId) := by
    refine (hperm.filter _).trans (.of_eq ?_)
    rw [List.filter_cons_of_neg (by simp [promoted]), List.filter_cons_of_neg (by simp [demoted])]
    refine List.filter_eq_self.2 fun b hb => ?_
    obtain ⟨-, hbp, hbs⟩ := mem_otherBindings.1 hb
    simp [hbp, hbs]
  rw [hnew, hdem] at hback
  exact (hback.trans ((hothers.cons s).cons p)).trans (perm_pair_filter h.distinct h.mem hs hne.symm).symm

/-- What a failover makes of bindings whose one primary is `p`. -/
structure Switched (bs : List SiteBindingSnapshot) (p : SiteBindingSnapshot) (standby : Uuid)
    (out : List SiteBindingSnapshot) : Prop where
  distinct : (out.map (·.nodeId)).Nodup
  nodes : ∀ n, n ∈ out.map (·.nodeId) ↔ n ∈ bs.map (·.nodeId) ∨ n = standby
  primary : ∀ b ∈ out, b.bindingRole = "primary" ↔ b.nodeId = standby
  priority : ∀ b ∈ out, b.nodeId = standby → b.priority = p.priority
  current : currentPrimaryNodeId out = some standby
  demoted : ∀ b ∈ out, b.nodeId = p.nodeId → b.bindingRole = "standby" ∧ p.priority + 10 ≤ b.priority ∧
    ∀ s ∈ bs, s.nodeId = standby → s.priority ≤ b.priority
  others : ∀ b, b.nodeId ≠ p.nodeId → b.nodeId ≠ standby → (b ∈ out ↔ b ∈ bs)
  sorted : out.Pairwise BindingBefore

/-- The new list, by membership: the new primary, the old one, and the others. -/
theorem PrimaryIs.mem_switched (h : PrimaryIs bs p) {b : SiteBindingSnapshot} :
    b ∈ buildSwitchedBindings bs p.nodeId standby ↔ b = promoted p (standbyBinding bs p standby) ∨
      b = PingoraMesh.demoted p (standbyBinding bs p standby) ∨
      b ∈ bs ∧ b.nodeId ≠ p.nodeId ∧ b.nodeId ≠ standby := by
  rw [(h.switched_perm standby).mem_iff, List.mem_cons, List.mem_cons, mem_otherBindings]

/-- **The failover switch**: for bindings of different nodes with one primary, and any other node, the switch is what
it should be, and a failback restores the bindings when the standby was bound as one, with room for the primary. -/
theorem switched_spec (h : PrimaryIs bs p) (hne : standby ≠ p.nodeId) :
    Switched bs p standby (buildSwitchedBindings bs p.nodeId standby) ∧
      ((∃ s ∈ bs, s.nodeId = standby ∧ s.bindingRole = "standby" ∧ p.priority + 10 ≤ s.priority) →
        (buildSwitchedBindings (buildSwitchedBindings bs p.nodeId standby) standby p.nodeId).Perm bs) := by
  have hswitched := h.switched hne
  have hnew : (promoted p (standbyBinding bs p standby)).nodeId = standby := nodeId_standbyBinding bs p standby
  have hunique : ∀ b ∈ buildSwitchedBindings bs p.nodeId standby, b.nodeId = standby →
      b = promoted p (standbyBinding bs p standby) := fun b hb e =>
    List.inj_on_of_nodup_map hswitched.distinct hb hswitched.mem (e.trans hnew.symm)
  constructor
  · refine ⟨hswitched.distinct, ?_, ?_, ?_, ?_, ?_, ?_, ?_⟩
    · intro n
      simp only [List.mem_map]
      constructor
      · rintro ⟨b, hb, rfl⟩
        rcases h.mem_switched.1 hb with rfl | rfl | ⟨hb, -, -⟩
        · exact .inr hnew
        · exact .inl ⟨p, h.mem, rfl⟩
        · exact .inl ⟨b, hb, rfl⟩
      · rintro (⟨b, hb, rfl⟩ | rfl)
        · by_cases hp : b.nodeId = p.nodeId
          · exact ⟨_, h.mem_switched.2 (.inr (.inl rfl)), hp.symm⟩
          · by_cases hs : b.nodeId = standby
            · exact ⟨_, hswitched.mem, hnew.trans hs.symm⟩
            · exact ⟨b, h.mem_switched.2 (.inr (.inr ⟨hb, hp, hs⟩)), rfl⟩
        · exact ⟨_, hswitched.mem, hnew⟩
    · intro b hb
      constructor
      · intro hrole
        rw [hswitched.only b hb hrole, hnew]
      · intro e
        rw [hunique b hb e]
        rfl
    · intro b hb e
      rw [hunique b hb e]
      rfl
    · rw [hswitched.current, hnew]
    · intro b hb e
      rcases h.mem_switched.1 hb with rfl | rfl | ⟨-, hno, -⟩
      · exact absurd (hnew.symm.trans e) hne
      · refine ⟨rfl, le_max_right _ _, ?_⟩
        rintro s hs rfl
        rw [h.standbyBinding_eq hs]
        exact le_max_left _ _
      · exact absurd e hno
    · intro b hp hs
      rw [h.mem_switched]
      constructor
      · rintro (rfl | rfl | ⟨hb, -, -⟩)
        · exact absurd hnew hs
        · exact absurd rfl hp
        · exact hb
      · intro hb
        exact .inr (.inr ⟨hb, hp, hs⟩)
    · rw [h.buildSwitchedBindings_eq standby]
      exact (Sorted.pairwise_insertionSort_cmp bindingOrd _).imp fun hle => bindingOrd_ne_gt_iff.1 hle
  · rintro ⟨s, hs, rfl, hrole, hroom⟩
    exact h.failback hs hne hrole hroom

end Switch

/-- A primary and two standbys, the second of which has room for the primary before it. -/
def threeBindings : List SiteBindingSnapshot :=
  [⟨1, "edge-1", "offline", "primary", 10⟩, ⟨2, "edge-2", "online", "standby", 15⟩,
   ⟨3, "edge-3", "online", "standby", 30⟩]

/-- A failover to the second standby and back. -/
theorem switched_spec_three :
    buildSwitchedBindings threeBindings 1 3 =
        [⟨3, "edge-3", "online", "primary", 10⟩, ⟨2, "edge-2", "online", "standby", 15⟩,
         ⟨1, "edge-1", "offline", "standby", 30⟩] ∧
      (buildSwitchedBindings (buildSwitchedBindings threeBindings 1 3) 3 1).Perm threeBindings := by
  have hprimary : PrimaryIs threeBindings ⟨1, "edge-1", "offline", "primary", 10⟩ :=
    ⟨by decide, by decide, by decide, by decide⟩
  refine ⟨by decide +kernel, ?_⟩
  have hspec := switched_spec hprimary (show (3 : Uuid) ≠ 1 by decide)
  exact hspec.2 (by decide)

/-! ## The next standby -/

/-- The binding is of a standby other than the primary. -/
def StandbyFor (bindings : List SiteBindingRecord) (primary : Uuid) (b : SiteBindingRecord) : Prop :=
  b ∈ bindings ∧ b.nodeId ≠ primary ∧ b.bindingRole = "standby"

/-- The status says that a node is online. -/
def IsOnline (status : String) : Prop := Text.toAsciiLowercase status = "online"

/-- The bindings as the worker reads them, with the status and the code of each node. -/
def snapshots (status code : Uuid → String) (bindings : List SiteBindingRecord) : List SiteBindingSnapshot :=
  bindings.map fun b =>
    { nodeId := b.nodeId, nodeCode := code b.nodeId, nodeStatus := status b.nodeId, bindingRole := b.bindingRole
      priority := b.priority }

/-- Both switches arm the same standby, which is online if any is. -/
structure SameStandby (bindings : List SiteBindingRecord) (status code : Uuid → String) (primary : Uuid) : Prop where
  same : selectNextFailoverPolicyStandby bindings primary =
    selectNextPolicyStandby (snapshots status code bindings) primary
  online : (∃ b, StandbyFor bindings primary b ∧ IsOnline (status b.nodeId)) →
    ∃ n, selectNextFailoverPolicyStandby bindings primary = some n ∧ IsOnline (status n)

/-- The standby of the lowest priority is online, or none is. -/
def LowestOnline (bindings : List SiteBindingRecord) (status : Uuid → String) (primary : Uuid) : Prop :=
  ∀ b, StandbyFor bindings primary b → (∀ c, StandbyFor bindings primary c → b.priority ≤ c.priority) →
    IsOnline (status b.nodeId) ∨ ∀ c, StandbyFor bindings primary c → ¬IsOnline (status c.nodeId)

/-- The hub takes a standby of the lowest priority. -/
theorem selectNextFailoverPolicyStandby_cases (bindings : List SiteBindingRecord) (primary : Uuid) :
    (∃ b, StandbyFor bindings primary b ∧ (∀ c, StandbyFor bindings primary c → b.priority ≤ c.priority) ∧
      selectNextFailoverPolicyStandby bindings primary = some b.nodeId) ∨
    ((∀ c, ¬StandbyFor bindings primary c) ∧ selectNextFailoverPolicyStandby bindings primary = none) := by
  have hmem : ∀ c, c ∈ bindings.filter (fun b => b.nodeId != primary && b.bindingRole == "standby") ↔
      StandbyFor bindings primary c := by
    intro c
    rw [List.mem_filter, Bool.and_eq_true, bne_iff_ne, beq_iff_eq, StandbyFor]
  unfold selectNextFailoverPolicyStandby
  cases hmin : minByKey (·.priority)
    (bindings.filter fun b => b.nodeId != primary && b.bindingRole == "standby") with
  | none =>
    refine .inr ⟨fun c hc => ?_, rfl⟩
    have hsome := @minByKey_isSome _ (·.priority) _ _ ((hmem c).2 hc)
    rw [hmin] at hsome
    cases hsome
  | some b =>
    refine .inl ⟨b, (hmem b).1 (mem_of_minByKey hmin), fun c hc => ?_, rfl⟩
    exact minByKey_le hmin c ((hmem c).2 hc)

instance : Std.TransCmp standbyOrd :=
  inferInstanceAs <| Std.TransCmp <|
    compareLex (compareOn fun s : SiteBindingSnapshot => standbyStatusRank s.nodeStatus) bindingOrd

theorem standbyStatusRank_eq_zero {s : String} : standbyStatusRank s = 0 ↔ IsOnline s := by
  unfold standbyStatusRank IsOnline
  split <;> simp_all

/-- The worker takes a standby that is before every other by rank and then by priority. -/
theorem selectNextPolicyStandby_cases (bindings : List SiteBindingRecord) (status code : Uuid → String)
    (primary : Uuid) :
    (∃ b, StandbyFor bindings primary b ∧
      (∀ c, StandbyFor bindings primary c →
        standbyStatusRank (status b.nodeId) < standbyStatusRank (status c.nodeId) ∨
        standbyStatusRank (status b.nodeId) = standbyStatusRank (status c.nodeId) ∧ b.priority ≤ c.priority) ∧
      selectNextPolicyStandby (snapshots status code bindings) primary = some b.nodeId) ∨
    ((∀ c, ¬StandbyFor bindings primary c) ∧
      selectNextPolicyStandby (snapshots status code bindings) primary = none) := by
  have hmem : ∀ c, c ∈ (snapshots status code bindings).filter (fun b => b.nodeId != primary &&
      b.bindingRole == "standby") ↔ ∃ b, StandbyFor bindings primary b ∧
        c = ⟨b.nodeId, code b.nodeId, status b.nodeId, b.bindingRole, b.priority⟩ := by
    intro c
    rw [List.mem_filter, Bool.and_eq_true, bne_iff_ne, beq_iff_eq, snapshots, List.mem_map]
    constructor
    · rintro ⟨⟨b, hb, rfl⟩, hp, hr⟩
      exact ⟨b, ⟨hb, hp, hr⟩, rfl⟩
    · rintro ⟨b, ⟨hb, hp, hr⟩, rfl⟩
      exact ⟨⟨b, hb, rfl⟩, hp, hr⟩
  unfold selectNextPolicyStandby
  cases hmin : minBy standbyOrd ((snapshots status code bindings).filter fun b => b.nodeId != primary &&
      b.bindingRole == "standby") with
  | none =>
    refine .inr ⟨fun c hc => ?_, rfl⟩
    have hsome := @minBy_isSome _ standbyOrd _ _ ((hmem _).2 ⟨c, hc, rfl⟩)
    rw [hmin] at hsome
    cases hsome
  | some x =>
    obtain ⟨b, hb, rfl⟩ := (hmem x).1 (mem_of_minBy hmin)
    refine .inl ⟨b, hb, fun c hc => ?_, rfl⟩
    have hle := minBy_ne_gt hmin _ ((hmem _).2 ⟨c, hc, rfl⟩)
    rcases Sorted.then_ne_gt_iff.1 hle with hlt | ⟨heq, hrest⟩
    · exact .inl hlt
    · refine .inr ⟨heq, ?_⟩
      rcases bindingOrd_ne_gt_iff.1 hrest with hlt | ⟨heq, -⟩
      · exact hlt.le
      · exact heq.le

/-- **The next standby**: with different priorities the two switches arm the same standby, and an online one if there
is one, exactly when the standby of the lowest priority is online or none is. -/
theorem next_standbys_agree (bindings : List SiteBindingRecord) (status code : Uuid → String) (primary : Uuid)
    (hpriority : (bindings.map (·.priority)).Nodup) :
    SameStandby bindings status code primary ↔ LowestOnline bindings status primary := by
  have hinj : ∀ b c, StandbyFor bindings primary b → StandbyFor bindings primary c → b.priority ≤ c.priority →
      c.priority ≤ b.priority → b = c := fun b c hb hc hbc hcb =>
    List.inj_on_of_nodup_map hpriority hb.1 hc.1 (le_antisymm hbc hcb)
  constructor
  · intro h b hb hlow
    by_cases hany : ∃ c, StandbyFor bindings primary c ∧ IsOnline (status c.nodeId)
    · left
      obtain ⟨n, hn, honline⟩ := h.online hany
      rcases selectNextFailoverPolicyStandby_cases bindings primary with
        ⟨b', hb', hlow', heq⟩ | ⟨hnone, -⟩
      · rw [heq] at hn
        cases hn
        rw [hinj b b' hb hb' (hlow b' hb') (hlow' b hb)]
        exact honline
      · exact absurd hb (hnone b)
    · exact .inr fun c hc honline => hany ⟨c, hc, honline⟩
  · intro h
    rcases selectNextFailoverPolicyStandby_cases bindings primary with
      ⟨b, hb, hlow, heq⟩ | ⟨hnone, heq⟩
    · constructor
      · rcases selectNextPolicyStandby_cases bindings status code primary with ⟨c, hc, hfirst, heq'⟩ | ⟨hnone, -⟩
        · rw [heq, heq']
          have hle : c.priority ≤ b.priority := by
            rcases hfirst b hb with hlt | ⟨-, hle⟩
            · rcases h b hb hlow with honline | hoff
              · rw [standbyStatusRank_eq_zero.2 honline] at hlt
                exact absurd hlt (Nat.not_lt_zero _)
              · have hc' : standbyStatusRank (status c.nodeId) ≠ 0 := mt standbyStatusRank_eq_zero.1 (hoff c hc)
                have hb' : standbyStatusRank (status b.nodeId) ≤ 1 := by
                  unfold standbyStatusRank
                  split <;> decide
                omega
            · exact hle
          rw [hinj b c hb hc (hlow c hc) hle]
        · exact absurd hb (hnone b)
      · rintro ⟨c, hc, honline⟩
        rcases h b hb hlow with hb' | hoff
        · exact ⟨b.nodeId, heq, hb'⟩
        · exact absurd honline (hoff c hc)
    · constructor
      · rcases selectNextPolicyStandby_cases bindings status code primary with ⟨c, hc, -, -⟩ | ⟨-, heq'⟩
        · exact absurd hc (hnone c)
        · rw [heq, heq']
      · rintro ⟨c, hc, -⟩
        exact absurd hc (hnone c)

/-- A primary and two standbys. -/
def twoStandbys : List SiteBindingRecord := [⟨1, "primary", 100⟩, ⟨2, "standby", 200⟩, ⟨3, "standby", 300⟩]

/-- All nodes are online. -/
theorem next_standbys_agree_online : SameStandby twoStandbys (fun _ => "online") Uuid.hyphenated 1 := by
  refine (next_standbys_agree twoStandbys (fun _ => "online") Uuid.hyphenated 1 (by decide)).2 ?_
  intro b _ _
  left
  show Text.toAsciiLowercase "online" = "online"
  decide

/-- The first standby is offline: the hub arms it, and the worker the second. -/
theorem offline_standby_armed :
    (twoStandbys.map (·.priority)).Nodup ∧
      ¬SameStandby twoStandbys (fun n => if n = 2 then "offline" else "online") Uuid.hyphenated 1 := by
  refine ⟨by decide, fun h => ?_⟩
  have hsame := h.same
  revert hsame
  decide +kernel

end PingoraMesh
