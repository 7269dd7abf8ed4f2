import PingoraMesh.Lib.Machine
import PingoraMesh.Status.Worker

/-!
# Counting missed heartbeats

The status worker and the failover worker count the heartbeats that a node has missed, each with a copy of the same
function. `missedHeartbeatsI` is that function over machine integers, where every operation that may panic has no value
then; both workers compare its value with thresholds that may be anything.

* `missedHeartbeatsI_eq`: for any two times of the type and any interval it has a value, and no cast changes a number;
* `missedHeartbeats_mono`, `evaluateStatus_mono`: the count and the severity of the status grow with time;
* `evaluatePolicy_iff`: a policy is due by the count, or by what does not change with time;
* `heartbeats_safe_and_monotone` puts this together.
-/

namespace PingoraMesh

open Machine

/-! ## Over machine integers -/

/-- A value of `DateTime<Utc>`: the years of chrono's calendar are among those from -262144 to 262143. -/
structure Instant where
  time : DateTime
  early : DateTime.seconds (-8334632937600) ≤ time
  late : time < DateTime.seconds 8210298412800

/-- `DateTime::signed_duration_since`: a `TimeDelta` is at most `i64::MAX` milliseconds long. -/
def signedDurationSince (now lastSeenAt : DateTime) : Option Int :=
  let elapsed := now - lastSeenAt
  if (-IntType.i64.hi) * 1000000 ≤ elapsed ∧ elapsed ≤ IntType.i64.hi * 1000000 then some elapsed else none

/-- `missed_heartbeats`, with a value unless an operation panics. -/
def missedHeartbeatsI (now lastSeenAt : DateTime) (expectedHeartbeatSeconds : Int) : Option Int := do
  let intervalSeconds := max expectedHeartbeatSeconds 1
  let elapsed ← signedDurationSince now lastSeenAt
  let numSeconds ← IntType.i64.checked (elapsed.tdiv DateTime.nanosPerSecond)
  let elapsedSeconds := IntType.u64.cast (max numSeconds 0)
  let missed ← IntType.u64.div elapsedSeconds intervalSeconds
  return IntType.u32.cast (min missed IntType.u32.hi)

section Missed

variable {now now' lastSeenAt : DateTime} {seconds : Nat}

/-- Two times are less than 2^44 seconds apart. -/
theorem Instant.sub_bounds (now lastSeenAt : Instant) :
    DateTime.seconds (-17592186044416) ≤ now.time - lastSeenAt.time ∧
      now.time - lastSeenAt.time ≤ DateTime.seconds 17592186044416 := by
  have hlo : DateTime.seconds (-8334632937600) - DateTime.seconds 8210298412800 ≤ now.time - lastSeenAt.time :=
    Int.sub_le_sub now.early (Int.le_of_lt lastSeenAt.late)
  have hhi : now.time - lastSeenAt.time ≤ DateTime.seconds 8210298412800 - DateTime.seconds (-8334632937600) :=
    Int.sub_le_sub (Int.le_of_lt now.late) lastSeenAt.early
  exact ⟨Int.le_trans (by decide) hlo, Int.le_trans hhi (by decide)⟩

/-- So are they in whole seconds. -/
theorem Instant.tdiv_bounds (now lastSeenAt : Instant) :
    -17592186044416 ≤ (now.time - lastSeenAt.time).tdiv DateTime.nanosPerSecond ∧
      (now.time - lastSeenAt.time).tdiv DateTime.nanosPerSecond ≤ 17592186044416 := by
  obtain ⟨hlo, hhi⟩ := now.sub_bounds lastSeenAt
  exact ⟨tdiv_mono (c := DateTime.nanosPerSecond) (by decide) hlo,
    tdiv_mono (c := DateTime.nanosPerSecond) (by decide) hhi⟩

/-- Nothing panics, and the value is the count over the numbers. -/
theorem missedHeartbeatsI_eq (now lastSeenAt : Instant) (seconds : UInt64) :
    missedHeartbeatsI now.time lastSeenAt.time seconds.toNat =
      some (missedHeartbeats now.time lastSeenAt.time seconds.toNat : Int) := by
  obtain ⟨hlo, hhi⟩ := now.sub_bounds lastSeenAt
  have hsub : signedDurationSince now.time lastSeenAt.time = some (now.time - lastSeenAt.time) :=
    if_pos ⟨Int.le_trans (by decide) hlo, Int.le_trans hhi (by decide)⟩
  unfold missedHeartbeatsI missedHeartbeats
  rw [hsub]
  obtain ⟨hlo, hhi⟩ := now.tdiv_bounds lastSeenAt
  dsimp only [Option.bind_eq_bind, Option.bind_some, Option.pure_def]
  generalize (now.time - lastSeenAt.time).tdiv DateTime.nanosPerSecond = n at hlo hhi ⊢
  have hnum : IntType.i64.Has n := ⟨Int.le_trans (by decide) hlo, Int.le_trans hhi (by decide)⟩
  have hmax : IntType.u64.Has (max n 0) := ⟨le_max_right n 0, max_le (Int.le_trans hhi (by decide)) (by decide)⟩
  have hpos : (0 : Int) < max (seconds.toNat : Int) 1 := by omega
  have hcount : max n 0 / max (seconds.toNat : Int) 1 = ((n.toNat / max seconds.toNat 1 : Nat) : Int) := by
    have hn : max n 0 = (n.toNat : Int) := by omega
    rw [hn]
    norm_cast
  have hcap : min (max n 0 / max (seconds.toNat : Int) 1) IntType.u32.hi =
      ((min (n.toNat / max seconds.toNat 1) 4294967295 : Nat) : Int) := by
    rw [hcount]
    exact (Nat.cast_min _ _).symm
  have hcast : IntType.u32.Has ((min (n.toNat / max seconds.toNat 1) 4294967295 : Nat) : Int) := by
    refine ⟨Int.natCast_nonneg _, ?_⟩
    exact Int.ofNat_le.2 (Nat.min_le_right _ _)
  rw [IntType.checked_of_has hnum, Option.bind_some, IntType.cast_of_has hmax, IntType.div_of_has rfl hmax hpos,
    Option.bind_some, hcap, IntType.cast_of_has hcast]

/-- A heartbeat that is not over yet is not missed. -/
theorem missedHeartbeats_eq_zero (h : now ≤ lastSeenAt) : missedHeartbeats now lastSeenAt seconds = 0 := by
  have hle : (now - lastSeenAt).tdiv DateTime.nanosPerSecond ≤ 0 := tdiv_nonpos (by decide) (Int.sub_nonpos_of_le h)
  rw [missedHeartbeats, Int.toNat_of_nonpos hle, Nat.zero_div]
  exact Nat.zero_min _

/-- The later it is, the more heartbeats are missed. -/
theorem missedHeartbeats_mono (h : now ≤ now') :
    missedHeartbeats now lastSeenAt seconds ≤ missedHeartbeats now' lastSeenAt seconds := by
  have hle : (now - lastSeenAt).tdiv DateTime.nanosPerSecond ≤ (now' - lastSeenAt).tdiv DateTime.nanosPerSecond :=
    tdiv_mono (by decide) (Int.sub_le_sub_right h _)
  unfold missedHeartbeats
  exact min_le_min_right _ (Nat.div_le_div_right (Int.toNat_le_toNat hle))

end Missed

/-! ## The status -/

/-- How severe a status is that comes of missed heartbeats. -/
def NodeStatus.severity : NodeStatus → Option Nat
  | .online => some 0
  | .suspect => some 1
  | .offline => some 2
  | .pending | .maintenance => none

/-- Both come of missed heartbeats, and the second is at least as severe. -/
def NodeStatus.AtMost (status status' : NodeStatus) : Prop :=
  ∃ a b, status.severity = some a ∧ status'.severity = some b ∧ a ≤ b

/-- More missed heartbeats, a status that is at least as severe, whichever threshold is the greater one. -/
theorem evaluateStatus_mono {missed missed' : Nat} (h : missed ≤ missed') (policy : HeartbeatPolicy) :
    (evaluateStatus missed policy).AtMost (evaluateStatus missed' policy) := by
  unfold evaluateStatus
  by_cases hoff : missed ≥ policy.offlineAfterMissed
  · have hoff' : missed' ≥ policy.offlineAfterMissed := Nat.le_trans hoff h
    rw [if_pos hoff, if_pos hoff']
    exact ⟨2, 2, rfl, rfl, Nat.le_refl _⟩
  · rw [if_neg hoff]
    by_cases hsus : missed ≥ policy.suspectAfterMissed
    · have hsus' : missed' ≥ policy.suspectAfterMissed := Nat.le_trans hsus h
      rw [if_pos hsus, if_pos hsus']
      split
      · exact ⟨1, 2, rfl, rfl, by decide⟩
      · exact ⟨1, 1, rfl, rfl, Nat.le_refl _⟩
    · rw [if_neg hsus]
      split
      · exact ⟨0, 2, rfl, rfl, by decide⟩
      · split
        · exact ⟨0, 1, rfl, rfl, by decide⟩
        · exact ⟨0, 0, rfl, rfl, Nat.le_refl _⟩

/-- The later it is, the more severe is the status that is decided on. -/
theorem desiredStatusForSnapshot_mono {now now' : DateTime} (h : now ≤ now') (snapshot : NodeSnapshot) (seconds : Nat)
    (policy : HeartbeatPolicy) :
    Option.Rel NodeStatus.AtMost (desiredStatusForSnapshot snapshot now seconds policy)
      (desiredStatusForSnapshot snapshot now' seconds policy) := by
  unfold desiredStatusForSnapshot
  split
  · exact .none
  · cases snapshot.lastSeenAt with
    | none => exact .none
    | some lastSeenAt => exact .some (evaluateStatus_mono (missedHeartbeats_mono h) policy)

/-! ## The policy -/

/-- A policy is due by what it says of itself and of the nodes, and by the heartbeats that the primary has missed. -/
def PolicySnapshot.Admits (policy : PolicySnapshot) : Prop :=
  policy.scopeType = "site" ∧ (policy.triggerMode = "semi_auto" ∨ policy.triggerMode = "auto") ∧
    (policyBool policy.precheckPolicy "require_standby_online" true = true → policy.standbyStatus = "online") ∧
    (policyBool policy.precheckPolicy "require_config_prewarm" false = true →
      policy.standbyActiveConfigVersion.isSome = true ∧
        policy.standbyActiveConfigVersion = policy.primaryActiveConfigVersion)

/-- The heartbeats that the primary has missed. -/
def PolicySnapshot.primaryMissed (policy : PolicySnapshot) (now : DateTime) (seconds : Nat) : Nat :=
  match policy.primaryLastSeenAt with
  | some lastSeenAt => missedHeartbeats now lastSeenAt seconds
  | none => 4294967295

theorem evaluatePolicy_iff (policy : PolicySnapshot) (now : DateTime) (seconds : Nat) :
    (evaluatePolicy policy now seconds).isSome = true ↔
      policy.Admits ∧ (policy.primaryStatus = "offline" ∨
        max policy.failureThreshold 1 ≤ policy.primaryMissed now seconds) := by
  unfold evaluatePolicy PolicySnapshot.Admits
  split
  · rename_i hscope
    simp [hscope]
  rename_i hscope
  split
  · rename_i htrigger
    simp [htrigger]
  rename_i htrigger
  split
  · rename_i hstandby
    simp [hstandby]
  rename_i hstandby
  split
  · rename_i hwarm
    simp only [Option.isSome_none, Bool.false_eq_true, false_iff]
    rintro ⟨⟨-, -, -, h⟩, -⟩
    exact hwarm.2 (h hwarm.1)
  rename_i hwarm
  -- what is left is the degradation of the primary
  have htriggered : policy.triggerMode = "semi_auto" ∨ policy.triggerMode = "auto" := by
    by_contra hne
    exact htrigger (not_or.1 hne)
  have honline : policyBool policy.precheckPolicy "require_standby_online" true = true →
    policy.standbyStatus = "online" := by
    intro h
    by_contra hne
    exact hstandby ⟨h, hne⟩
  have hwarmed : policyBool policy.precheckPolicy "require_config_prewarm" false = true →
      policy.standbyActiveConfigVersion.isSome = true ∧
        policy.standbyActiveConfigVersion = policy.primaryActiveConfigVersion := by
    intro h
    by_contra hne
    exact hwarm ⟨h, hne⟩
  change (if policy.primaryStatus = "offline" ∨
    max policy.failureThreshold 1 ≤ policy.primaryMissed now seconds then some _ else none).isSome = true ↔ _
  split
  · rename_i h
    exact ⟨fun _ => ⟨⟨not_not.1 hscope, htriggered, honline, hwarmed⟩, h⟩, fun _ => rfl⟩
  · rename_i h
    exact ⟨fun hnone => by (cases hnone), fun hdue => absurd hdue.2 h⟩

theorem primaryMissed_mono {now now' : DateTime} (h : now ≤ now') (policy : PolicySnapshot) (seconds : Nat) :
    policy.primaryMissed now seconds ≤ policy.primaryMissed now' seconds := by
  unfold PolicySnapshot.primaryMissed
  cases policy.primaryLastSeenAt with
  | none => exact Nat.le_refl _
  | some lastSeenAt => exact missedHeartbeats_mono h

/-- A policy that is due stays due. -/
theorem evaluatePolicy_mono {now now' : DateTime} (h : now ≤ now') {policy : PolicySnapshot} {seconds : Nat}
    (hdue : (evaluatePolicy policy now seconds).isSome = true) :
      (evaluatePolicy policy now' seconds).isSome = true := by
  rw [evaluatePolicy_iff] at hdue ⊢
  refine ⟨hdue.1, hdue.2.imp_right fun hle => ?_⟩
  exact Nat.le_trans hle (primaryMissed_mono h policy seconds)

/-! ## Both workers -/

/-- Counting missed heartbeats never panics, nothing is missed before it is due, and as time goes on a node is judged no
better and a policy stays due. -/
theorem heartbeats_safe_and_monotone (now now' lastSeenAt : Instant) (h : now.time ≤ now'.time) (seconds : UInt64) :
    missedHeartbeatsI now.time lastSeenAt.time seconds.toNat =
        some (missedHeartbeats now.time lastSeenAt.time seconds.toNat : Int) ∧
      (now.time ≤ lastSeenAt.time → missedHeartbeats now.time lastSeenAt.time seconds.toNat = 0) ∧
      (∀ (snapshot : NodeSnapshot) (policy : HeartbeatPolicy),
        Option.Rel NodeStatus.AtMost (desiredStatusForSnapshot snapshot now.time seconds.toNat policy)
          (desiredStatusForSnapshot snapshot now'.time seconds.toNat policy)) ∧
      ∀ policy : PolicySnapshot, (evaluatePolicy policy now.time seconds.toNat).isSome = true →
        (evaluatePolicy policy now'.time seconds.toNat).isSome = true := by
  refine ⟨missedHeartbeatsI_eq now lastSeenAt seconds, missedHeartbeats_eq_zero, fun snapshot policy => ?_,
    fun policy => ?_⟩
  · exact desiredStatusForSnapshot_mono h snapshot seconds.toNat policy
  · exact evaluatePolicy_mono h

/-- A time in 2026, and one a minute later. -/
def noon : Instant := ⟨DateTime.seconds 1777377600, by decide, by decide⟩

def minuteLater : Instant := ⟨DateTime.seconds 1777377660, by decide, by decide⟩

/-- At an interval of zero seconds, which counts as one. -/
theorem heartbeats_safe_and_monotone_minute :
    missedHeartbeatsI minuteLater.time noon.time 0 = some 60 ∧
      Option.Rel NodeStatus.AtMost (desiredStatusForSnapshot ⟨1, "edge-1", "online", some noon.time⟩ noon.time 0 ⟨4, 2⟩)
        (desiredStatusForSnapshot ⟨1, "edge-1", "online", some noon.time⟩ minuteLater.time 0 ⟨4, 2⟩) :=
  ⟨by decide, (heartbeats_safe_and_monotone noon minuteLater noon (by decide) 0).2.2.1 _ _⟩

end PingoraMesh
