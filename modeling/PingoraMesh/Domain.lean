import Mathlib

/-!
# The domain types

The types of `crates/domain`, the JSON values of `serde_json`, and the stand-ins for the identifier, time and map types
of the standard library and of `uuid` and `chrono`.
-/

namespace PingoraMesh

/-- A UUID. The program only compares, orders and generates them, so a natural number serves. -/
abbrev Uuid := Nat

namespace Uuid

/-- The 32 hexadecimal digits of a UUID: `Uuid::simple`. -/
def hexDigits (u : Uuid) : List Char :=
  let ds := Nat.toDigits 16 u
  List.replicate (32 - ds.length) '0' ++ ds

/-- `Uuid::simple` as text. -/
def simple (u : Uuid) : String := .ofList (hexDigits u)

/-- A UUID as text: 8, 4, 4, 4 and 12 digits between hyphens. -/
def hyphenated (u : Uuid) : String :=
  let ds := hexDigits u
  .ofList (ds.take 8 ++ '-' :: (ds.drop 8).take 4 ++ '-' :: (ds.drop 12).take 4 ++ '-' :: (ds.drop 16).take 4 ++
    '-' :: ds.drop 20)

/-- A hexadecimal digit. -/
def isHexDigit (c : Char) : Bool := c.isDigit || ('a' ≤ c && c ≤ 'f') || ('A' ≤ c && c ≤ 'F')

/-- The value of a hexadecimal digit. -/
def hexValue (c : Char) : Nat :=
  if c.isDigit then c.toNat - '0'.toNat else if 'a' ≤ c then c.toNat - 'a'.toNat + 10 else c.toNat - 'A'.toNat + 10

/-- 32 hexadecimal digits. -/
def parseSimple (cs : List Char) : Option Uuid :=
  if cs.length = 32 ∧ cs.all isHexDigit then some (cs.foldl (fun n c => 16 * n + hexValue c) 0) else none

/-- 32 digits with hyphens between the groups of 8, 4, 4, 4 and 12. -/
def parseHyphenated (cs : List Char) : Option Uuid :=
  if cs.length = 36 ∧ [8, 13, 18, 23].all fun i => cs[i]? == some '-' then
    parseSimple (cs.take 8 ++ (cs.drop 9).take 4 ++ (cs.drop 14).take 4 ++ (cs.drop 19).take 4 ++ cs.drop 24)
  else none

/-- `Uuid::parse_str`: digits alone, with hyphens, in braces, or as a URN. -/
def parseStr (s : String) : Option Uuid :=
  let cs := s.toList
  if cs.length = 32 then parseSimple cs
  else if cs.length = 38 ∧ cs.head? = some (Char.ofNat 123) ∧ cs.getLast? = some (Char.ofNat 125) then
    parseHyphenated (cs.tail.dropLast)
  else if "urn:uuid:".toList.isPrefixOf cs then parseHyphenated (cs.drop 9)
  else parseHyphenated cs

/-- The digits determine the number. -/
theorem foldl_toDigits (u : Nat) : (Nat.toDigits 16 u).foldl (fun n c => 16 * n + hexValue c) 0 = u := by
  induction u using Nat.strongRecOn with
  | ind u ih =>
    have hdigit : ∀ d < 16, hexValue d.digitChar = d := by decide
    rw [Nat.toDigits_eq_if (by decide)]
    split
    · simpa using hdigit u (by assumption)
    · rw [List.foldl_append, ih _ (by omega)]
      simp only [List.foldl_cons, List.foldl_nil, hdigit _ (Nat.mod_lt u (by decide : 0 < 16))]
      omega

theorem simple_value (u : Uuid) : (hexDigits u).foldl (fun n c => 16 * n + hexValue c) 0 = u := by
  have hzero : ∀ n, (List.replicate n '0').foldl (fun n c => 16 * n + hexValue c) 0 = 0 := by
    intro n
    induction n with
    | zero => rfl
    | succ n ih => exact ih
  rw [hexDigits, List.foldl_append, hzero, foldl_toDigits]

theorem mem_hexDigits {u : Uuid} {c : Char} (h : c ∈ hexDigits u) : ∃ d < 16, c = d.digitChar := by
  have hdigits : ∀ u, ∀ c ∈ Nat.toDigits 16 u, ∃ d < 16, c = d.digitChar := by
    intro u
    induction u using Nat.strongRecOn with
    | ind u ih =>
      intro c hc
      rw [Nat.toDigits_eq_if (by decide)] at hc
      split at hc
      · exact ⟨u, by assumption, List.mem_singleton.1 hc⟩
      · rcases List.mem_append.1 hc with hc | hc
        · exact ih _ (by omega) c hc
        · exact ⟨_, Nat.mod_lt u (by decide), List.mem_singleton.1 hc⟩
  rcases List.mem_append.1 h with h | h
  · exact ⟨0, by decide, List.eq_of_mem_replicate h⟩
  · exact hdigits u c h

theorem hyphen_notMem_hexDigits (u : Uuid) : '-' ∉ hexDigits u := by
  intro h
  obtain ⟨d, hd, e⟩ := mem_hexDigits h
  have hdigit : ∀ d < 16, '-' ≠ d.digitChar := by decide
  exact hdigit d hd e

/-- The text without its hyphens. -/
theorem filter_hyphenated (u : Uuid) : (hyphenated u).toList.filter (· != '-') = hexDigits u := by
  have hall : ∀ ds : List Char, (∀ c ∈ ds, c ∈ hexDigits u) → ds.filter (· != '-') = ds := by
    intro ds hds
    refine List.filter_eq_self.2 fun c hc => bne_iff_ne.2 fun e => ?_
    rw [e] at hc
    exact hyphen_notMem_hexDigits u (hds _ hc)
  have hpart : ∀ m n, (((hexDigits u).drop m).take n).filter (· != '-') = ((hexDigits u).drop m).take n := fun m n =>
    hall _ fun c hc => List.mem_of_mem_drop (List.mem_of_mem_take hc)
  have hrest : ((hexDigits u).drop 20).filter (· != '-') = (hexDigits u).drop 20 := hall _ fun c => List.mem_of_mem_drop
  have hjoin : ∀ m n, ((hexDigits u).drop m).take n ++ (hexDigits u).drop (m + n) = (hexDigits u).drop m := by
    intro m n
    rw [← List.drop_drop, List.take_append_drop]
  have hfirst : ((hexDigits u).take 8).filter (· != '-') = (hexDigits u).take 8 := hpart 0 8
  have hsep : ∀ ds : List Char, ('-' :: ds).filter (· != '-') = ds.filter (· != '-') := fun ds => rfl
  simp only [hyphenated, String.toList_ofList, List.append_assoc, List.filter_append, List.cons_append, hsep, hpart,
    hrest, hfirst]
  rw [hjoin 16 4, hjoin 12 4, hjoin 8 4, List.take_append_drop]

/-- Different identifiers have different texts. -/
theorem hyphenated_inj {u v : Uuid} (h : hyphenated u = hyphenated v) : u = v := by
  rw [← simple_value u, ← filter_hyphenated u, h, filter_hyphenated v, simple_value v]

/-! ### Reading a text -/

theorem drop_of_getElem? {cs : List Char} {n : Nat} {c : Char} (h : cs[n]? = some c) : cs.drop n = c ::
    cs.drop (n + 1) := by
  obtain ⟨hn, rfl⟩ := List.getElem?_eq_some_iff.1 h
  exact List.drop_eq_getElem_cons hn

theorem value_of_parseSimple {cs : List Char} {u : Uuid} (h : parseSimple cs = some u) :
    u = (cs.filter (· != '-')).foldl (fun n c => 16 * n + hexValue c) 0 := by
  unfold parseSimple at h
  split at h
  · rename_i hcs
    rw [List.filter_eq_self.2 fun c hc => ?_]
    · exact (Option.some.inj h).symm
    · have hex := List.all_eq_true.1 hcs.2 c hc
      rw [bne_iff_ne]
      rintro rfl
      exact absurd hex (by decide)
  · cases h

theorem value_of_parseHyphenated {cs : List Char} {u : Uuid} (h : parseHyphenated cs = some u) :
    u = (cs.filter (· != '-')).foldl (fun n c => 16 * n + hexValue c) 0 := by
  unfold parseHyphenated at h
  split at h
  · rename_i hcs
    have hat : ∀ i ∈ [8, 13, 18, 23], cs[i]? = some '-' := fun i hi => by
      simpa using List.all_eq_true.1 hcs.2 i hi
    have hsplit : cs = cs.take 8 ++ '-' :: (cs.drop 9).take 4 ++ '-' :: (cs.drop 14).take 4 ++
        '-' :: (cs.drop 19).take 4 ++ '-' :: cs.drop 24 := by
      have hjoin : ∀ n, (cs.drop n).take 4 ++ cs.drop (n + 4) = cs.drop n := fun n => by
        rw [← List.drop_drop, List.take_append_drop]
      have e₁ := drop_of_getElem? (hat 8 (by simp))
      have e₂ := drop_of_getElem? (hat 13 (by simp))
      have e₃ := drop_of_getElem? (hat 18 (by simp))
      have e₄ := drop_of_getElem? (hat 23 (by simp))
      simp only [List.append_assoc, List.cons_append]
      rw [← e₄, hjoin 19, ← e₃, hjoin 14, ← e₂, hjoin 9, ← e₁, List.take_append_drop]
    have hvalue := value_of_parseSimple h
    have hsep : ∀ ds : List Char, ('-' :: ds).filter (· != '-') = ds.filter (· != '-') := fun ds => rfl
    rw [hsplit]
    simp only [List.filter_append, hsep, List.append_assoc, List.cons_append] at hvalue ⊢
    exact hvalue
  · cases h

/-- A text of an identifier is read as no other one. -/
theorem eq_of_parseStr_hyphenated {u v : Uuid} (h : parseStr (hyphenated u) = some v) : v = u := by
  have hvalue : v = ((hyphenated u).toList.filter (· != '-')).foldl (fun n c => 16 * n + hexValue c) 0 → v = u := by
    rw [filter_hyphenated, simple_value]
    exact id
  have hhead : ∃ d < 16, ∃ cs, (hyphenated u).toList = d.digitChar :: cs := by
    have hlen : 32 ≤ (hexDigits u).length := by
      simp only [hexDigits, List.length_append, List.length_replicate]
      omega
    obtain ⟨c, cs, hds⟩ := List.exists_cons_of_length_pos (Nat.lt_of_lt_of_le (by decide) hlen)
    obtain ⟨d, hd, rfl⟩ := mem_hexDigits (u := u) (c := c) (by rw [hds]; exact List.mem_cons_self)
    exact ⟨d, hd, _, by rw [hyphenated, String.toList_ofList, hds]; rfl⟩
  obtain ⟨d, hd, cs, hcs⟩ := hhead
  unfold parseStr at h
  dsimp only at h
  split at h
  · exact hvalue (value_of_parseSimple h)
  · split at h
    · rename_i hbrace
      have hne : ∀ d < 16, d.digitChar ≠ Char.ofNat 123 := by decide
      rw [hcs] at hbrace
      exact absurd (Option.some.inj hbrace.2.1) (hne d hd)
    · split at h
      · rename_i hurn
        have hne : ∀ d < 16, 'u' ≠ d.digitChar := by decide
        rw [hcs] at hurn
        obtain ⟨e, -⟩ := List.cons_prefix_cons.1 (List.isPrefixOf_iff_prefix.1 hurn)
        exact absurd e (hne d hd)
      · exact hvalue (value_of_parseHyphenated h)

end Uuid

/-- `DateTime<Utc>`: nanoseconds since 1970-01-01T00:00:00Z. -/
abbrev DateTime := Int

/-- A `HashMap`: a finite map. Iteration is in the order of the keys, one of the orders a `HashMap` may iterate in. -/
abbrev HashMap (K V : Type) [Ord K] := Std.ExtTreeMap K V compare

namespace DateTime

def nanosPerSecond : Int := 1000000000

/-- `DateTime::timestamp`. -/
def timestamp (t : DateTime) : Int := Int.fdiv t nanosPerSecond

/-- `DateTime::timestamp_millis`. -/
def timestampMillis (t : DateTime) : Int := Int.fdiv t 1000000

/-- `Duration::seconds`. -/
def seconds (n : Int) : Int := n * nanosPerSecond

/-- `Duration::hours`. -/
def hours (n : Int) : Int := seconds (n * 3600)

/-- `Duration::days`. -/
def days (n : Int) : Int := hours (n * 24)

end DateTime

/-! ## Iterators -/

/-- `Iterator::min_by_key`: the first of the least. -/
def minByKey {α : Type} (key : α → Int) : List α → Option α
  | [] => none
  | a :: as =>
    match minByKey key as with
    | none => some a
    | some b => if key b < key a then some b else some a

theorem mem_of_minByKey {α : Type} {key : α → Int} {as : List α} {a : α} (h : minByKey key as = some a) : a ∈ as := by
  induction as generalizing a with
  | nil => cases h
  | cons b bs ih =>
    unfold minByKey at h
    cases hm : minByKey key bs with
    | none =>
      rw [hm] at h
      cases h
      exact List.mem_cons_self
    | some c =>
      rw [hm] at h
      dsimp only at h
      split at h
      · cases h
        exact List.mem_cons_of_mem _ (ih hm)
      · cases h
        exact List.mem_cons_self

theorem minByKey_le {α : Type} {key : α → Int} {as : List α} {a : α} (h : minByKey key as = some a) :
    ∀ b ∈ as, key a ≤ key b := by
  induction as generalizing a with
  | nil => exact nofun
  | cons x xs ih =>
    unfold minByKey at h
    cases hm : minByKey key xs with
    | none =>
      rw [hm] at h
      cases h
      cases xs with
      | nil => simp
      | cons y ys =>
        unfold minByKey at hm
        split at hm
        · cases hm
        · split at hm <;> cases hm
    | some c =>
      rw [hm] at h
      dsimp only at h
      split at h
      · rename_i hlt
        cases h
        exact List.forall_mem_cons.2 ⟨hlt.le, ih hm⟩
      · rename_i hge
        cases h
        exact List.forall_mem_cons.2 ⟨le_rfl, fun b hb => (not_lt.1 hge).trans (ih hm b hb)⟩

/-- `Iterator::min_by`: the first of the least. -/
def minBy {α : Type} (cmp : α → α → Ordering) : List α → Option α
  | [] => none
  | a :: as =>
    match minBy cmp as with
    | none => some a
    | some b => if cmp b a = .lt then some b else some a

theorem mem_of_minBy {α : Type} {cmp : α → α → Ordering} {as : List α} {a : α}
    (h : minBy cmp as = some a) : a ∈ as := by
  induction as generalizing a with
  | nil => cases h
  | cons b bs ih =>
    unfold minBy at h
    cases hm : minBy cmp bs with
    | none =>
      rw [hm] at h
      cases h
      exact List.mem_cons_self
    | some c =>
      rw [hm] at h
      dsimp only at h
      split at h
      · cases h
        exact List.mem_cons_of_mem _ (ih hm)
      · cases h
        exact List.mem_cons_self

/-- The first of the least is not after any other. -/
theorem minBy_ne_gt {α : Type} {cmp : α → α → Ordering} [Std.TransCmp cmp] {as : List α} {a : α}
    (h : minBy cmp as = some a) : ∀ b ∈ as, cmp a b ≠ .gt := by
  have hself : ∀ x, cmp x x ≠ .gt := by
    intro x
    have heq : cmp x x = .eq := Std.ReflCmp.compare_self
    rw [heq]
    decide
  induction as generalizing a with
  | nil => exact nofun
  | cons x xs ih =>
    unfold minBy at h
    cases hm : minBy cmp xs with
    | none =>
      rw [hm] at h
      cases h
      cases xs with
      | nil => exact List.forall_mem_cons.2 ⟨hself x, nofun⟩
      | cons y ys =>
        unfold minBy at hm
        split at hm
        · cases hm
        · split at hm <;> cases hm
    | some c =>
      rw [hm] at h
      dsimp only at h
      split at h
      · rename_i hlt
        cases h
        refine List.forall_mem_cons.2 ⟨?_, ih hm⟩
        rw [hlt]
        decide
      · rename_i hge
        cases h
        have hxc : (cmp x c).isLE := by
          have hswap : cmp x c = (cmp c x).swap := Std.OrientedCmp.eq_swap
          rw [hswap, Ordering.isLE_swap, Ordering.isGE_iff_ne_lt]
          exact hge
        refine List.forall_mem_cons.2 ⟨hself x, fun b hb => ?_⟩
        exact Ordering.isLE_iff_ne_gt.1 (Std.TransCmp.isLE_trans hxc (Ordering.isLE_iff_ne_gt.2 (ih hm b hb)))

theorem minByKey_isSome {α : Type} {key : α → Int} {as : List α} {a : α} (h : a ∈ as) : (minByKey key as).isSome := by
  cases as with
  | nil => cases h
  | cons b bs =>
    unfold minByKey
    cases minByKey key bs with
    | none => rfl
    | some c => dsimp only; split <;> rfl

theorem minBy_isSome {α : Type} {cmp : α → α → Ordering} {as : List α} {a : α} (h : a ∈ as) :
    (minBy cmp as).isSome := by
  cases as with
  | nil => cases h
  | cons b bs =>
    unfold minBy
    cases minBy cmp bs with
    | none => rfl
    | some c => dsimp only; split <;> rfl

/-- `Iterator::max_by`: the last of the greatest. -/
def maxBy {α : Type} (cmp : α → α → Ordering) : List α → Option α
  | [] => none
  | a :: as =>
    match maxBy cmp as with
    | none => some a
    | some b => if cmp a b = .gt then some a else some b

theorem mem_of_maxBy {α : Type} {cmp : α → α → Ordering} {as : List α} {a : α}
    (h : maxBy cmp as = some a) : a ∈ as := by
  induction as generalizing a with
  | nil => cases h
  | cons b bs ih =>
    unfold maxBy at h
    cases hm : maxBy cmp bs with
    | none =>
      rw [hm] at h
      cases h
      exact List.mem_cons_self
    | some c =>
      rw [hm] at h
      dsimp only at h
      split at h
      · cases h
        exact List.mem_cons_self
      · cases h
        exact List.mem_cons_of_mem _ (ih hm)

theorem maxBy_isSome {α : Type} {cmp : α → α → Ordering} {as : List α} {a : α} (h : a ∈ as) :
    (maxBy cmp as).isSome := by
  cases as with
  | nil => cases h
  | cons b bs =>
    unfold maxBy
    cases maxBy cmp bs with
    | none => rfl
    | some c => dsimp only; split <;> rfl

theorem maxBy_map {α β : Type} {cmp : α → α → Ordering} {cmp' : β → β → Ordering} {f : α → β}
    (hf : ∀ a b, cmp' (f a) (f b) = cmp a b) (xs : List α) : maxBy cmp' (xs.map f) = (maxBy cmp xs).map f := by
  induction xs with
  | nil => rfl
  | cons a xs ih =>
    rw [List.map_cons, maxBy, maxBy, ih]
    cases maxBy cmp xs with
    | none => rfl
    | some b =>
      simp only [Option.map_some, hf]
      split <;> rfl

section Key

variable {α : Type} {key : α → Nat} {as : List α} {a b : α}

/-- The last of the greatest is one of the greatest. -/
theorem key_le_of_maxBy (h : maxBy (fun l r => compare (key l) (key r)) as = some b) : ∀ a ∈ as, key a ≤ key b := by
  induction as generalizing b with
  | nil => cases h
  | cons c cs ih =>
    unfold maxBy at h
    cases hm : maxBy (fun l r => compare (key l) (key r)) cs with
    | none =>
      rw [hm] at h
      cases h
      intro a ha
      rcases List.mem_cons.1 ha with rfl | ha
      · exact Nat.le_refl _
      · have hsome : (maxBy (fun l r => compare (key l) (key r)) cs).isSome := maxBy_isSome ha
        rw [hm] at hsome
        cases hsome
    | some d =>
      have hd := ih hm
      rw [hm] at h
      dsimp only at h
      intro a ha
      split at h
      · rename_i hgt
        cases h
        rcases List.mem_cons.1 ha with rfl | ha
        · exact Nat.le_refl _
        · exact Nat.le_trans (hd a ha) (Nat.le_of_lt (compare_gt_iff_gt.1 hgt))
      · rename_i hgt
        cases h
        rcases List.mem_cons.1 ha with rfl | ha
        · exact Nat.le_of_not_lt fun hlt => hgt (compare_gt_iff_gt.2 hlt)
        · exact hd a ha

/-- The only greatest one is found. -/
theorem maxBy_eq_of_lt (hb : b ∈ as) (h : ∀ a ∈ as, a ≠ b → key a < key b) :
    maxBy (fun l r => compare (key l) (key r)) as = some b := by
  have hsome : (maxBy (fun l r => compare (key l) (key r)) as).isSome := maxBy_isSome hb
  obtain ⟨c, hc⟩ := Option.isSome_iff_exists.1 hsome
  have hle := key_le_of_maxBy hc b hb
  by_cases hne : c = b
  · rw [hc, hne]
  · exact absurd (h c (mem_of_maxBy hc) hne) (Nat.not_lt.2 hle)

/-- Another one is found only if it is greater than the last. -/
theorem key_lt_of_maxBy_concat (h : maxBy (fun l r => compare (key l) (key r)) (as ++ [a]) = some b) (hne : b ≠ a) :
    key a < key b := by
  induction as generalizing b with
  | nil =>
    cases h
    exact absurd rfl hne
  | cons c cs ih =>
    rw [List.cons_append, maxBy] at h
    cases hm : maxBy (fun l r => compare (key l) (key r)) (cs ++ [a]) with
    | none =>
      have hsome : (maxBy (fun l r => compare (key l) (key r)) (cs ++ [a])).isSome :=
        maxBy_isSome (List.mem_append_right cs (List.mem_singleton_self a))
      rw [hm] at hsome
      cases hsome
    | some d =>
      rw [hm] at h
      dsimp only at h
      split at h
      · rename_i hgt
        cases h
        have hd := key_le_of_maxBy hm a (List.mem_append_right cs (List.mem_singleton_self a))
        exact Nat.lt_of_le_of_lt hd (compare_gt_iff_gt.1 hgt)
      · cases h
        exact ih hm hne

end Key

/-! ## JSON -/

/-- `serde_json::Number`: a non-negative integer, a negative one, or a float kept as its text. -/
inductive Number where
  | posInt (n : Nat)
  | negInt (n : Int)
  | float (text : String)
  deriving DecidableEq, Repr

/-- `serde_json::Value`. -/
inductive Value where
  | null
  | bool (b : Bool)
  | number (n : Number)
  | string (s : String)
  | array (xs : List Value)
  | object (fields : List (String × Value))
  deriving Repr, Inhabited

namespace Value

/-- `Value::get`. -/
def get : Value → String → Option Value
  | .object fields, key => fields.lookup key
  | _, _ => none

/-- `Value::as_array`. -/
def asArray : Value → Option (List Value)
  | .array xs => some xs
  | _ => none

/-- `Value::as_object`. -/
def asObject : Value → Option (List (String × Value))
  | .object fields => some fields
  | _ => none

/-- `Value::as_str`. -/
def asStr : Value → Option String
  | .string s => some s
  | _ => none

/-- `Value::as_bool`. -/
def asBool : Value → Option Bool
  | .bool b => some b
  | _ => none

/-- `Value::as_u64`. -/
def asU64 : Value → Option Nat
  | .number (.posInt n) => some n
  | _ => none

/-- `Value::as_i64`. -/
def asI64 : Value → Option Int
  | .number (.posInt n) => if n < 2 ^ 63 then some n else none
  | .number (.negInt n) => some n
  | _ => none

/-- A JSON array of strings. -/
def strings (xs : List String) : Value := .array (xs.map .string)

/-- A JSON integer. -/
def ofInt : Int → Value
  | .ofNat n => .number (.posInt n)
  | .negSucc n => .number (.negInt (.negSucc n))

end Value

/-! ## Nodes -/

inductive NodeStatus where
  | pending
  | online
  | suspect
  | offline
  | maintenance
  deriving DecidableEq, Repr

structure NodeIdentity where
  id : Uuid
  nodeCode : String
  name : String
  region : String
  idc : String
  status : NodeStatus
  deriving DecidableEq, Repr

structure NodeRuntimeState where
  activeConfigVersion : Option String
  lastSeenAt : Option DateTime
  siteCount : Nat
  healthScore : Nat
  deriving DecidableEq, Repr

/-! ## Sites -/

inductive SiteStatus where
  | draft
  | published
  | disabled
  deriving DecidableEq, Repr

inductive Protocol where
  | http
  | https
  | tcp
  deriving DecidableEq, Repr

structure UpstreamEndpoint where
  address : String
  weight : Nat
  active : Bool
  backup : Bool
  deriving DecidableEq, Repr

inductive UpstreamBalanceMethod where
  | roundRobin
  | weightedRoundRobin
  | leastConnections
  | ipHash
  deriving DecidableEq, Repr

structure Upstream where
  name : String
  balanceMethod : UpstreamBalanceMethod
  endpoints : List UpstreamEndpoint
  deriving DecidableEq, Repr

inductive RouteMatchType where
  | pathPrefix
  | pathExact
  deriving DecidableEq, Repr

structure SiteRoute where
  name : String
  enabled : Bool
  matchType : RouteMatchType
  path : String
  upstream : String
  priority : Int
  stripPrefix : Bool
  deriving DecidableEq, Repr

structure CacheRule where
  name : String
  matchExtensions : List String
  expiresSeconds : Nat
  cacheControl : String
  deriving DecidableEq, Repr

structure SiteSpec where
  id : Uuid
  siteCode : String
  name : String
  domain : String
  listenPort : Nat
  protocol : Protocol
  tlsEnabled : Bool
  status : SiteStatus
  upstreams : List Upstream
  routes : List SiteRoute
  cacheRules : List CacheRule
  deriving DecidableEq, Repr

/-! ## Certificates and releases -/

structure CertificateRef where
  certificateId : Uuid
  version : Int
  commonName : String
  sans : List String
  expiresAt : Option DateTime
  certPem : String
  keyPemEncrypted : String
  chainPem : Option String
  deriving DecidableEq, Repr

structure ReleaseTarget where
  nodeId : Uuid
  siteIds : List Uuid
  preheated : Bool
  deriving DecidableEq, Repr

structure ReleaseManifest where
  releaseId : Uuid
  releaseVersion : String
  scope : String
  configHash : String
  createdAt : DateTime
  sites : List SiteSpec
  certificates : List CertificateRef
  targets : List ReleaseTarget
  deriving DecidableEq, Repr

/-- `CompiledConfigBundle` of `crates/config-compiler`. -/
structure CompiledConfigBundle where
  manifest : ReleaseManifest
  renderedConfig : Value
  certificates : List CertificateRef
  signature : String
  deriving Repr

/-! ## Names of the enumerations -/

/-- `node_status_name`. -/
def nodeStatusName : NodeStatus → String
  | .pending => "pending"
  | .online => "online"
  | .suspect => "suspect"
  | .offline => "offline"
  | .maintenance => "maintenance"

/-- `site_status_name`, also the `serde` name. -/
def siteStatusName : SiteStatus → String
  | .draft => "draft"
  | .published => "published"
  | .disabled => "disabled"

/-- `protocol_name`, also the `serde` name. -/
def protocolName : Protocol → String
  | .http => "http"
  | .https => "https"
  | .tcp => "tcp"

end PingoraMesh
