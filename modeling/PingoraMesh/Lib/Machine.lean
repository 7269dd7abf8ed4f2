import Mathlib

/-!
# Machine integers

An integer type is an interval (`IntType`), and its values are integers. An operation whose result is not in the
interval overflows and has no value; a cast takes a number into the interval, modulo its length.

* `checked_of_has`: an operation whose result fits has it as its value;
* `div_of_has`: a division of unsigned numbers has a value unless it is one by zero;
* `cast_of_has`: a cast leaves what fits as it is;
* `tdiv_mono`: division that rounds towards zero is monotone.
-/

namespace Machine

/-- An integer type: its least and its greatest value. -/
structure IntType where
  lo : Int
  hi : Int
  nonempty : lo ≤ hi

namespace IntType

def i32 : IntType := ⟨-2147483648, 2147483647, by decide⟩
def i64 : IntType := ⟨-9223372036854775808, 9223372036854775807, by decide⟩
def u32 : IntType := ⟨0, 4294967295, by decide⟩
def u64 : IntType := ⟨0, 18446744073709551615, by decide⟩

/-- The number is a value of the type. -/
def Has (t : IntType) (x : Int) : Prop := t.lo ≤ x ∧ x ≤ t.hi

instance (t : IntType) (x : Int) : Decidable (t.Has x) := inferInstanceAs (Decidable (_ ∧ _))

/-- The value of an operation with the result `x`: none if it overflows. -/
def checked (t : IntType) (x : Int) : Option Int := if t.Has x then some x else none

/-- Addition. -/
def add (t : IntType) (a b : Int) : Option Int := t.checked (a + b)

/-- Division, rounding towards zero: none by zero. -/
def div (t : IntType) (a b : Int) : Option Int := if b = 0 then none else t.checked (a.tdiv b)

/-- `as`, between integer types. -/
def cast (t : IntType) (x : Int) : Int := t.lo + (x - t.lo) % (t.hi - t.lo + 1)

variable {t : IntType} {a b x : Int}

theorem checked_of_has (h : t.Has x) : t.checked x = some x := if_pos h

theorem add_of_has (h : t.Has (a + b)) : t.add a b = some (a + b) := checked_of_has h

theorem add_eq_none_iff : t.add a b = none ↔ ¬ t.Has (a + b) := by
  unfold add checked
  split
  · rename_i h
    simp [h]
  · rename_i h
    simp [h]

/-- An unsigned quotient is no greater than the dividend. -/
theorem div_of_has (hlo : t.lo = 0) (ha : t.Has a) (hb : 0 < b) : t.div a b = some (a / b) := by
  obtain ⟨hnonneg, hle⟩ := ha
  rw [hlo] at hnonneg
  have hne : b ≠ 0 := by omega
  rw [div, if_neg hne, Int.tdiv_eq_ediv_of_nonneg hnonneg]
  refine checked_of_has ⟨?_, ?_⟩
  · rw [hlo]
    exact Int.ediv_nonneg hnonneg (Int.le_of_lt hb)
  · exact Int.le_trans (Int.ediv_le_self b hnonneg) hle

theorem cast_of_has (h : t.Has x) : t.cast x = x := by
  obtain ⟨hlo, hhi⟩ := h
  rw [cast, Int.emod_eq_of_lt (by omega) (by omega)]
  omega

end IntType

theorem tdiv_nonpos {a c : Int} (hc : 0 < c) (h : a ≤ 0) : a.tdiv c ≤ 0 := by
  have hneg : 0 ≤ (-a).tdiv c := Int.tdiv_nonneg (by omega) (Int.le_of_lt hc)
  rw [Int.neg_tdiv] at hneg
  omega

/-- Division that rounds towards zero is monotone. -/
theorem tdiv_mono {a b c : Int} (hc : 0 < c) (h : a ≤ b) : a.tdiv c ≤ b.tdiv c := by
  rcases Int.le_total 0 a with ha | ha
  · rw [Int.tdiv_eq_ediv_of_nonneg ha, Int.tdiv_eq_ediv_of_nonneg (Int.le_trans ha h)]
    exact Int.ediv_le_ediv hc h
  · rcases Int.le_total 0 b with hb | hb
    · exact Int.le_trans (tdiv_nonpos hc ha) (Int.tdiv_nonneg hb (Int.le_of_lt hc))
    · -- both are negative: the magnitudes are compared
      have hle : (-b).tdiv c ≤ (-a).tdiv c := by
        rw [Int.tdiv_eq_ediv_of_nonneg (by omega), Int.tdiv_eq_ediv_of_nonneg (by omega)]
        exact Int.ediv_le_ediv hc (by omega)
      rw [Int.neg_tdiv, Int.neg_tdiv] at hle
      omega

end Machine
