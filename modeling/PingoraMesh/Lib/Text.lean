import Mathlib

/-!
# Text

The operations of Rust's `str` that the program uses, on the characters of a string, and decimal numerals with
zero-padding (`pad_inj`: a padded numeral determines its number).
-/

namespace Text

/-! ## Characters and strings -/

/-- `char::is_whitespace`: the Unicode property `White_Space`. -/
def isWhitespace (c : Char) : Bool :=
  let n := c.toNat
  (9 ≤ n && n ≤ 13) || n == 32 || n == 0x85 || n == 0xA0 || n == 0x1680 || (0x2000 ≤ n && n ≤ 0x200A) ||
    n == 0x2028 || n == 0x2029 || n == 0x202F || n == 0x205F || n == 0x3000

/-- Drop the characters that satisfy `p` from both ends. -/
def stripBoth (p : Char → Bool) (cs : List Char) : List Char := ((cs.dropWhile p).reverse.dropWhile p).reverse

/-- `str::trim`. -/
def trim (s : String) : String := .ofList (stripBoth isWhitespace s.toList)

/-- `str::trim_matches` of a character. -/
def trimMatches (c : Char) (s : String) : String := .ofList (stripBoth (· == c) s.toList)

/-- `str::trim_end_matches` of a character. -/
def trimEndMatches (c : Char) (s : String) : String := .ofList (s.toList.reverse.dropWhile (· == c)).reverse

/-- `str::trim_start_matches` of a character. -/
def trimStartMatches (c : Char) (s : String) : String := .ofList (s.toList.dropWhile (· == c))

/-- `char::to_ascii_lowercase`. -/
def lowerChar (c : Char) : Char := if 'A' ≤ c ∧ c ≤ 'Z' then Char.ofNat (c.toNat + 32) else c

/-- `char::to_ascii_uppercase`. -/
def upperChar (c : Char) : Char := if 'a' ≤ c ∧ c ≤ 'z' then Char.ofNat (c.toNat - 32) else c

/-- `str::to_ascii_lowercase`. -/
def toAsciiLowercase (s : String) : String := .ofList (s.toList.map lowerChar)

/-- `str::to_ascii_uppercase`. -/
def toAsciiUppercase (s : String) : String := .ofList (s.toList.map upperChar)

/-- `str::is_empty`. -/
def isEmpty (s : String) : Bool := s.toList.isEmpty

/-- `str::starts_with`. -/
def startsWith (s pre : String) : Bool := pre.toList.isPrefixOf s.toList

/-- `str::ends_with`. -/
def endsWith (s suf : String) : Bool := suf.toList.isSuffixOf s.toList

/-- `str::strip_prefix`. -/
def stripStart (s pre : String) : Option String :=
  if startsWith s pre then some (.ofList (s.toList.drop pre.toList.length)) else none

/-- `str::contains` of a string. -/
def contains (s sub : String) : Bool := s.toList.tails.any fun t => sub.toList.isPrefixOf t

/-- `str::contains` of a character. -/
def containsChar (s : String) (c : Char) : Bool := s.toList.contains c

/-- The pieces of a list between the occurrences of `c`. -/
def splitChars (c : Char) : List Char → List (List Char)
  | [] => [[]]
  | x :: xs =>
    if x = c then [] :: splitChars c xs
    else match splitChars c xs with
      | [] => [[x]]
      | w :: ws => (x :: w) :: ws

/-- `str::split` at a character. -/
def split (s : String) (c : Char) : List String := (splitChars c s.toList).map .ofList

/-- The characters between white space, the word being read first. -/
def wordsLoop : List Char → List Char → List (List Char)
  | word, [] => if word.isEmpty then [] else [word.reverse]
  | word, c :: cs =>
    if isWhitespace c then if word.isEmpty then wordsLoop [] cs else word.reverse :: wordsLoop [] cs
    else wordsLoop (c :: word) cs

/-- `str::split_whitespace`. -/
def splitWhitespace (s : String) : List String := (wordsLoop [] s.toList).map .ofList

/-- `[String]::join`. -/
def join (sep : String) : List String → String
  | [] => ""
  | [s] => s
  | s :: t :: ts => s ++ sep ++ join sep (t :: ts)

/-- Replace the occurrences of `pat` from left to right; `skip` characters are still part of the last one. -/
def replaceChars (pat rep : List Char) : Nat → List Char → List Char
  | _, [] => []
  | skip + 1, _ :: cs => replaceChars pat rep skip cs
  | 0, c :: cs =>
    if pat.isPrefixOf (c :: cs) then rep ++ replaceChars pat rep (pat.length - 1) cs
    else c :: replaceChars pat rep 0 cs

/-- `str::replace`, for a pattern that is not empty. -/
def replace (s pat rep : String) : String := .ofList (replaceChars pat.toList rep.toList 0 s.toList)

/-- The digits of an unsigned integer type with values below `bound`: `str::parse`. -/
def parseUnsigned (bound : Nat) (s : String) : Option Nat :=
  let ds := match s.toList with
    | '+' :: ds => ds
    | ds => ds
  let n := ds.foldl (fun n c => 10 * n + (c.toNat - '0'.toNat)) 0
  if !ds.isEmpty && ds.all Char.isDigit && n < bound then some n else none

/-- Printable ASCII is not white space. -/
theorem isWhitespace_eq_false {c : Char} (h₁ : 33 ≤ c.toNat) (h₂ : c.toNat ≤ 126) : isWhitespace c = false := by
  simp only [isWhitespace, Bool.or_eq_false_iff, Bool.and_eq_false_iff, decide_eq_false_iff_not, beq_eq_false_iff_ne]
  omega

theorem toNat_lowerChar {c : Char} (h : 'A' ≤ c ∧ c ≤ 'Z') : (lowerChar c).toNat = c.toNat + 32 := by
  have h₂ : c.toNat ≤ 90 := UInt32.le_iff_toNat_le.1 h.2
  rw [lowerChar, if_pos h, Char.ofNat, dif_pos (Or.inl (by omega))]
  rfl

/-- A character in lower case is no capital letter. -/
theorem lowerChar_not_upper (c : Char) : ¬ ('A' ≤ lowerChar c ∧ lowerChar c ≤ 'Z') := by
  by_cases h : 'A' ≤ c ∧ c ≤ 'Z'
  · intro hup
    have h₁ : 65 ≤ c.toNat := UInt32.le_iff_toNat_le.1 h.1
    have h₂ : (lowerChar c).toNat ≤ 90 := UInt32.le_iff_toNat_le.1 hup.2
    rw [toNat_lowerChar h] at h₂
    omega
  · rw [lowerChar, if_neg h]
    exact h

theorem lowerChar_of_not_upper {c : Char} (h : ¬ ('A' ≤ c ∧ c ≤ 'Z')) : lowerChar c = c := if_neg h

/-- The string has a character that is not white space. -/
def Visible (s : String) : Prop := ∃ c ∈ s.toList, isWhitespace c = false

theorem mem_dropWhile {p : Char → Bool} {cs : List Char} {c : Char} (hc : c ∈ cs) (hp : p c = false) :
    c ∈ cs.dropWhile p := by
  induction cs with
  | nil => cases hc
  | cons d ds ih =>
    rw [List.dropWhile_cons]
    split
    · rename_i hd
      rcases List.mem_cons.1 hc with rfl | hc
      · rw [hp] at hd
        cases hd
      · exact ih hc
    · exact hc

/-- What is left of such a string is not empty. -/
theorem Visible.isEmpty_trim {s : String} (h : Visible s) : isEmpty (trim s) = false := by
  obtain ⟨c, hc, hw⟩ := h
  have hmem : c ∈ stripBoth isWhitespace s.toList :=
    List.mem_reverse.2 (mem_dropWhile (List.mem_reverse.2 (mem_dropWhile hc hw)) hw)
  rw [isEmpty, trim, String.toList_ofList, List.isEmpty_eq_false_iff]
  exact List.ne_nil_of_mem hmem

/-- What is left of a string and is not empty is such a string. -/
theorem visible_trim {s : String} (h : isEmpty (trim s) = false) : Visible (trim s) := by
  rw [isEmpty, trim, String.toList_ofList, List.isEmpty_eq_false_iff, stripBoth, ne_eq, List.reverse_eq_nil_iff] at h
  refine ⟨_, ?_, List.head_dropWhile_not isWhitespace h⟩
  rw [trim, String.toList_ofList, stripBoth, List.mem_reverse]
  exact List.head_mem h

theorem Visible.append {s : String} (h : Visible s) (t : String) : Visible (s ++ t) := by
  obtain ⟨c, hc, hw⟩ := h
  exact ⟨c, by rw [String.toList_append]; exact List.mem_append_left _ hc, hw⟩

theorem mem_of_mem_stripBoth {p : Char → Bool} {cs : List Char} {c : Char} (h : c ∈ stripBoth p cs) : c ∈ cs := by
  have h := List.mem_reverse.1 ((List.dropWhile_sublist p).mem (List.mem_reverse.1 h))
  exact (List.dropWhile_sublist p).mem h

theorem dropWhile_eq_self {p : Char → Bool} {cs : List Char} (h : ∀ c ∈ cs, p c = false) : cs.dropWhile p = cs := by
  cases cs with
  | nil => rfl
  | cons c cs => rw [List.dropWhile_cons, h c List.mem_cons_self, if_neg Bool.false_ne_true]

/-- Without white space there is nothing to trim. -/
theorem trim_eq_self {s : String} (h : ∀ c ∈ s.toList, isWhitespace c = false) : trim s = s := by
  have hrev : ∀ c ∈ s.toList.reverse, isWhitespace c = false := fun c hc => h c (List.mem_reverse.1 hc)
  rw [trim, stripBoth, dropWhile_eq_self h, dropWhile_eq_self hrev, List.reverse_reverse, String.ofList_toList]

theorem stripStart_append (pre s : String) : stripStart (pre ++ s) pre = some s := by
  have hstart : startsWith (pre ++ s) pre = true := by
    rw [startsWith, String.toList_append]
    exact List.isPrefixOf_iff_prefix.2 (List.prefix_append _ _)
  rw [stripStart, if_pos hstart, String.toList_append, List.drop_left, String.ofList_toList]

theorem trimEndMatches_eq_self {c : Char} {s : String} (h : s.toList.getLast? ≠ some c) : trimEndMatches c s = s := by
  rw [trimEndMatches]
  cases hr : s.toList.reverse with
  | nil =>
    rw [List.reverse_eq_nil_iff] at hr
    rw [List.dropWhile_nil, List.reverse_nil, ← hr, String.ofList_toList]
  | cons x xs =>
    have hx : x ≠ c := by
      rintro rfl
      rw [List.getLast?_eq_head?_reverse, hr] at h
      exact h rfl
    rw [List.dropWhile_cons, if_neg (by simpa using hx), ← hr, List.reverse_reverse, String.ofList_toList]

/-! ## Numerals -/

/-- The decimal numeral of `n`, most significant digit first. -/
def decimal (n : Nat) : List Char := Nat.toDigits 10 n

/-- A numeral padded with zeros on the left to width `w`. -/
def pad (w n : Nat) : List Char := List.replicate (w - (decimal n).length) '0' ++ decimal n

/-- A numeral determines its number. -/
theorem decimal_inj {m n : Nat} (h : decimal m = decimal n) : m = n := by
  have hv : ∀ k, Nat.ofDigitChars 10 (decimal k) 0 = k := fun k => by simp [decimal]
  rw [← hv m, h, hv n]

theorem isDigit_of_mem_decimal {n : Nat} {c : Char} (h : c ∈ decimal n) : c.isDigit :=
  Nat.isDigit_of_mem_toDigits (by decide) (by decide) h

/-- A padded numeral determines its number. -/
theorem pad_inj {w m n : Nat} (h : pad w m = pad w n) : m = n := by
  have hv : ∀ k, Nat.ofDigitChars 10 (pad w k) 0 = k := fun k => by
    simp [pad, decimal, Nat.ofDigitChars_append]
  rw [← hv m, h, hv n]

theorem isDigit_of_mem_pad {w n : Nat} {c : Char} (h : c ∈ pad w n) : c.isDigit := by
  rcases List.mem_append.1 h with h | h
  · rw [List.eq_of_mem_replicate h]; decide
  · exact isDigit_of_mem_decimal h

/-- Numbers that fit are padded to the width exactly. -/
theorem length_pad {w n : Nat} (hw : 0 < w) (h : n < 10 ^ w) : (pad w n).length = w := by
  have := (Nat.length_toDigits_le_iff (b := 10) (by decide) hw).2 h
  simp only [pad, decimal, List.length_append, List.length_replicate]
  omega

/-- A list splits in one way only at the last occurrence of a character. -/
theorem append_sep_inj {c : Char} {a b a' b' : List Char} (h : a ++ c :: b = a' ++ c :: b') (hb : c ∉ b)
    (hb' : c ∉ b') : a = a' ∧ b = b' := by
  rcases List.append_eq_append_iff.1 h with ⟨as, rfl, e⟩ | ⟨as, rfl, e⟩
  · cases as with
    | nil => simpa using e
    | cons x as => cases e; simp at hb
  · cases as with
    | nil => simpa using e.symm
    | cons x as => cases e; simp at hb'

end Text
