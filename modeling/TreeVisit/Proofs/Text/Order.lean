import Mathlib.Algebra.Group.Nat.Defs

/- Texts are ordered by code point, and that is the order of their UTF-8 bytes. The bytes of a character
   are the digits of its code point to the base of 64, the highest first and with the number of bytes
   marked in it, so a character that comes before another has bytes that come before those of the other,
   whatever follows. -/
namespace TreeVisit.Text

def bytes (s : String) : List UInt8 := s.toUTF8.data.toList

def Below (as bs : List UInt8) : Prop := ∀ rest rest', as ++ rest < bs ++ rest'

/-- The digits of a number, with a mark on the highest and one on each of the lower ones. -/
def digits (mark : Nat) : Nat → Nat → List UInt8
  | 0, v => [UInt8.ofNat (v + mark)]
  | lower + 1, v => digits mark lower (v / 64) ++ [UInt8.ofNat (v % 64 + 128)]

/-- How many lower digits a code point has, and the mark on the highest. -/
inductive Coded (v : Nat) : Nat → Nat → Prop
  | one (fits : v < 128) : Coded v 0 0
  | two (beyond : 128 ≤ v) (fits : v < 2048) : Coded v 192 1
  | three (beyond : 2048 ≤ v) (fits : v < 65536) : Coded v 224 2
  | four (beyond : 65536 ≤ v) (fits : v < 1114112) : Coded v 240 3

theorem toNat_lt (c : Char) : c.toNat < 1114112 := by
  rcases c.valid with low | ⟨_, high⟩
  · exact Nat.lt_trans low (by decide)
  · exact high

theorem exists_coded (c : Char) :
    ∃ mark lower, Coded c.toNat mark lower ∧ String.utf8EncodeChar c = digits mark lower c.toNat := by
  have bound := toNat_lt c
  have read : c.val.toNat = c.toNat := rfl
  simp only [String.utf8EncodeChar, read]
  generalize c.toNat = v at bound
  split
  next => exact ⟨0, 0, .one (by omega), rfl⟩
  next =>
    split
    next =>
      have first : v / 64 % 32 + 192 = v / 64 + 192 := by omega
      exact ⟨192, 1, .two (by omega) (by omega), by rw [first]; rfl⟩
    next =>
      split
      next =>
        have first : v / 4096 % 16 + 224 = v / 64 / 64 + 224 := by omega
        exact ⟨224, 2, .three (by omega) (by omega), by rw [first]; rfl⟩
      next =>
        have first : v / 262144 % 8 + 240 = v / 64 / 64 / 64 + 240 := by omega
        have second : v / 4096 % 64 + 128 = v / 64 / 64 % 64 + 128 := by omega
        exact ⟨240, 3, .four (by omega) bound, by rw [first, second]; rfl⟩

theorem below_of_first {a b : Nat} (less : a < b) (small : b < 256) (as bs : List UInt8) :
    Below (UInt8.ofNat a :: as) (UInt8.ofNat b :: bs) := by
  intro rest rest'
  apply List.cons_lt_cons_iff.mpr
  left
  rw [UInt8.lt_iff_toNat_lt, UInt8.toNat_ofNat_of_lt' small,
    UInt8.toNat_ofNat_of_lt' (Nat.lt_trans less small)]
  exact less

theorem digits_eq_cons (mark lower v : Nat) :
    ∃ rest, digits mark lower v = UInt8.ofNat (v / 64 ^ lower + mark) :: rest := by
  induction lower generalizing v with
  | zero => exact ⟨[], by rw [digits, Nat.pow_zero, Nat.div_one]⟩
  | succ lower ih =>
    obtain ⟨rest, first⟩ := ih (v / 64)
    rw [Nat.div_div_eq_div_mul, ← Nat.pow_succ'] at first
    exact ⟨rest ++ [UInt8.ofNat (v % 64 + 128)], by rw [digits, first, List.cons_append]⟩

theorem below_digits {mark lower v w : Nat} (less : v < w) (small : w / 64 ^ lower + mark < 256) :
    Below (digits mark lower v) (digits mark lower w) := by
  induction lower generalizing v w with
  | zero =>
    rw [Nat.pow_zero, Nat.div_one] at small
    exact below_of_first (by omega) small [] []
  | succ lower ih =>
    intro rest rest'
    rw [digits, digits, List.append_assoc, List.append_assoc]
    by_cases higher : v / 64 < w / 64
    · rw [Nat.pow_succ', ← Nat.div_div_eq_div_mul] at small
      exact ih higher small _ _
    · have same : v / 64 = w / 64 := by omega
      have last : v % 64 + 128 < w % 64 + 128 := by omega
      rw [same]
      exact List.append_left_lt (below_of_first last (by omega) [] [] rest rest')

theorem Coded.apart {v w mark lower mark' lower' : Nat} (coded : Coded v mark lower)
    (coded' : Coded w mark' lower') (less : v < w) :
    w / 64 ^ lower' + mark' < 256 ∧
      (mark = mark' ∧ lower = lower' ∨ v / 64 ^ lower + mark < w / 64 ^ lower' + mark') := by
  cases coded <;> cases coded' <;> omega

theorem below_utf8EncodeChar {c d : Char} (less : c < d) :
    Below (String.utf8EncodeChar c) (String.utf8EncodeChar d) := by
  have less : c.toNat < d.toNat := less
  obtain ⟨mark, lower, coded, here⟩ := exists_coded c
  obtain ⟨mark', lower', coded', there⟩ := exists_coded d
  rw [here, there]
  obtain ⟨small, ⟨rfl, rfl⟩ | first⟩ := coded.apart coded' less
  · exact below_digits less small
  · obtain ⟨rest, begins⟩ := digits_eq_cons mark lower c.toNat
    obtain ⟨rest', begins'⟩ := digits_eq_cons mark' lower' d.toNat
    rw [begins, begins']
    exact below_of_first first small rest rest'

theorem bytes_eq (s : String) : bytes s = s.toList.flatMap String.utf8EncodeChar := by
  have encoded : s.toUTF8 = (s.toList.flatMap String.utf8EncodeChar).toByteArray :=
    String.utf8Encode_toList.symm
  rw [bytes, encoded, List.data_toByteArray]

theorem encoded_lt {cs ds : List Char} (less : cs < ds) :
    cs.flatMap String.utf8EncodeChar < ds.flatMap String.utf8EncodeChar := by
  induction cs generalizing ds with
  | nil =>
    cases ds with
    | nil => nomatch less
    | cons d ds =>
      obtain ⟨mark, lower, _, coded⟩ := exists_coded d
      obtain ⟨rest, begins⟩ := digits_eq_cons mark lower d.toNat
      rw [List.flatMap_cons, coded, begins]
      exact List.nil_lt_cons _ _
  | cons c cs ih =>
    cases ds with
    | nil => nomatch less
    | cons d ds =>
      rw [List.flatMap_cons, List.flatMap_cons]
      rcases List.cons_lt_cons_iff.mp less with first | ⟨rfl, later⟩
      · exact below_utf8EncodeChar first _ _
      · exact List.append_left_lt (ih later)

theorem bytes_lt_of_lt {s t : String} (less : s < t) : bytes s < bytes t := by
  rw [bytes_eq, bytes_eq]
  exact encoded_lt less

theorem lt_iff_bytes_lt {s t : String} : s < t ↔ bytes s < bytes t := by
  constructor
  · exact bytes_lt_of_lt
  · intro less
    apply Decidable.byContradiction
    intro after
    by_cases before : t < s
    · exact List.lt_asymm less (bytes_lt_of_lt before)
    · obtain rfl : s = t := String.le_antisymm (String.not_lt.mp before) (String.not_lt.mp after)
      exact List.lt_irrefl _ less

end TreeVisit.Text
