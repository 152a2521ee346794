import TreeVisit.Document.Decode
import TreeVisit.Document.Reader
import TreeVisit.Proofs.Text.Classes

/- Texts and whole numbers as they are printed, read back. A text ends at its quote whatever follows; a
   number ends where it has to, as behind a printed value neither a digit nor a point or an exponent
   can come. -/
namespace TreeVisit.Document
open Text

section
variable {α : Type} {within : List Char → Prop}

def Reads (read : Except Stop (α × { rest : List Char // within rest })) (a : α)
    (rest : List Char) : Prop :=
  ∃ proof, read = .ok (a, ⟨rest, proof⟩)

def Refuses {β : Type} (read : Except Stop β) (cause : SyntaxCause) : Prop :=
  ∃ left, read = .error ⟨cause, left⟩

end

theorem readText_end (rest : List Char) : Reads (readText ('"' :: rest)) [] rest := by
  rw [readText]
  exact ⟨_, rfl⟩

theorem readText_escape {escape behind rest cs : List Char} {c : Char}
    (meant : Reads (readEscape escape) c behind) (read : Reads (readText behind) cs rest) :
    Reads (readText ('\\' :: escape)) (c :: cs) rest := by
  obtain ⟨_, meant⟩ := meant
  obtain ⟨_, read⟩ := read
  rw [readText, meant]
  dsimp only [bind, Except.bind]
  rw [read]
  exact ⟨_, rfl⟩

theorem readText_plain {c : Char} {s rest cs : List Char} (no_quote : c ≠ '"') (no_escape : c ≠ '\\')
    (no_control : ¬c.toNat < 0x20) (read : Reads (readText s) cs rest) :
    Reads (readText (c :: s)) (c :: cs) rest := by
  obtain ⟨_, read⟩ := read
  rw [readText, if_neg no_control, read]
  · exact ⟨_, rfl⟩
  · exact no_quote
  · exact no_escape

theorem readEscape_simple {letter c : Char} (simple : simpleEscape? letter = some c)
    (no_code : letter ≠ 'u') (rest : List Char) : Reads (readEscape (letter :: rest)) c rest := by
  rw [readEscape]
  · simp only [simple]
    exact ⟨_, rfl⟩
  · exact no_code

theorem hexValue?_digitChar : ∀ n < 16, hexValue? (Nat.digitChar n) = some n := by
  decide

theorem readEscape_control {c : Char} (control : c.toNat < 0x20) (rest : List Char) :
    Reads (readEscape ('u' :: '0' :: '0' :: (hexPair c.toNat ++ rest))) c rest := by
  have zero : hexValue? '0' = some 0 := by decide
  have high := hexValue?_digitChar (c.toNat / 16) (by omega)
  have low := hexValue?_digitChar (c.toNat % 16) (by omega)
  have unit : Reads (readUnit ('0' :: '0' :: (hexPair c.toNat ++ rest))) c.toNat rest := by
    unfold readUnit hexPair
    simp only [List.cons_append, List.nil_append, zero, high, low]
    refine ⟨by simp only [List.length_cons]; omega, ?_⟩
    congr 3
    omega
  have no_low : isLowSurrogate c.toNat = false := by
    simp only [isLowSurrogate, Bool.and_eq_false_iff, decide_eq_false_iff_not]
    omega
  have no_high : isHighSurrogate c.toNat = false := by
    simp only [isHighSurrogate, Bool.and_eq_false_iff, decide_eq_false_iff_not]
    omega
  obtain ⟨_, unit⟩ := unit
  rw [readEscape, readUnicodeEscape, unit]
  simp only [bind, Except.bind, no_low, no_high, Bool.false_eq_true, ↓reduceIte, Char.ofNat_toNat]
  exact ⟨_, rfl⟩

/-- A character is written as a letter that stands for it, by its number if it is a control without such
    a letter, or as itself. -/
theorem escapedChar_cases (c : Char) :
    (∃ letter, escapedChar c = ['\\', letter] ∧ simpleEscape? letter = some c ∧ letter ≠ 'u') ∨
    (escapedChar c = '\\' :: 'u' :: '0' :: '0' :: hexPair c.toNat ∧ c.toNat < 0x20) ∨
    (escapedChar c = [c] ∧ c ≠ '"' ∧ c ≠ '\\' ∧ ¬c.toNat < 0x20) := by
  have numbered {n : Nat} (number : c.toNat = n) : Char.ofNat n = c := by
    rw [← number, Char.ofNat_toNat]
  generalize written : escapedChar c = piece
  unfold escapedChar at written
  split at written
  next quote => exact Or.inl ⟨'"', written.symm, by rw [quote]; decide, by decide⟩
  split at written
  next backslash => exact Or.inl ⟨'\\', written.symm, by rw [backslash]; decide, by decide⟩
  split at written
  next backspace => exact Or.inl ⟨'b', written.symm, by rw [← numbered backspace]; decide, by decide⟩
  split at written
  next form_feed => exact Or.inl ⟨'f', written.symm, by rw [← numbered form_feed]; decide, by decide⟩
  split at written
  next line_feed => exact Or.inl ⟨'n', written.symm, by rw [line_feed]; decide, by decide⟩
  split at written
  next carriage_return =>
    exact Or.inl ⟨'r', written.symm, by rw [carriage_return]; decide, by decide⟩
  split at written
  next tab => exact Or.inl ⟨'t', written.symm, by rw [tab]; decide, by decide⟩
  split at written
  next control => exact Or.inr (Or.inl ⟨written.symm, control⟩)
  next no_quote no_backslash _ _ _ _ _ no_control =>
    exact Or.inr (Or.inr ⟨written.symm, no_quote, no_backslash, no_control⟩)

theorem readText_escaped (c : Char) {s rest cs : List Char} (read : Reads (readText s) cs rest) :
    Reads (readText (escapedChar c ++ s)) (c :: cs) rest := by
  rcases escapedChar_cases c with ⟨letter, written, simple, no_code⟩ | ⟨written, control⟩ |
    ⟨written, no_quote, no_escape, no_control⟩
  · rw [written]
    exact readText_escape (readEscape_simple simple no_code s) read
  · rw [written]
    exact readText_escape (readEscape_control control s) read
  · rw [written]
    exact readText_plain no_quote no_escape no_control read

theorem readText_printed (cs rest : List Char) :
    Reads (readText (cs.flatMap escapedChar ++ '"' :: rest)) cs rest := by
  induction cs with
  | nil => exact readText_end rest
  | cons c more ih =>
    rw [List.flatMap_cons, List.append_assoc]
    exact readText_escaped c ih

def isNumberPart (c : Char) : Bool := isDigit c || c == '.' || c == 'e' || c == 'E'

theorem isDigit_of_mem_toDigits (n : Nat) : ∀ c ∈ Nat.toDigits 10 n, isDigit c = true := by
  intro c member
  have digit := Nat.isDigit_of_mem_toDigits (by decide) (by decide) member
  simp only [Char.isDigit, Bool.and_eq_true, decide_eq_true_eq] at digit
  simp only [isDigit, Bool.and_eq_true, decide_eq_true_eq]
  exact digit

theorem toDigits_ne_nil (n : Nat) : Nat.toDigits 10 n ≠ [] := by
  rw [Nat.toDigits_eq_if (by decide)]
  split
  · exact List.cons_ne_nil _ _
  · exact List.append_ne_nil_of_right_ne_nil _ (List.cons_ne_nil _ _)

theorem head?_toDigits {n : Nat} (positive : 0 < n) : (Nat.toDigits 10 n).head? ≠ some '0' := by
  induction n using Nat.strongRecOn with
  | ind n ih =>
    rw [Nat.toDigits_eq_if (by decide)]
    split
    next small =>
      have no_zero : ∀ d < 10, 0 < d → Nat.digitChar d ≠ '0' := by decide
      intro zero
      exact no_zero n small positive (Option.some.inj zero)
    next large =>
      have others := ih (n / 10) (by omega) (by omega)
      obtain ⟨c, more, shape⟩ := List.exists_cons_of_ne_nil (toDigits_ne_nil (n / 10))
      rw [shape] at others ⊢
      exact others

theorem toDigits_zero : Nat.toDigits 10 0 = ['0'] := by
  decide

def valueFrom (n : Nat) (digits : List Nat) : Nat := digits.foldl (fun value d => value * 10 + d) n

theorem le_valueFrom (n : Nat) (digits : List Nat) : n ≤ valueFrom n digits := by
  induction digits generalizing n with
  | nil => exact Nat.le_refl n
  | cons d rest ih =>
    have := ih (n * 10 + d)
    rw [valueFrom, List.foldl_cons, ← valueFrom]
    omega

theorem gather_of_le {limit n : Nat} {digits : List Nat} (fits : valueFrom n digits ≤ limit) :
    Decimal.gather limit n digits = (valueFrom n digits, []) := by
  induction digits generalizing n with
  | nil => rfl
  | cons d rest ih =>
    have grows := le_valueFrom (n * 10 + d) rest
    rw [valueFrom, List.foldl_cons, ← valueFrom] at fits ⊢
    rw [Decimal.gather, if_neg (by omega), ih fits]

theorem valueFrom_toDigits (n : Nat) :
    valueFrom 0 ((Nat.toDigits 10 n).map fun c => c.toNat - '0'.toNat) = n := by
  have value := @Nat.ofDigitChars_ten_toDigits n
  rw [Nat.ofDigitChars_eq_foldl] at value
  rw [valueFrom, List.foldl_map]
  simpa only [Nat.mul_comm] using value

theorem readDigits_toDigits (n : Nat) {rest : List Char} (ends : Ends isDigit rest) :
    (readDigits (Nat.toDigits 10 n ++ rest)).1 =
      (Nat.toDigits 10 n).map fun c => c.toNat - '0'.toNat := by
  rw [readDigits, takeWhile_run (isDigit_of_mem_toDigits n) ends]

theorem eq_zero_of_head? {n : Nat}
    (zero : ((Nat.toDigits 10 n).map fun c => c.toNat - '0'.toNat).head? = some 0) : n = 0 := by
  rw [List.head?_map] at zero
  obtain ⟨c, first, value⟩ := Option.map_eq_some_iff.mp zero
  have digit := isDigit_of_mem_toDigits n c (List.mem_of_head? first)
  have least : '0'.toNat ≤ c.toNat := by
    simp only [isDigit, Bool.and_eq_true, decide_eq_true_eq] at digit
    exact digit.1
  have same : c = '0' := Char.toNat_inj.mp (by omega)
  apply Nat.eq_zero_of_not_pos
  intro positive
  exact head?_toDigits positive (same ▸ first)

theorem readNumber_printed (negative : Bool) {n : Nat} (fits : n ≤ significandLimit)
    {rest : List Char} (ends : Ends isNumberPart rest) :
    Reads (readNumber negative (Nat.toDigits 10 n ++ rest)) (wholeNumber negative n) rest := by
  have ends_digits : Ends isDigit rest := by
    intro c first
    have stops := ends c first
    simp only [isNumberPart, Bool.or_eq_false_iff] at stops
    exact stops.1.1.1
  have taken := takeWhile_run (isDigit_of_mem_toDigits n) ends_digits
  have left := dropWhile_run (isDigit_of_mem_toDigits n) ends_digits
  have some_taken : ¬((Nat.toDigits 10 n ++ rest).takeWhile isDigit).isEmpty = true := by
    rw [taken, List.isEmpty_iff]
    exact toDigits_ne_nil n
  have gathered : Decimal.gather significandLimit 0 (readDigits (Nat.toDigits 10 n ++ rest)).1 =
      (n, []) := by
    have value := valueFrom_toDigits n
    rw [readDigits_toDigits n ends_digits, gather_of_le (by rw [value]; exact fits), value]
  have no_padding : ¬((readDigits (Nat.toDigits 10 n ++ rest)).1.head? = some 0 &&
      (readDigits (Nat.toDigits 10 n ++ rest)).1.length != 1) = true := by
    rw [readDigits_toDigits n ends_digits, Bool.and_eq_true, decide_eq_true_eq, bne_iff_ne]
    rintro ⟨zero, several⟩
    apply several
    rw [eq_zero_of_head? zero, toDigits_zero]
    rfl
  unfold readNumber
  rw [dif_neg some_taken]
  dsimp only
  rw [if_neg no_padding, gathered]
  dsimp only
  split
  next more point =>
    rw [left] at point
    have stops := ends '.' (by rw [point]; rfl)
    exact absurd stops (by decide)
  next =>
    have no_power : (decide (rest.head? = some 'e') || decide (rest.head? = some 'E')) = false := by
      rw [Bool.or_eq_false_iff, decide_eq_false_iff_not, decide_eq_false_iff_not]
      constructor
      · intro power
        exact absurd (ends 'e' power) (by decide)
      · intro power
        exact absurd (ends 'E' power) (by decide)
    have shorter : rest.length < (Nat.toDigits 10 n ++ rest).length := by
      have := List.length_pos_iff.mpr (toDigits_ne_nil n)
      rw [List.length_append]
      omega
    refine ⟨shorter, ?_⟩
    simp only [left, no_power]
    rfl

def IsWhole (n : Int) : Prop :=
  (IntRange.i64.least ≤ n ∧ n ≤ IntRange.i64.greatest) ∨
    (IntRange.u64.least ≤ n ∧ n ≤ IntRange.u64.greatest)

theorem isWhole_iff (n : Int) :
    IsWhole n ↔ -9223372036854775808 ≤ n ∧ n ≤ 18446744073709551615 := by
  have least : IntRange.i64.least = -9223372036854775808 := by decide
  have greatest : IntRange.i64.greatest = 9223372036854775807 := by decide
  have least' : IntRange.u64.least = 0 := by decide
  have greatest' : IntRange.u64.greatest = 18446744073709551615 := by decide
  rw [IsWhole, least, greatest, least', greatest']
  omega

theorem wholeNumber_ofNat {n : Nat} (whole : IsWhole n) :
    n ≤ significandLimit ∧ wholeNumber false n = .int n := by
  have limit : significandLimit = 18446744073709551615 := by decide
  rw [isWhole_iff] at whole
  refine ⟨by omega, ?_⟩
  rfl

theorem wholeNumber_negSucc {n : Nat} (whole : IsWhole (.negSucc n)) :
    n + 1 ≤ significandLimit ∧ wholeNumber true (n + 1) = .int (.negSucc n) := by
  have limit : significandLimit = 18446744073709551615 := by decide
  have least : Nat.pow 2 63 = 9223372036854775808 := by decide
  rw [isWhole_iff] at whole
  refine ⟨by omega, ?_⟩
  unfold wholeNumber
  rw [least, if_neg (by decide), if_neg]
  · rfl
  · simp only [Bool.or_eq_true, decide_eq_true_eq]
    omega

end TreeVisit.Document
