import TreeVisit.Tree.Reader

/- The classes of characters that trees are written in. What may be in a kind may be in a text, and
   neither class meets layout or parentheses, so that a greedy run ends where it has to. -/
namespace TreeVisit.Text

/-- A run of such characters goes no further than to the start of `rest`. -/
def Ends (p : Char → Bool) (rest : List Char) : Prop := ∀ c ∈ rest.head?, p c = false

section
variable {p : Char → Bool} {run rest : List Char}

theorem ends_nil : Ends p [] := by
  intro c first
  nomatch first

theorem ends_cons {c : Char} (stops : p c = false) : Ends p (c :: rest) := by
  intro d first
  cases first
  exact stops

theorem ends_dropWhile (p : Char → Bool) (s : List Char) : Ends p (s.dropWhile p) := by
  intro c first
  have stop := List.head?_dropWhile_not p s
  rw [first] at stop
  simpa using stop

theorem takeWhile_run (all : ∀ c ∈ run, p c = true) (ends : Ends p rest) :
    (run ++ rest).takeWhile p = run := by
  rw [List.takeWhile_append_of_pos all]
  cases rest with
  | nil => exact List.append_nil run
  | cons c more => rw [List.takeWhile_cons_of_neg (by simp [ends c rfl]), List.append_nil]

theorem dropWhile_run (all : ∀ c ∈ run, p c = true) (ends : Ends p rest) :
    (run ++ rest).dropWhile p = rest := by
  rw [List.dropWhile_append_of_pos all]
  cases rest with
  | nil => rfl
  | cons c more => rw [List.dropWhile_cons_of_neg (by simp [ends c rfl])]

theorem of_mem_takeWhile {c : Char} {s : List Char} (member : c ∈ s.takeWhile p) : p c = true :=
  List.all_eq_true.mp List.all_takeWhile c member

end

namespace Ranges

def apart (some_table other : Ranges) : Bool :=
  some_table.all fun r => other.all fun q => r.2 < q.1 || q.2 < r.1

theorem covers_eq_false_of_apart {least low : Nat} {some_table other : Ranges}
    (ordered : some_table.OrderedFrom least) (ordered' : other.OrderedFrom low)
    (separate : apart some_table other = true) {n : Nat} (covered : some_table.covers n = true) :
    other.covers n = false := by
  rw [← Bool.not_eq_true]
  intro both
  obtain ⟨r, member, lower, upper⟩ := (covers_iff ordered n).mp covered
  obtain ⟨q, member', lower', upper'⟩ := (covers_iff ordered' n).mp both
  have bounds := List.all_eq_true.mp (List.all_eq_true.mp separate r member) q member'
  simp only [Bool.or_eq_true, decide_eq_true_eq] at bounds
  omega

end Ranges

theorem isBlank_eq_false_of_isAlphanumeric {c : Char} (letter : isAlphanumeric c = true) :
    isBlank c = false :=
  Ranges.covers_eq_false_of_apart ordered_alphanumericRanges ordered_blankRanges
    (by decide +kernel) letter

end TreeVisit.Text

namespace TreeVisit.Tree
open Text

theorem isBlank_eq_false_of_isKindChar {c : Char} (kind : isKindChar c = true) :
    isBlank c = false := by
  simp only [isKindChar, Bool.or_eq_true, beq_iff_eq] at kind
  rcases kind with (letter | rfl) | rfl
  · exact isBlank_eq_false_of_isAlphanumeric letter
  · decide
  · decide

theorem isTextChar_of_isKindChar {c : Char} (kind : isKindChar c = true) :
    isTextChar c = true := by
  have opening : c ≠ '(' := by
    rintro rfl
    exact absurd kind (by decide)
  have closing : c ≠ ')' := by
    rintro rfl
    exact absurd kind (by decide)
  simp [isTextChar, isBlank_eq_false_of_isKindChar kind, opening, closing]

theorem isTextChar_iff {c : Char} :
    isTextChar c = true ↔ isBlank c = false ∧ c ≠ '(' ∧ c ≠ ')' := by
  simp [isTextChar, and_assoc]

def isStop (c : Char) : Bool := isLayout c || c == '(' || c == ')'

theorem isTextChar_eq_false_of_isStop {c : Char} (stop : isStop c = true) :
    isTextChar c = false := by
  simp only [isStop, Bool.or_eq_true, beq_iff_eq] at stop
  rcases stop with (layout | rfl) | rfl
  · simp [isTextChar, isBlank_of_isLayout layout]
  · decide
  · decide

theorem isKindChar_eq_false_of_isStop {c : Char} (stop : isStop c = true) :
    isKindChar c = false := by
  rw [← Bool.not_eq_true]
  intro kind
  have text := isTextChar_of_isKindChar kind
  rw [isTextChar_eq_false_of_isStop stop] at text
  nomatch text

theorem isLayout_eq_false_of_isTextChar {c : Char} (text : isTextChar c = true) :
    isLayout c = false := by
  rw [← Bool.not_eq_true]
  intro layout
  have stop : isStop c = true := by simp [isStop, layout]
  rw [isTextChar_eq_false_of_isStop stop] at text
  nomatch text

end TreeVisit.Tree
