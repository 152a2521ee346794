import TreeVisit.Text.Blank

/- Input that is read from its start. A reader gives back what is left, with the proof that it is
   shorter; positions count the bytes of the UTF-8 form. -/
namespace TreeVisit.Text

abbrev Shorter (s : List Char) := { rest : List Char // rest.length < s.length }

abbrev NotLonger (s : List Char) := { rest : List Char // rest.length ≤ s.length }

def byteLength : List Char → Nat
  | [] => 0
  | c :: rest => c.utf8Size + byteLength rest

def skipLayout (s : List Char) : List Char := s.dropWhile isLayout

theorem length_dropWhile_le (p : Char → Bool) (s : List Char) :
    (s.dropWhile p).length ≤ s.length := (List.dropWhile_sublist p).length_le

theorem length_dropWhile_lt {p : Char → Bool} {s : List Char}
    (some_taken : (s.takeWhile p).isEmpty = false) : (s.dropWhile p).length < s.length := by
  cases s with
  | nil => simp at some_taken
  | cons c rest =>
    by_cases h : p c
    · have := length_dropWhile_le p rest
      simp only [List.dropWhile_cons, h, ↓reduceIte, List.length_cons]
      omega
    · simp [h] at some_taken

theorem length_skipLayout_le (s : List Char) : (skipLayout s).length ≤ s.length :=
  length_dropWhile_le isLayout s

theorem length_lt_of_skipLayout {s rest : List Char} {c : Char}
    (skipped : skipLayout s = c :: rest) : rest.length < s.length := by
  have := length_skipLayout_le s
  rw [skipped, List.length_cons] at this
  omega

end TreeVisit.Text
