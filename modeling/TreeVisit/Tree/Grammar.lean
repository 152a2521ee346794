import TreeVisit.Tree.Preorder
import TreeVisit.Tree.Printer
import TreeVisit.Tree.Reader

/- What the texts of trees are, said without a reader: which atoms can be written at all, and which
   texts stand for a tree when layout may be put between its pieces. Two pieces need layout between
   them only where the first ends in an atom and the second begins with one. -/
namespace TreeVisit.Tree

universe u
variable {μ : Type u}

def IsKind (s : List Char) : Prop := s ≠ [] ∧ ∀ c ∈ s, isKindChar c = true
def IsText (s : List Char) : Prop := s ≠ [] ∧ ∀ c ∈ s, isTextChar c = true

/-- Kind and text of an atom that reads back as it was written. -/
def IsAtom (kind : String) : Option String → Prop
  | none => IsKind kind.toList
  | some text => IsKind kind.toList ∧ IsText text.toList

def WellFormed (n : Node μ) : Prop := ∀ m ∈ n.preorder, IsAtom m.kind m.text?

theorem all_and_nonempty_iff {p : Char → Bool} {s : List Char} :
    (!s.isEmpty && s.all p) = true ↔ s ≠ [] ∧ ∀ c ∈ s, p c = true := by simp

instance (s : List Char) : Decidable (IsKind s) :=
  decidable_of_iff ((!s.isEmpty && s.all isKindChar) = true) all_and_nonempty_iff

instance (s : List Char) : Decidable (IsText s) :=
  decidable_of_iff ((!s.isEmpty && s.all isTextChar) = true) all_and_nonempty_iff

instance (kind : String) : (text? : Option String) → Decidable (IsAtom kind text?)
  | none => inferInstanceAs (Decidable (IsKind _))
  | some _ => inferInstanceAs (Decidable (_ ∧ _))

instance (n : Node μ) : Decidable (WellFormed n) :=
  inferInstanceAs (Decidable (∀ m ∈ n.preorder, IsAtom m.kind m.text?))

def IsLayout (s : List Char) : Prop := ∀ c ∈ s, Text.isLayout c = true

def EndsInAtom (s : List Char) : Prop := s.getLast? ≠ some ')'
def BeginsWithAtom (s : List Char) : Prop := s.head? ≠ some '('

/-- The layout `w` is enough to keep two pieces apart. -/
def Parted (first w second : List Char) : Prop :=
  IsLayout w ∧ (EndsInAtom first → BeginsWithAtom second → w ≠ [])

mutual

/-- The text `s` stands for the tree. -/
inductive Written : Shape → List Char → Prop where
  | atom {kind text?} (valid : IsAtom kind text?) :
      Written (.mk () kind text? []) (Node.atomChars kind text?)
  | list {kind text? children before body behind} (valid : IsAtom kind text?)
      (opening : IsLayout before) (written : WrittenAll (Node.atomChars kind text?) children body)
      (closing : IsLayout behind) :
      Written (.mk () kind text? children)
        ('(' :: (before ++ Node.atomChars kind text? ++ body ++ behind ++ [')']))

inductive WrittenAll : List Char → List Shape → List Char → Prop where
  | nil {piece} : WrittenAll piece [] []
  | cons {piece child children w s body} (parted : Parted piece w s) (written : Written child s)
      (others : WrittenAll s children body) :
      WrittenAll piece (child :: children) (w ++ s ++ body)

end

end TreeVisit.Tree
