import TreeVisit.Text.Alphanumeric
import TreeVisit.Text.Input
import TreeVisit.Text.Quoted
import TreeVisit.Tree.Basic

/- Reading a tree from its text.

     node := atom | "(" atom node* ")"        atom := kind [":" text]

   Layout may stand between pieces. A kind and a text take as many characters as they can, and a
   colon that no text follows is left unread. A list that cannot be read as a whole is no node, so a
   fault is reported where the outermost node begins, or at what is left behind a complete node. -/
namespace TreeVisit.Tree

open Text

def isKindChar (c : Char) : Bool := isAlphanumeric c || c == '_' || c == '-'

def isTextChar (c : Char) : Bool := !(isBlank c || c == '(' || c == ')')

abbrev Atom := String × Option String

def readAtom (s : List Char) : Option (Atom × List Char) :=
  let kind := s.takeWhile isKindChar
  let rest := s.dropWhile isKindChar
  if kind.isEmpty then none
  else
    match rest with
    | ':' :: more =>
      let text := more.takeWhile isTextChar
      if text.isEmpty then some ((String.ofList kind, none), rest)
      else some ((String.ofList kind, some (String.ofList text)), more.dropWhile isTextChar)
    | _ => some ((String.ofList kind, none), rest)

theorem readAtom_shorter {s rest : List Char} {atom : Atom} (read : readAtom s = some (atom, rest)) :
    rest.length < s.length := by
  simp only [readAtom] at read
  split at read
  · nomatch read
  next some_taken =>
    have shorter := length_dropWhile_lt (Bool.not_eq_true _ ▸ some_taken)
    split at read
    next more colon =>
      split at read
      · obtain ⟨_, rfl⟩ := Prod.mk.inj (Option.some.inj read)
        exact shorter
      · obtain ⟨_, rfl⟩ := Prod.mk.inj (Option.some.inj read)
        have := length_dropWhile_le isTextChar more
        rw [colon] at shorter
        simp only [List.length_cons] at shorter
        omega
    · obtain ⟨_, rfl⟩ := Prod.mk.inj (Option.some.inj read)
      exact shorter

mutual

def readNode (s : List Char) : Option (Shape × Shorter s) :=
  match s with
  | '(' :: inner =>
    match _atom : readAtom (skipLayout inner) with
    | none => none
    | some ((kind, text?), rest) =>
      match readNodes rest with
      | (children, ⟨rest', shorter⟩) =>
        match _close : skipLayout rest' with
        | ')' :: behind => some (.mk () kind text? children, ⟨behind, by
            have := readAtom_shorter _atom
            have := length_skipLayout_le inner
            have := length_lt_of_skipLayout _close
            simp only [List.length_cons]
            omega⟩)
        | _ => none
  | s =>
    match _atom : readAtom s with
    | none => none
    | some ((kind, text?), rest) => some (.mk () kind text? [], ⟨rest, readAtom_shorter _atom⟩)
termination_by (s.length, 0)
decreasing_by
  have := readAtom_shorter _atom
  have := length_skipLayout_le inner
  apply Prod.Lex.left
  simp only [List.length_cons]
  omega

/-- As many nodes as can be read; layout is skipped only before a node. -/
def readNodes (s : List Char) : List Shape × NotLonger s :=
  match readNode (skipLayout s) with
  | none => ([], ⟨s, Nat.le_refl _⟩)
  | some (child, ⟨rest, shorter⟩) =>
    match readNodes rest with
    | (children, ⟨rest', shorter'⟩) => (child :: children, ⟨rest', by
        have := length_skipLayout_le s
        omega⟩)
termination_by (s.length, 1)
decreasing_by
  · rcases Nat.lt_or_eq_of_le (length_skipLayout_le s) with h | h
    · exact Prod.Lex.left _ _ h
    · rw [h]
      exact Prod.Lex.right _ Nat.zero_lt_one
  · have := length_skipLayout_le s
    apply Prod.Lex.left
    omega

end

/-- Why a text is no tree. Offsets count the bytes of the text in UTF-8. -/
inductive ReadCause where
  | empty
  | unexpected (offset : Nat)
  deriving DecidableEq, Repr

structure ReadFault where
  input : String
  cause : ReadCause
  deriving DecidableEq, Repr

def readChars (s : List Char) : Except ReadCause Shape :=
  if s.all isBlank then .error .empty
  else
    let start := skipLayout s
    match readNode start with
    | none => .error (.unexpected (byteLength s - byteLength start))
    | some (tree, ⟨rest, _⟩) =>
      let left := skipLayout rest
      if left.isEmpty then .ok tree
      else .error (.unexpected (byteLength s - byteLength left))

def read (input : String) : Except ReadFault Shape :=
  (readChars input.toList).mapError fun cause => ⟨input, cause⟩

def ReadFault.detail (fault : ReadFault) : String :=
  match fault.cause with
  | .empty => "empty tree"
  | .unexpected offset =>
    "ParseError \x7b input: " ++ Text.quoted fault.input ++ ", offset: " ++ toString offset ++
      ", inner: ContextError \x7b context: [], cause: None \x7d \x7d"

def ReadFault.message (fault : ReadFault) : String :=
  "cannot parse tree " ++ Text.quoted fault.input ++ ": " ++ fault.detail

end TreeVisit.Tree
