import TreeVisit.Proofs.Tree.Reading

/- Where a text is refused. Lists are read whole or not at all, so whatever is wrong inside of one, and
   however deep, the place that is reported is where the first node should have begun, or what is left
   behind that node where the text should have ended. -/
namespace TreeVisit.Text

theorem byteLength_append (s rest : List Char) :
    byteLength (s ++ rest) = byteLength s + byteLength rest := by
  induction s with
  | nil => simp [byteLength]
  | cons c more ih =>
    rw [List.cons_append, byteLength, byteLength, ih]
    omega

theorem utf8ByteSize_ofList (s : List Char) : (String.ofList s).utf8ByteSize = byteLength s := by
  induction s with
  | nil => rfl
  | cons c more ih =>
    rw [String.ofList_cons, String.utf8ByteSize_append, String.utf8ByteSize_singleton, ih, byteLength]

theorem isValid_byteLength {input : String} {before behind : List Char}
    (pieces : input.toList = before ++ behind) :
    (⟨byteLength before⟩ : String.Pos.Raw).IsValid input := by
  rw [String.Pos.Raw.isValid_iff_exists_append]
  refine ⟨String.ofList before, String.ofList behind, ?_, ?_⟩
  · rw [← String.ofList_append, ← pieces, String.ofList_toList]
  · rw [String.rawEndPos, utf8ByteSize_ofList]

theorem byteLength_lt {input : String} {before behind : List Char} {c : Char}
    (pieces : input.toList = before ++ c :: behind) : byteLength before < input.utf8ByteSize := by
  have whole : input.utf8ByteSize = byteLength (before ++ c :: behind) := by
    rw [← pieces, ← utf8ByteSize_ofList, String.ofList_toList]
  have := c.utf8Size_pos
  rw [whole, byteLength_append, byteLength]
  omega

end TreeVisit.Text

namespace TreeVisit.Tree
open Text Node

/-- No piece at the start of the input stands for a tree. -/
def NoNode (s : List Char) : Prop := ∀ (t : Shape) (piece rest : List Char),
  s = piece ++ rest → ¬Written t piece

theorem readAtom_isSome {c : Char} (kind : isKindChar c = true) (more : List Char) :
    (readAtom (c :: more)).isSome = true := by
  have taken : ((c :: more).takeWhile isKindChar).isEmpty = false := by
    rw [List.takeWhile_cons_of_pos kind]
    rfl
  unfold readAtom
  simp only [taken, Bool.false_eq_true, ↓reduceIte]
  split
  · split
    · rfl
    · rfl
  · rfl

theorem node?_isSome_of_written {t : Shape} {piece : List Char} (written : Written t piece)
    (rest : List Char) : (node? (piece ++ rest)).isSome = true := by
  cases written with
  | @atom kind text? valid =>
    obtain ⟨c, more, shape, first⟩ := atomChars_eq_cons valid
    have no_list : (atomChars kind text? ++ rest).head? ≠ some '(' := by
      rw [shape]
      intro opening
      cases opening
      exact absurd first (by decide)
    rw [node?_atom no_list, Option.isSome_map, shape]
    exact readAtom_isSome first (more ++ rest)
  | list valid opening all closing =>
    have listed := Written.list valid opening all closing
    have found := node?_of_written listed rest fun ends => absurd ends (not_endsInAtom_list _)
    rw [found]
    rfl

theorem noNode_of_unread {s : List Char} (unread : node? s = none) : NoNode s := by
  rintro t piece rest rfl written
  have found := node?_isSome_of_written written rest
  rw [unread] at found
  nomatch found

/-- The input breaks off before `rest`: with layout alone before it where no node begins, or behind the
    node that is read first and the layout around that node. -/
inductive BreaksBefore (s rest : List Char) : List Char → Prop where
  | unbegun (none_begins : NoNode rest) : BreaksBefore s rest (s.takeWhile Text.isLayout)
  | unended {t : Shape} {piece w : List Char} (written : Written t piece) (layout : IsLayout w)
      (read : node? (piece ++ (w ++ rest)) = some (t, w ++ rest)) :
      BreaksBefore s rest (s.takeWhile Text.isLayout ++ piece ++ w)

theorem byteLength_sub {s before rest : List Char} (pieces : s = before ++ rest) :
    byteLength s - byteLength rest = byteLength before := by
  rw [pieces, byteLength_append]
  omega

theorem skipLayout_cases (s : List Char) :
    IsLayout s ∨ ∃ c behind, skipLayout s = c :: behind ∧ Text.isLayout c = false := by
  cases left : skipLayout s with
  | nil => exact Or.inl (isLayout_of_skipLayout left)
  | cons c behind =>
    have stops := ends_dropWhile Text.isLayout s c
    change c ∈ (skipLayout s).head? → _ at stops
    rw [left] at stops
    exact Or.inr ⟨c, behind, rfl, stops rfl⟩

theorem readChars_error {s : List Char} {cause : ReadCause} (refused : readChars s = .error cause) :
    (cause = .empty ∧ ∀ c ∈ s, isBlank c = true) ∨
      ((∃ c ∈ s, isBlank c = false) ∧ ∃ before c behind, cause = .unexpected (byteLength before) ∧
        s = before ++ c :: behind ∧ Text.isLayout c = false ∧ BreaksBefore s (c :: behind) before) := by
  have whole := takeWhile_skipLayout s
  rw [readChars_eq] at refused
  split at refused
  next blank =>
    cases refused
    exact Or.inl ⟨rfl, List.all_eq_true.mp blank⟩
  next inked =>
    have some_ink : ∃ c ∈ s, isBlank c = false := by simpa using inked
    refine Or.inr ⟨some_ink, ?_⟩
    split at refused
    next unread =>
      cases refused
      rcases skipLayout_cases s with layout | ⟨c, behind, begins, no_layout⟩
      · obtain ⟨c, member, ink⟩ := some_ink
        have blank := isBlank_of_isLayout (layout c member)
        rw [ink] at blank
        nomatch blank
      · rw [begins] at whole unread ⊢
        refine ⟨s.takeWhile Text.isLayout, c, behind, ?_, whole.symm, no_layout, ?_⟩
        · rw [byteLength_sub whole.symm]
        · exact .unbegun (noNode_of_unread unread)
    next tree rest read =>
      split at refused
      · nomatch refused
      next unended =>
        cases refused
        have behind_node := takeWhile_skipLayout rest
        obtain ⟨piece, split_piece, written⟩ := written_of_node? read
        rcases skipLayout_cases rest with layout | ⟨c, behind, begins, no_layout⟩
        · rw [skipLayout_of_isLayout layout] at unended
          exact absurd rfl unended
        · rw [begins] at behind_node ⊢
          rw [split_piece, ← behind_node] at whole read
          have pieces : s = (s.takeWhile Text.isLayout ++ piece ++ rest.takeWhile Text.isLayout) ++
              c :: behind := by
            conv => lhs; rw [← whole]
            simp only [List.append_assoc]
          refine ⟨_, c, behind, ?_, pieces, no_layout, ?_⟩
          · rw [byteLength_sub pieces]
          · exact .unended written (isLayout_takeWhile rest) read

/-- What a refusal says: the text is empty but for white space, or it breaks off at a byte offset. There
    stands a character that is no layout; before it there is layout and no node begins with it, so that a
    list is reported as a whole whatever is wrong in it, or there is the node that was read with layout
    around it. -/
theorem refusal_stands_at_first_node (input : String) (fault : ReadFault)
    (refused : read input = .error fault) :
    fault.input = input ∧
    (fault.detail = "empty tree" ↔ ∀ c ∈ input.toList, isBlank c = true) ∧
    ((∃ c ∈ input.toList, isBlank c = false) →
      ∃ before c behind offset, input.toList = before ++ c :: behind ∧
        fault.cause = .unexpected offset ∧
        fault.detail = "ParseError \x7b input: " ++ Text.quoted input ++ ", offset: " ++
          toString offset ++ ", inner: ContextError \x7b context: [], cause: None \x7d \x7d" ∧
        offset = byteLength before ∧ offset < input.utf8ByteSize ∧
        (⟨offset⟩ : String.Pos.Raw).IsValid input ∧ Text.isLayout c = false ∧
        BreaksBefore input.toList (c :: behind) before) := by
  unfold read at refused
  cases outcome : readChars input.toList with
  | ok t =>
    rw [outcome] at refused
    nomatch refused
  | error cause =>
    rw [outcome] at refused
    cases refused
    refine ⟨rfl, ?_⟩
    rcases readChars_error outcome with
      ⟨rfl, blank⟩ | ⟨⟨d, member, ink⟩, before, c, behind, rfl, pieces, no_layout, breaks⟩
    · refine ⟨iff_of_true rfl blank, ?_⟩
      rintro ⟨c, member, ink⟩
      rw [blank c member] at ink
      nomatch ink
    · constructor
      · apply iff_of_false
        · intro same
          have letters := congrArg String.toList same
          simp [ReadFault.detail] at letters
        · intro blank
          rw [blank d member] at ink
          nomatch ink
      · intro _
        refine ⟨before, c, behind, byteLength before, pieces, rfl, ?_, rfl, byteLength_lt pieces,
          isValid_byteLength pieces, no_layout, breaks⟩
        rfl

theorem refusal_behind_a_wide_node :
    read "é (b (c" = .error ⟨"é (b (c", .unexpected 3⟩ ∧
      (⟨3⟩ : String.Pos.Raw).IsValid "é (b (c" ∧
      ∃ before c behind, "é (b (c".toList = before ++ c :: behind ∧ 3 = byteLength before ∧
        Text.isLayout c = false ∧ BreaksBefore "é (b (c".toList (c :: behind) before := by
  have first : node? (skipLayout "é (b (c".toList) = some (.mk () "é" none [], " (b (c".toList) := by
    rw [node?_atom (by decide +kernel)]
    rfl
  have refused : read "é (b (c" = .error ⟨"é (b (c", .unexpected 3⟩ := by
    rw [read, readChars_eq, first]
    rfl
  have ink : ∃ c ∈ "é (b (c".toList, isBlank c = false := ⟨'é', by decide, by decide⟩
  obtain ⟨before, c, behind, offset, pieces, reported, _, place, _, boundary, no_layout, breaks⟩ :=
    (refusal_stands_at_first_node "é (b (c" _ refused).2.2 ink
  cases reported
  exact ⟨refused, boundary, before, c, behind, pieces, place, no_layout, breaks⟩

end TreeVisit.Tree
