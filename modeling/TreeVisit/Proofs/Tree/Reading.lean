import TreeVisit.Proofs.Text.Classes
import TreeVisit.Tree.Grammar

/- What the reader reads, against the grammar. The reader takes as much as it can and never goes
   back into what it took; the grammar leaves open where a piece ends. They agree because an atom
   that is complete is followed by layout, by a parenthesis or by nothing. -/
namespace TreeVisit.Tree
open Text Node

def node? (s : List Char) : Option (Shape × List Char) :=
  (readNode s).map fun read => (read.1, read.2.val)

def nodes (s : List Char) : List Shape × List Char := ((readNodes s).1, (readNodes s).2.val)

theorem node?_list (inner : List Char) :
    node? ('(' :: inner) =
      match readAtom (skipLayout inner) with
      | none => none
      | some ((kind, text?), rest) =>
        match skipLayout (nodes rest).2 with
        | ')' :: behind => some (.mk () kind text? (nodes rest).1, behind)
        | _ => none := by
  rw [node?, readNode]
  split
  next atom =>
    rw [atom]
    rfl
  next kind text? rest atom =>
    conv => rhs; rw [atom]
    simp only [nodes]
    split
    next behind close =>
      conv => rhs; rw [close]
      rfl
    next unclosed =>
      split
      next behind close => exact absurd close (unclosed behind)
      next => rfl

theorem node?_atom {s : List Char} (open? : s.head? ≠ some '(') :
    node? s = (readAtom s).map fun read => (.mk () read.1.1 read.1.2 [], read.2) := by
  rw [node?, readNode]
  · split
    next atom =>
      rw [atom]
      rfl
    next kind text? rest atom =>
      conv => rhs; rw [atom]
      rfl
  · rintro inner rfl
    exact open? rfl

theorem nodes_eq (s : List Char) :
    nodes s =
      match node? (skipLayout s) with
      | none => ([], s)
      | some (child, rest) => (child :: (nodes rest).1, (nodes rest).2) := by
  rw [nodes, readNodes, node?]
  cases readNode (skipLayout s) with
  | none => rfl
  | some read => rfl

/-- No atom goes on into `rest`: it is empty or begins with layout or a parenthesis. -/
def Closed (rest : List Char) : Prop := ∀ c ∈ rest.head?, isStop c = true

theorem Closed.ends_kind {rest : List Char} (closed : Closed rest) : Ends isKindChar rest := by
  intro c first
  have stop := closed c first
  exact isKindChar_eq_false_of_isStop stop

theorem Closed.ends_text {rest : List Char} (closed : Closed rest) : Ends isTextChar rest := by
  intro c first
  have stop := closed c first
  exact isTextChar_eq_false_of_isStop stop

theorem readAtom_of_isAtom {kind : String} {text? : Option String} {rest : List Char}
    (valid : IsAtom kind text?) (closed : Closed rest) :
    readAtom (atomChars kind text? ++ rest) = some ((kind, text?), rest) := by
  cases text? with
  | none =>
    obtain ⟨nonempty, all⟩ := valid
    have some_kind : kind.toList.isEmpty = false := by simpa using nonempty
    simp only [readAtom, atomChars, takeWhile_run all closed.ends_kind,
      dropWhile_run all closed.ends_kind, some_kind, String.ofList_toList, Bool.false_eq_true,
      ↓reduceIte]
    split
    next more =>
      have colon := closed ':' rfl
      exact absurd colon (by decide)
    next => rfl
  | some text =>
    obtain ⟨⟨nonempty, all⟩, nonempty', all'⟩ := valid
    have some_kind : kind.toList.isEmpty = false := by simpa using nonempty
    have some_text : text.toList.isEmpty = false := by simpa using nonempty'
    have colon : Ends isKindChar (':' :: (text.toList ++ rest)) := ends_cons (by decide)
    simp only [readAtom, atomChars, List.append_assoc, List.cons_append, takeWhile_run all colon,
      dropWhile_run all colon, takeWhile_run all' closed.ends_text,
      dropWhile_run all' closed.ends_text, some_kind, some_text, String.ofList_toList]
    rfl

theorem isAtom_of_readAtom {s rest : List Char} {kind : String} {text? : Option String}
    (read : readAtom s = some ((kind, text?), rest)) :
    IsAtom kind text? ∧ s = atomChars kind text? ++ rest ∧ Ends isKindChar rest := by
  have whole : s.takeWhile isKindChar ++ s.dropWhile isKindChar = s :=
    List.takeWhile_append_dropWhile
  have behind := ends_dropWhile isKindChar s
  simp only [readAtom] at read
  split at read
  · cases read
  next some_kind =>
    have is_kind : IsKind (String.ofList (s.takeWhile isKindChar)).toList := by
      rw [String.toList_ofList]
      constructor
      · simpa using some_kind
      · intro c member
        exact of_mem_takeWhile member
    split at read
    next more colon =>
      rw [colon] at whole
      split at read
      · cases read
        refine ⟨is_kind, ?_, behind⟩
        rw [atomChars, String.toList_ofList, colon, whole]
      next some_text =>
        cases read
        refine ⟨⟨is_kind, ?_⟩, ?_, ?_⟩
        · rw [String.toList_ofList]
          constructor
          · simpa using some_text
          · intro c member
            exact of_mem_takeWhile member
        · simp only [atomChars, String.toList_ofList, List.append_assoc, List.cons_append,
            List.takeWhile_append_dropWhile, whole]
        · intro c first
          have stop := ends_dropWhile isTextChar more c first
          rw [← Bool.not_eq_true]
          intro kind
          rw [isTextChar_of_isKindChar kind] at stop
          cases stop
    · cases read
      refine ⟨is_kind, ?_, behind⟩
      rw [atomChars, String.toList_ofList, whole]

theorem isLayout_takeWhile (s : List Char) : IsLayout (s.takeWhile Text.isLayout) := by
  intro c member
  exact of_mem_takeWhile member

theorem takeWhile_skipLayout (s : List Char) : s.takeWhile Text.isLayout ++ skipLayout s = s :=
  List.takeWhile_append_dropWhile

theorem atomChars_eq_cons {kind : String} {text? : Option String} (valid : IsAtom kind text?) :
    ∃ c more, atomChars kind text? = c :: more ∧ isKindChar c = true := by
  have is_kind : IsKind kind.toList := by
    cases text? with
    | none => exact valid
    | some text => exact valid.1
  obtain ⟨nonempty, all⟩ := is_kind
  obtain ⟨c, more, shape⟩ := List.exists_cons_of_ne_nil nonempty
  have first : isKindChar c = true := all c (shape ▸ List.mem_cons_self)
  cases text? with
  | none => exact ⟨c, more, shape, first⟩
  | some text => exact ⟨c, more ++ ':' :: text.toList, by rw [atomChars, shape]; rfl, first⟩

theorem written_eq_cons {t : Shape} {piece : List Char} (written : Written t piece) :
    ∃ c more, piece = c :: more ∧ (c = '(' ∨ isKindChar c = true) := by
  cases written with
  | atom valid =>
    obtain ⟨c, more, shape, kind⟩ := atomChars_eq_cons valid
    exact ⟨c, more, shape, Or.inr kind⟩
  | list => exact ⟨'(', _, rfl, Or.inl rfl⟩

theorem not_endsInAtom_list (inner : List Char) : ¬EndsInAtom ('(' :: (inner ++ [')'])) := by
  intro atom
  apply atom
  rw [← List.cons_append, List.getLast?_append]
  rfl

/-- Behind a piece that ends in an atom no kind begins, so that a piece that follows at once can
    only be a list. -/
def Behind (piece rest : List Char) : Prop := EndsInAtom piece → Ends isKindChar rest

theorem parted_of_behind {piece w s rest : List Char} {t : Shape} (behind : Behind piece (w ++ s ++ rest))
    (layout : IsLayout w) (written : Written t s) : Parted piece w s := by
  constructor
  · exact layout
  · rintro ends begins rfl
    obtain ⟨c, more, rfl, first⟩ := written_eq_cons written
    rcases first with rfl | kind
    · exact begins rfl
    · have stop := behind ends c rfl
      rw [kind] at stop
      nomatch stop

theorem node?_shorter {s rest : List Char} {t : Shape} (read : node? s = some (t, rest)) :
    rest.length < s.length := by
  obtain ⟨⟨t', rest', shorter⟩, _, same⟩ := Option.map_eq_some_iff.mp read
  cases same
  exact shorter

theorem node?_sound {s rest : List Char} {t : Shape} (read : node? s = some (t, rest))
    (inner : ∀ more : List Char, more.length < s.length → ∀ piece, Behind piece more →
      ∃ body, more = body ++ (nodes more).2 ∧ WrittenAll piece (nodes more).1 body) :
    ∃ piece, s = piece ++ rest ∧ Written t piece ∧ Behind piece rest := by
  by_cases opening : s.head? = some '('
  · obtain ⟨more, rfl⟩ : ∃ more, s = '(' :: more := by
      cases s with
      | nil => nomatch opening
      | cons c more => exact ⟨more, by rw [Option.some.inj opening]⟩
    rw [node?_list] at read
    split at read
    · nomatch read
    next kind text? rest' atom =>
      obtain ⟨valid, shape, ends⟩ := isAtom_of_readAtom atom
      have shorter := readAtom_shorter atom
      have := length_skipLayout_le more
      obtain ⟨body, split_body, written⟩ := inner rest' (by simp only [List.length_cons]; omega)
        (atomChars kind text?) (fun _ => ends)
      split at read
      next behind close =>
        cases read
        have whole := takeWhile_skipLayout more
        have whole' := takeWhile_skipLayout (nodes rest').2
        rw [close] at whole'
        have pieces : more = more.takeWhile Text.isLayout ++ (atomChars kind text? ++
            (body ++ ((nodes rest').2.takeWhile Text.isLayout ++ ')' :: rest))) := by
          rw [whole', ← split_body, ← shape, whole]
        refine ⟨'(' :: (more.takeWhile Text.isLayout ++ atomChars kind text? ++ body ++
          (nodes rest').2.takeWhile Text.isLayout ++ [')']), ?_, ?_, ?_⟩
        · conv => lhs; rw [pieces]
          simp only [List.cons_append, List.append_assoc, List.nil_append]
        · exact .list valid (isLayout_takeWhile more) written (isLayout_takeWhile _)
        · exact fun ends => absurd ends (not_endsInAtom_list _)
      · nomatch read
  · rw [node?_atom opening] at read
    obtain ⟨⟨⟨kind, text?⟩, rest'⟩, atom, same⟩ := Option.map_eq_some_iff.mp read
    cases same
    obtain ⟨valid, shape, ends⟩ := isAtom_of_readAtom atom
    exact ⟨_, shape, .atom valid, fun _ => ends⟩

theorem nodes_sound (s : List Char) : ∀ piece, Behind piece s →
    ∃ body, s = body ++ (nodes s).2 ∧ WrittenAll piece (nodes s).1 body := by
  induction h : s.length using Nat.strongRecOn generalizing s with
  | ind k shorter =>
    intro piece behind
    rw [nodes_eq]
    cases read : node? (skipLayout s) with
    | none => exact ⟨[], rfl, .nil⟩
    | some found =>
      obtain ⟨child, rest⟩ := found
      have whole := takeWhile_skipLayout s
      have := length_skipLayout_le s
      have := node?_shorter read
      obtain ⟨text, split_text, written, behind'⟩ := node?_sound read fun more short =>
        shorter more.length (by omega) more rfl
      obtain ⟨body, split_body, others⟩ := shorter rest.length (by omega) rest rfl text behind'
      refine ⟨s.takeWhile Text.isLayout ++ text ++ body, ?_, .cons ?_ written others⟩
      · rw [List.append_assoc, ← split_body, List.append_assoc, ← split_text, whole]
      · have joined : Behind piece (s.takeWhile Text.isLayout ++ text ++ rest) := by
          rwa [List.append_assoc, ← split_text, whole]
        exact parted_of_behind joined (isLayout_takeWhile s) written

theorem written_of_node? {s rest : List Char} {t : Shape} (read : node? s = some (t, rest)) :
    ∃ piece, s = piece ++ rest ∧ Written t piece := by
  obtain ⟨piece, split, written, _⟩ := node?_sound read fun more _ => nodes_sound more
  exact ⟨piece, split, written⟩

theorem isTextChar_of_mem_atomChars {kind : String} {text? : Option String} {c : Char}
    (valid : IsAtom kind text?) (member : c ∈ atomChars kind text?) : isTextChar c = true := by
  cases text? with
  | none => exact isTextChar_of_isKindChar (valid.2 c member)
  | some text =>
    rcases List.mem_append.mp member with in_kind | behind
    · exact isTextChar_of_isKindChar (valid.1.2 c in_kind)
    · rcases List.mem_cons.mp behind with rfl | in_text
      · decide
      · exact valid.2.2 c in_text

theorem isLayout_of_mem_atomChars {kind : String} {text? : Option String} {c : Char}
    (valid : IsAtom kind text?) (member : c ∈ atomChars kind text?) (blank : isBlank c = true) :
    Text.isLayout c = true := by
  have text := isTextChar_of_mem_atomChars valid member
  rw [isTextChar_iff, blank] at text
  nomatch text.1

theorem endsInAtom_atomChars {kind : String} {text? : Option String} (valid : IsAtom kind text?) :
    EndsInAtom (atomChars kind text?) := by
  intro last
  have text := isTextChar_of_mem_atomChars valid (List.mem_of_getLast? last)
  exact absurd text (by decide)

theorem skipLayout_append {w rest : List Char} (layout : IsLayout w)
    (ends : Ends Text.isLayout rest) : skipLayout (w ++ rest) = rest :=
  dropWhile_run layout ends

theorem ends_layout_of_isKindChar {c : Char} {rest : List Char} (kind : isKindChar c = true) :
    Ends Text.isLayout (c :: rest) :=
  ends_cons (isLayout_eq_false_of_isTextChar (isTextChar_of_isKindChar kind))

theorem ends_layout_atomChars {kind : String} {text? : Option String} (valid : IsAtom kind text?)
    (rest : List Char) : Ends Text.isLayout (atomChars kind text? ++ rest) := by
  obtain ⟨c, more, shape, first⟩ := atomChars_eq_cons valid
  rw [shape]
  exact ends_layout_of_isKindChar first

theorem ends_layout_of_written {t : Shape} {piece : List Char} (written : Written t piece)
    (rest : List Char) : Ends Text.isLayout (piece ++ rest) := by
  obtain ⟨c, more, rfl, first⟩ := written_eq_cons written
  rcases first with rfl | kind
  · exact ends_cons (by decide)
  · exact ends_layout_of_isKindChar kind

theorem closed_nil : Closed [] := by
  intro c first
  nomatch first

theorem closed_cons {c : Char} (stop : isStop c = true) (rest : List Char) : Closed (c :: rest) := by
  intro d first
  cases first
  exact stop

theorem isStop_of_isLayout {c : Char} (layout : Text.isLayout c = true) : isStop c = true := by
  simp only [isStop, layout, Bool.true_or]

theorem closed_of_isLayout {w rest : List Char} (layout : IsLayout w) (closed : Closed rest) :
    Closed (w ++ rest) := by
  cases w with
  | nil => exact closed
  | cons c more => exact closed_cons (isStop_of_isLayout (layout c List.mem_cons_self)) _

theorem closed_closing {behind : List Char} (closing : IsLayout behind) (rest : List Char) :
    Closed (behind ++ ')' :: rest) :=
  closed_of_isLayout closing (closed_cons (by decide) rest)

theorem closed_of_writtenAll {piece body rest : List Char} {children : List Shape}
    (written : WrittenAll piece children body) (closed : Closed rest) (ends : EndsInAtom piece) :
    Closed (body ++ rest) := by
  cases written with
  | nil => exact closed
  | @cons _ child _ w s body parted written others =>
    obtain ⟨layout, apart⟩ := parted
    rw [List.append_assoc, List.append_assoc]
    cases w with
    | cons c more => exact closed_cons (isStop_of_isLayout (layout c List.mem_cons_self)) _
    | nil =>
      obtain ⟨c, more, rfl, first⟩ := written_eq_cons written
      rcases first with rfl | kind
      · exact closed_cons (by decide) _
      · have begins : BeginsWithAtom (c :: more) := by
          intro opening
          cases opening
          exact absurd kind (by decide)
        exact absurd rfl (apart ends begins)

theorem node?_closing (rest : List Char) : node? (')' :: rest) = none := by
  rw [node?_atom (by simp)]
  rfl

mutual

theorem node?_of_written {t : Shape} {piece : List Char} (written : Written t piece)
    (rest : List Char) (closed : EndsInAtom piece → Closed rest) :
    node? (piece ++ rest) = some (t, rest) := by
  cases written with
  | @atom kind text? valid =>
    have opening : (atomChars kind text? ++ rest).head? ≠ some '(' := by
      obtain ⟨c, more, shape, first⟩ := atomChars_eq_cons valid
      rw [shape]
      rintro same
      cases same
      exact absurd first (by decide)
    rw [node?_atom opening, readAtom_of_isAtom valid (closed (endsInAtom_atomChars valid))]
    rfl
  | @list kind text? children before body behind valid opening all closing =>
    have inner := nodes_of_writtenAll all closing rest
    have shut : Closed (body ++ (behind ++ ')' :: rest)) :=
      closed_of_writtenAll all (closed_closing closing rest) (endsInAtom_atomChars valid)
    simp only [List.cons_append, List.append_assoc, List.nil_append]
    rw [node?_list, skipLayout_append opening (ends_layout_atomChars valid _),
      readAtom_of_isAtom valid shut]
    simp only [inner]
    rw [skipLayout_append closing (ends_cons (by decide))]
    rfl

theorem nodes_of_writtenAll {piece body behind : List Char} {children : List Shape}
    (written : WrittenAll piece children body) (closing : IsLayout behind) (rest : List Char) :
    nodes (body ++ (behind ++ ')' :: rest)) = (children, behind ++ ')' :: rest) := by
  cases written with
  | nil =>
    rw [List.nil_append, nodes_eq, skipLayout_append closing (ends_cons (by decide)), node?_closing]
  | @cons _ child children w s body parted written others =>
    have first := node?_of_written written (body ++ (behind ++ ')' :: rest))
      (closed_of_writtenAll others (closed_closing closing rest))
    have rest_read := nodes_of_writtenAll others closing rest
    rw [List.append_assoc, List.append_assoc, nodes_eq,
      skipLayout_append parted.1 (ends_layout_of_written written _), first]
    simp only [rest_read]

end

/-- The text is a piece for the tree with layout around it. -/
def Renders (t : Shape) (s : List Char) : Prop :=
  ∃ before piece behind, IsLayout before ∧ Written t piece ∧ IsLayout behind ∧
    s = before ++ piece ++ behind

theorem readChars_eq (s : List Char) :
    readChars s =
      if s.all isBlank then .error .empty
      else
        match node? (skipLayout s) with
        | none => .error (.unexpected (byteLength s - byteLength (skipLayout s)))
        | some (tree, rest) =>
          if (skipLayout rest).isEmpty then .ok tree
          else .error (.unexpected (byteLength s - byteLength (skipLayout rest))) := by
  rw [readChars, node?]
  dsimp only
  cases readNode (skipLayout s) with
  | none => rfl
  | some read => rfl

theorem isLayout_of_skipLayout {s : List Char} (skipped : skipLayout s = []) : IsLayout s := by
  have whole := takeWhile_skipLayout s
  rw [skipped, List.append_nil] at whole
  exact whole ▸ isLayout_takeWhile s

theorem skipLayout_of_isLayout {s : List Char} (layout : IsLayout s) : skipLayout s = [] := by
  have skipped := skipLayout_append layout ends_nil
  rwa [List.append_nil] at skipped

theorem renders_of_readChars {s : List Char} {t : Shape} (read : readChars s = .ok t) :
    Renders t s := by
  rw [readChars_eq] at read
  split at read
  · nomatch read
  · split at read
    · nomatch read
    next tree rest found =>
      split at read
      next no_more =>
        cases read
        obtain ⟨piece, split_piece, written⟩ := written_of_node? found
        have behind := isLayout_of_skipLayout (List.isEmpty_iff.mp no_more)
        refine ⟨s.takeWhile Text.isLayout, piece, rest, isLayout_takeWhile s, written, behind, ?_⟩
        rw [List.append_assoc, ← split_piece, takeWhile_skipLayout]
      · nomatch read

theorem not_blank_of_renders {t : Shape} {s : List Char} (renders : Renders t s) :
    s.all isBlank = false := by
  obtain ⟨before, piece, behind, _, written, _, rfl⟩ := renders
  obtain ⟨c, more, rfl, first⟩ := written_eq_cons written
  rw [List.all_eq_false]
  refine ⟨c, by simp, ?_⟩
  rw [Bool.not_eq_true]
  rcases first with rfl | kind
  · decide
  · exact isBlank_eq_false_of_isKindChar kind

theorem readChars_of_renders {t : Shape} {s : List Char} (renders : Renders t s) :
    readChars s = .ok t := by
  have not_blank := not_blank_of_renders renders
  obtain ⟨before, piece, behind, opening, written, closing, rfl⟩ := renders
  have closed : Closed behind := by
    have shut := closed_of_isLayout closing closed_nil
    rwa [List.append_nil] at shut
  have found := node?_of_written written behind (fun _ => closed)
  rw [readChars_eq, not_blank, List.append_assoc,
    skipLayout_append opening (ends_layout_of_written written behind), found]
  simp only [Bool.false_eq_true, ↓reduceIte, skipLayout_of_isLayout closing, List.isEmpty_nil]

theorem read_eq_ok_iff_renders (input : String) (t : Shape) :
    read input = .ok t ↔ Renders t input.toList := by
  have lifted : read input = .ok t ↔ readChars input.toList = .ok t := by
    rw [read]
    cases readChars input.toList with
    | error cause => exact ⟨nofun, nofun⟩
    | ok tree =>
      constructor
      · intro same
        cases same
        rfl
      · intro same
        cases same
        rfl
  rw [lifted]
  exact ⟨renders_of_readChars, readChars_of_renders⟩

mutual

theorem isLayout_of_mem_written {t : Shape} {piece : List Char} (written : Written t piece) {c : Char}
    (member : c ∈ piece) (blank : isBlank c = true) : Text.isLayout c = true := by
  cases written with
  | atom valid => exact isLayout_of_mem_atomChars valid member blank
  | list valid opening all closing =>
    simp only [List.mem_cons, List.mem_append, List.not_mem_nil, or_false] at member
    rcases member with rfl | (((before | atom) | inner) | behind) | rfl
    · exact absurd blank (by decide)
    · exact opening c before
    · exact isLayout_of_mem_atomChars valid atom blank
    · exact isLayout_of_mem_writtenAll all inner blank
    · exact closing c behind
    · exact absurd blank (by decide)

theorem isLayout_of_mem_writtenAll {piece body : List Char} {children : List Shape}
    (written : WrittenAll piece children body) {c : Char} (member : c ∈ body)
    (blank : isBlank c = true) : Text.isLayout c = true := by
  cases written with
  | nil => nomatch member
  | cons parted written others =>
    simp only [List.mem_append] at member
    rcases member with (between | first) | later
    · exact parted.1 c between
    · exact isLayout_of_mem_written written first blank
    · exact isLayout_of_mem_writtenAll others later blank

end

/-- A text is read as a tree exactly if it is a rendering of the tree; it then has no white space
    but layout, and it is a rendering of no other tree. -/
theorem read_iff_renders (input : String) (t : Shape) :
    (read input = .ok t ↔ Renders t input.toList) ∧
      (Renders t input.toList →
        (∀ c ∈ input.toList, isBlank c = true → Text.isLayout c = true) ∧
          ∀ other, Renders other input.toList → other = t) := by
  refine ⟨read_eq_ok_iff_renders input t, fun renders => ⟨?_, fun other renders' => ?_⟩⟩
  · obtain ⟨before, piece, behind, opening, written, closing, whole⟩ := renders
    intro c member blank
    rw [whole] at member
    simp only [List.mem_append] at member
    rcases member with (here | here) | here
    · exact opening c here
    · exact isLayout_of_mem_written written here blank
    · exact closing c here
  · have read := readChars_of_renders renders
    rw [readChars_of_renders renders'] at read
    exact Except.ok.inj read

end TreeVisit.Tree
