import TreeVisit.Config
import TreeVisit.Proofs.Document.Scalars
import TreeVisit.Proofs.SortedMap

/- Documents that come back from their text. A reader with room for so many nested lists and records
   reads back every document that fits into it, and finds the first bracket beyond it in the text of
   one that does not. -/
namespace TreeVisit.Document
open Text

/-- Documents that a text holds exactly: they have no floats, their whole numbers are of 64 bits, and
    the members of each record are in the order of their keys. -/
inductive Plain : Document → Prop where
  | null : Plain .null
  | flag (b : Bool) : Plain (.flag b)
  | int {n : Int} (whole : IsWhole n) : Plain (.int n)
  | text (s : String) : Plain (.text s)
  | list {items : List Document} (each : ∀ d ∈ items, Plain d) : Plain (.list items)
  | record {members : List (String × Document)} (ascending : Bindings.Ascending members)
      (each : ∀ m ∈ members, Plain m.2) : Plain (.record members)

/-- What fits is read, and what does not is refused for its depth. -/
structure Answers {α : Type} {within : List Char → Prop} (fits : Prop)
    (read : Except Stop (α × { rest : List Char // within rest })) (a : α) (rest : List Char) : Prop where
  reads : fits → Reads read a rest
  refuses : ¬fits → Refuses read .tooDeep

theorem Answers.map {α β : Type} {within within' : List Char → Prop} {fits : Prop}
    {read : Except Stop (α × { rest : List Char // within rest })} {a : α} {rest : List Char}
    (answers : Answers fits read a rest) (f : α → β) (widen : ∀ rest, within rest → within' rest) :
    Answers fits (read >>= fun found => .ok (f found.1, ⟨found.2.val, widen _ found.2.property⟩))
      (f a) rest where
  reads fit := by
    obtain ⟨_, read⟩ := answers.reads fit
    rw [read]
    exact ⟨_, rfl⟩
  refuses deep := by
    obtain ⟨left, refused⟩ := answers.refuses deep
    rw [refused]
    exact ⟨left, rfl⟩

theorem Answers.andThen {α : Type} {within : List Char → Prop} {first second fits : Prop}
    {read : Except Stop (α × { rest : List Char // within rest })} {a : α} {rest : List Char}
    (both : fits ↔ first ∧ second) (onwards : first → Answers second read a rest)
    (refused : ¬first → Refuses read .tooDeep) : Answers fits read a rest where
  reads fit := by
    obtain ⟨fit, fit'⟩ := both.mp fit
    exact (onwards fit).reads fit'
  refuses deep := by
    by_cases fit : first
    · exact (onwards fit).refuses fun fit' => deep (both.mpr ⟨fit, fit'⟩)
    · exact refused fit

theorem Answers.of_reads {α : Type} {within : List Char → Prop} {fits : Prop}
    {read : Except Stop (α × { rest : List Char // within rest })} {a : α} {rest : List Char}
    (fit : fits) (reads : Reads read a rest) : Answers fits read a rest where
  reads _ := reads
  refuses deep := absurd fit deep

/-- The document is read back from its text, wherever its text ends, if there is room for it. -/
def ReadsBack (item : Reader Document) (room : Nat) (d : Document) : Prop :=
  ∀ rest, Ends isNumberPart rest → Answers (d.depth ≤ room) (item (d.chars ++ rest)) d rest

theorem skipLayout_cons {c : Char} (ink : isLayout c = false) (rest : List Char) :
    skipLayout (c :: rest) = c :: rest :=
  List.dropWhile_cons_of_neg (by simp [ink])

theorem ne_of_isDigit {c sign : Char} (digit : isDigit c = true) (other : isDigit sign = false) :
    c ≠ sign := by
  rintro rfl
  rw [digit] at other
  nomatch other

theorem isLayout_eq_false_of_isDigit {c : Char} (digit : isDigit c = true) : isLayout c = false := by
  rw [← Bool.not_eq_true]
  intro layout
  simp only [isLayout, Bool.or_eq_true, beq_iff_eq] at layout
  rcases layout with ((space | tab) | carriage_return) | line_feed
  · exact ne_of_isDigit digit (by decide) space
  · exact ne_of_isDigit digit (by decide) tab
  · exact ne_of_isDigit digit (by decide) carriage_return
  · exact ne_of_isDigit digit (by decide) line_feed

theorem toDigits_eq_cons (n : Nat) : ∃ c more, Nat.toDigits 10 n = c :: more ∧ isDigit c = true := by
  obtain ⟨c, more, shape⟩ := List.exists_cons_of_ne_nil (toDigits_ne_nil n)
  exact ⟨c, more, shape, isDigit_of_mem_toDigits n c (shape ▸ List.mem_cons_self)⟩

theorem Plain.chars_eq_cons {d : Document} (plain : d.Plain) :
    ∃ c more, d.chars = c :: more ∧ isLayout c = false ∧ c ≠ ']' := by
  cases plain with
  | null => exact ⟨'n', _, by rw [chars], by decide, by decide⟩
  | flag b =>
    cases b with
    | false => exact ⟨'f', _, by rw [chars], by decide, by decide⟩
    | true => exact ⟨'t', _, by rw [chars], by decide, by decide⟩
  | @int n whole =>
    cases n with
    | ofNat n =>
      obtain ⟨c, more, shape, digit⟩ := toDigits_eq_cons n
      exact ⟨c, more, shape, isLayout_eq_false_of_isDigit digit, ne_of_isDigit digit (by decide)⟩
    | negSucc n => exact ⟨'-', _, rfl, by decide, by decide⟩
  | text s => exact ⟨'"', _, rfl, by decide, by decide⟩
  | @list items =>
    cases items with
    | nil => exact ⟨'[', _, by rw [chars], by decide, by decide⟩
    | cons d rest => exact ⟨'[', _, by rw [chars], by decide, by decide⟩
  | @record members =>
    cases members with
    | nil => exact ⟨'\x7b', _, by rw [chars], by decide, by decide⟩
    | cons m rest => exact ⟨'\x7b', _, by rw [chars], by decide, by decide⟩

section
variable {item : Reader Document} {room : Nat}

theorem readItems_last {d : Document} {s rest : List Char} (first : Reads (item s) d (']' :: rest)) :
    Reads (readItems item s) [d] rest := by
  obtain ⟨shorter, read⟩ := first
  rw [readItems, read]
  exact ⟨_, rfl⟩

theorem readItems_next {d : Document} {s more : List Char} (first : Reads (item s) d (',' :: more))
    (no_end : (skipLayout more).head? ≠ some ']') {fits : Prop} {ds : List Document}
    {rest : List Char} (others : Answers fits (readItems item more) ds rest) :
    Answers fits (readItems item s) (d :: ds) rest := by
  obtain ⟨shorter, read⟩ := first
  rw [List.length_cons] at shorter
  rw [readItems, read]
  change Answers fits (if (skipLayout more).head? = some ']' then _ else _) _ _
  rw [if_neg no_end]
  exact others.map (d :: ·) fun _ within => by omega

theorem readItems_refused {s : List Char} {cause : SyntaxCause} (first : Refuses (item s) cause) :
    Refuses (readItems item s) cause := by
  obtain ⟨left, refused⟩ := first
  rw [readItems, refused]
  exact ⟨left, rfl⟩

section
variable {key : String} {cs s unread : List Char} (spelled : String.ofList cs = key)
  (named : Reads (readText s) cs (':' :: unread))
include spelled named

theorem readMembers_last {d : Document} {rest : List Char}
    (first : Reads (item unread) d ('\x7d' :: rest)) :
    Reads (readMembers item s) [(key, d)] rest := by
  subst spelled
  obtain ⟨shorter, read⟩ := named
  obtain ⟨shorter', read'⟩ := first
  rw [readMembers, read]
  change Reads (item unread >>= _) _ _
  rw [read']
  exact ⟨_, rfl⟩

omit spelled in
theorem readMembers_refused {cause : SyntaxCause} (first : Refuses (item unread) cause) :
    Refuses (readMembers item s) cause := by
  obtain ⟨shorter, read⟩ := named
  obtain ⟨left, refused⟩ := first
  rw [readMembers, read]
  change Refuses (item unread >>= _) _
  rw [refused]
  exact ⟨left, rfl⟩

theorem readMembers_next {d : Document} {more : List Char}
    (first : Reads (item unread) d (',' :: '"' :: more)) {fits : Prop}
    {members : List (String × Document)} {rest : List Char}
    (others : Answers fits (readMembers item more) members rest) :
    Answers fits (readMembers item s) ((key, d) :: members) rest := by
  subst spelled
  obtain ⟨shorter, read⟩ := named
  obtain ⟨shorter', read'⟩ := first
  rw [List.length_cons] at shorter
  rw [List.length_cons, List.length_cons] at shorter'
  rw [readMembers, read]
  change Answers fits (item unread >>= _) _ _
  rw [read']
  exact others.map ((String.ofList cs, d) :: ·) fun _ within => by omega

end

theorem depthItems_le_iff {d : Document} {items : List Document} :
    depthItems (d :: items) ≤ room ↔ d.depth ≤ room ∧ depthItems items ≤ room := by
  rw [depthItems]
  exact Nat.max_le

theorem depthMembers_le_iff {key : String} {d : Document} {members : List (String × Document)} :
    depthMembers ((key, d) :: members) ≤ room ↔ d.depth ≤ room ∧ depthMembers members ≤ room := by
  rw [depthMembers]
  exact Nat.max_le

theorem readItems_printed {d : Document} {items : List Document}
    (back : ∀ e ∈ d :: items, ReadsBack item room e) (plain : ∀ e ∈ items, e.Plain) (rest : List Char) :
    Answers (depthItems (d :: items) ≤ room) (readItems item (d.chars ++ (itemChars items ++ rest)))
      (d :: items) rest := by
  induction items generalizing d with
  | nil =>
    have first := back d List.mem_cons_self (']' :: rest) (ends_cons (by decide))
    apply Answers.andThen depthItems_le_iff
    · intro fit
      exact .of_reads (Nat.zero_le room) (readItems_last (first.reads fit))
    · intro deep
      exact readItems_refused (first.refuses deep)
  | cons e more ih =>
    obtain ⟨here, others⟩ := List.forall_mem_cons.mp back
    obtain ⟨plain_next, plain_others⟩ := List.forall_mem_cons.mp plain
    rw [itemChars, List.cons_append, List.append_assoc]
    have first := here (',' :: (e.chars ++ (itemChars more ++ rest))) (ends_cons (by decide))
    have no_end : (skipLayout (e.chars ++ (itemChars more ++ rest))).head? ≠ some ']' := by
      obtain ⟨c, tail, shape, ink, no_bracket⟩ := plain_next.chars_eq_cons
      rw [shape, List.cons_append, skipLayout_cons ink]
      intro bracket
      exact no_bracket (Option.some.inj bracket)
    apply Answers.andThen depthItems_le_iff
    · intro fit
      exact readItems_next (first.reads fit) no_end (ih others plain_others)
    · intro deep
      exact readItems_refused (first.refuses deep)

theorem readMembers_printed {key : String} {d : Document} {members : List (String × Document)}
    (back : ∀ m ∈ (key, d) :: members, ReadsBack item room m.2) (rest : List Char) :
    Answers (depthMembers ((key, d) :: members) ≤ room)
      (readMembers item (key.toList.flatMap escapedChar ++
        '"' :: ':' :: (d.chars ++ (memberChars members ++ rest))))
      ((key, d) :: members) rest := by
  induction members generalizing key d with
  | nil =>
    have first := back (key, d) List.mem_cons_self ('\x7d' :: rest) (ends_cons (by decide))
    have named := readText_printed key.toList (':' :: (d.chars ++ '\x7d' :: rest))
    apply Answers.andThen depthMembers_le_iff
    · intro fit
      exact .of_reads (Nat.zero_le room)
        (readMembers_last String.ofList_toList named (first.reads fit))
    · intro deep
      exact readMembers_refused named (first.refuses deep)
  | cons m more ih =>
    obtain ⟨key', e⟩ := m
    obtain ⟨here, others⟩ := List.forall_mem_cons.mp back
    let unread := key'.toList.flatMap escapedChar ++ '"' :: ':' :: (e.chars ++ (memberChars more ++ rest))
    have first := here (',' :: '"' :: unread) (ends_cons (by decide))
    have named := readText_printed key.toList (':' :: (d.chars ++ ',' :: '"' :: unread))
    have printed : memberChars ((key', e) :: more) ++ rest = ',' :: '"' :: unread := by
      simp [memberChars, textChars, unread]
    rw [printed]
    apply Answers.andThen depthMembers_le_iff
    · intro fit
      exact readMembers_next String.ofList_toList named (first.reads fit) (ih others)
    · intro deep
      exact readMembers_refused named (first.refuses deep)

end

section
variable {item? : Option (Reader Document)} {d : Document} {unread rest : List Char}

theorem readValueWith_text {cs : List Char} {s : String} (spelled : String.ofList cs = s)
    (read : Reads (readText unread) cs rest) :
    Reads (readValueWith item? ('"' :: unread)) (.text s) rest := by
  subst spelled
  obtain ⟨shorter, read⟩ := read
  refine ⟨Nat.lt_succ_of_lt shorter, ?_⟩
  change readText unread >>= _ = _
  rw [read]
  rfl

theorem readValueWith_negative (read : Reads (readNumber true unread) d rest) :
    Reads (readValueWith item? ('-' :: unread)) d rest := by
  obtain ⟨shorter, read⟩ := read
  refine ⟨Nat.lt_succ_of_lt shorter, ?_⟩
  change readNumber true unread >>= _ = _
  rw [read]
  rfl

theorem readValueWith_digit {c : Char} (digit : isDigit c = true)
    (read : Reads (readNumber false (c :: unread)) d rest) :
    Reads (readValueWith item? (c :: unread)) d rest := by
  obtain ⟨shorter, read⟩ := read
  have skipped := skipLayout_cons (isLayout_eq_false_of_isDigit digit) unread
  unfold readValueWith
  split
  next nothing => nomatch skipped.symm.trans nothing
  next _ _ next =>
    rw [skipped] at next
    cases next
    split
    case h_8 =>
      rw [if_pos digit, read]
      exact ⟨_, rfl⟩
    all_goals exact absurd digit (by decide)

end

section
variable {item : Reader Document} {room : Nat} {fits : Prop} {unread rest : List Char}

theorem readList_items {d : Document} (plain : d.Plain) (behind : List Char) :
    readList item (d.chars ++ behind) = readItems item (d.chars ++ behind) := by
  obtain ⟨c, more, shape, ink, no_bracket⟩ := plain.chars_eq_cons
  have skipped : skipLayout (d.chars ++ behind) = c :: (more ++ behind) := by
    rw [shape, List.cons_append, skipLayout_cons ink]
  unfold readList
  split
  next nothing => nomatch skipped.symm.trans nothing
  next _ bracket =>
    rw [skipped] at bracket
    exact absurd (List.cons.inj bracket).1 no_bracket
  next => rfl

theorem readsBack_list {items : List Document} (back : ∀ d ∈ items, ReadsBack item room d)
    (plain : ∀ d ∈ items, d.Plain) :
    ReadsBack (readValueWith (some item)) (room + 1) (.list items) := by
  intro rest _
  have deeper : (Document.list items).depth ≤ room + 1 ↔ depthItems items ≤ room := by
    rw [depth]
    omega
  rw [deeper]
  cases items with
  | nil => exact .of_reads (Nat.zero_le room) ⟨Nat.lt_add_of_pos_right Nat.two_pos, rfl⟩
  | cons d more =>
    obtain ⟨plain_first, plain_others⟩ := List.forall_mem_cons.mp plain
    have listed := readItems_printed back plain_others rest
    rw [← readList_items plain_first] at listed
    rw [chars, List.cons_append, List.append_assoc]
    exact listed.map Document.list fun _ within => Nat.lt_succ_of_lt within

theorem readRecord_members {members : List (String × Document)}
    (named : Answers fits (readMembers item unread) members rest) :
    Answers fits (readRecord item ('"' :: unread)) members rest :=
  named.map id fun _ within => Nat.lt_succ_of_lt within

theorem readsBack_record {members : List (String × Document)}
    (back : ∀ m ∈ members, ReadsBack item room m.2) (ascending : Bindings.Ascending members) :
    ReadsBack (readValueWith (some item)) (room + 1) (.record members) := by
  intro rest _
  have deeper : (Document.record members).depth ≤ room + 1 ↔ depthMembers members ≤ room := by
    rw [depth]
    omega
  have kept : ofMembers members = .record members := by
    rw [ofMembers, Bindings.ofPairs_eq_self ascending]
  rw [deeper]
  cases members with
  | nil => exact .of_reads (Nat.zero_le room) ⟨Nat.lt_add_of_pos_right Nat.two_pos, rfl⟩
  | cons m more =>
    obtain ⟨key, d⟩ := m
    have named := readRecord_members (readMembers_printed back rest)
    have printed : (Document.record ((key, d) :: more)).chars ++ rest =
        '\x7b' :: '"' :: (key.toList.flatMap escapedChar ++
          '"' :: ':' :: (d.chars ++ (memberChars more ++ rest))) := by
      simp [chars, textChars]
    rw [printed, ← kept]
    exact named.map ofMembers fun _ within => Nat.lt_succ_of_lt within

end

theorem refuses_list (items : List Document) (rest : List Char) :
    Refuses (readValueWith none ((Document.list items).chars ++ rest)) .tooDeep := by
  cases items with
  | nil => exact ⟨_, rfl⟩
  | cons d more => exact ⟨_, by rw [chars, List.cons_append]; rfl⟩

theorem refuses_record (members : List (String × Document)) (rest : List Char) :
    Refuses (readValueWith none ((Document.record members).chars ++ rest)) .tooDeep := by
  cases members with
  | nil => exact ⟨_, rfl⟩
  | cons m more => exact ⟨_, by rw [chars, List.cons_append]; rfl⟩

section
variable {item? : Option (Reader Document)} {rest : List Char}

theorem reads_null : Reads (readValueWith item? (null.chars ++ rest)) null rest := by
  rw [chars]
  exact ⟨_, rfl⟩

theorem reads_flag (b : Bool) : Reads (readValueWith item? ((flag b).chars ++ rest)) (flag b) rest := by
  cases b with
  | false => rw [chars]; exact ⟨_, rfl⟩
  | true => rw [chars]; exact ⟨_, rfl⟩

theorem reads_int {n : Int} (whole : IsWhole n) (ends : Ends isNumberPart rest) :
    Reads (readValueWith item? ((int n).chars ++ rest)) (int n) rest := by
  rw [chars]
  cases n with
  | ofNat n =>
    obtain ⟨fits, exactly⟩ := wholeNumber_ofNat whole
    obtain ⟨c, more, shape, digit⟩ := toDigits_eq_cons n
    have number := readNumber_printed false fits ends
    rw [exactly, shape] at number
    rw [intChars, shape]
    exact readValueWith_digit digit number
  | negSucc n =>
    obtain ⟨fits, exactly⟩ := wholeNumber_negSucc whole
    have number := readNumber_printed true fits ends
    rw [exactly] at number
    exact readValueWith_negative number

theorem reads_text (s : String) :
    Reads (readValueWith item? ((text s).chars ++ rest)) (text s) rest := by
  have printed : (text s).chars ++ rest = '"' :: (s.toList.flatMap escapedChar ++ '"' :: rest) := by
    simp [chars, textChars]
  rw [printed]
  exact readValueWith_text String.ofList_toList (readText_printed s.toList rest)

end

theorem readsBack_of_reads {d : Document} (flat : d.depth = 0) (room : Nat)
    (reads : ∀ {item? rest}, Ends isNumberPart rest →
      Reads (readValueWith item? (d.chars ++ rest)) d rest) :
    ReadsBack (readValue room) room d := by
  intro rest ends
  have fits : d.depth ≤ room := flat ▸ Nat.zero_le room
  cases room with
  | zero => exact .of_reads fits (reads ends)
  | succ room => exact .of_reads fits (reads ends)

theorem readsBack_of_nested {d : Document} (nested : 0 < d.depth) (room : Nat)
    (refused : ∀ rest, Refuses (readValueWith none (d.chars ++ rest)) .tooDeep)
    (within : ∀ room, ReadsBack (readValueWith (some (readValue room))) (room + 1) d) :
    ReadsBack (readValue room) room d := by
  cases room with
  | zero =>
    intro rest _
    exact ⟨fun fit => absurd nested (Nat.not_lt.mpr fit), fun _ => refused rest⟩
  | succ room => exact within room

theorem Plain.readsBack {d : Document} (plain : d.Plain) (room : Nat) :
    ReadsBack (readValue room) room d := by
  induction plain generalizing room with
  | null => exact readsBack_of_reads rfl room fun _ => reads_null
  | flag b => exact readsBack_of_reads rfl room fun _ => reads_flag b
  | int whole => exact readsBack_of_reads rfl room (reads_int whole)
  | text s => exact readsBack_of_reads rfl room fun _ => reads_text s
  | list each ih =>
    exact readsBack_of_nested (by rw [depth]; exact Nat.succ_pos _) room (refuses_list _)
      fun room => readsBack_list (fun d member => ih d member room) each
  | record ascending _ ih =>
    exact readsBack_of_nested (by rw [depth]; exact Nat.succ_pos _) room (refuses_record _)
      fun room => readsBack_record (fun m member => ih m member room) ascending

theorem Plain.readChars_printed {d : Document} (plain : d.Plain) (room : Nat) :
    (d.depth ≤ room → readChars room d.chars = .ok d) ∧
      (room < d.depth → Refuses (readChars room d.chars) .tooDeep) := by
  have back := plain.readsBack room [] (by intro c first; nomatch first)
  rw [List.append_nil] at back
  constructor
  · intro fit
    obtain ⟨_, read⟩ := back.reads fit
    rw [readChars, read]
    rfl
  · intro deep
    obtain ⟨left, refused⟩ := back.refuses (Nat.not_le.mpr deep)
    rw [readChars, refused]
    exact ⟨left, rfl⟩

end TreeVisit.Document

namespace TreeVisit.Config
open Document

theorem toDocument_plain {c : Config} (plain : ∀ m ∈ c.values.bindings, m.2.Plain) :
    c.toDocument.Plain :=
  .record c.values.ascending plain

theorem ofDocument_toDocument (c : Config) : ofDocument c.toDocument = .ok c := by
  rw [toDocument, ofDocument, SortedMap.ofPairs_bindings]

/-- A configuration without floats is read back from its text as long as the reader has room for
    its nesting, and is refused as a text from there on. -/
theorem survives_its_text (c : Config) (plain : ∀ m ∈ c.values.bindings, m.2.Plain) :
    (c.toDocument.depth ≤ 127 → ofText c.print = .ok c) ∧
      (127 < c.toDocument.depth → ∃ fault, ofText c.print = .error (.syntaxFault fault) ∧
        fault.cause = .tooDeep) := by
  obtain ⟨reads, refuses⟩ := (toDocument_plain plain).readChars_printed maxDepth
  have spelled : c.print.toList = c.toDocument.chars := String.toList_ofList
  constructor
  · intro fit
    unfold ofText Document.read readWithin
    rw [spelled, reads fit]
    exact ofDocument_toDocument c
  · intro deep
    obtain ⟨left, refused⟩ := refuses deep
    unfold ofText Document.read readWithin
    rw [spelled, refused]
    exact ⟨_, rfl, rfl⟩

def enclosed (d : Document) : Nat → Document
  | 0 => d
  | n + 1 => .list [enclosed d n]

theorem enclosed_plain {d : Document} (plain : d.Plain) (n : Nat) : (enclosed d n).Plain := by
  induction n with
  | zero => exact plain
  | succ n ih => exact .list (List.forall_mem_singleton.mpr ih)

theorem depth_enclosed (d : Document) (n : Nat) : (enclosed d n).depth = d.depth + n := by
  induction n with
  | zero => rfl
  | succ n ih =>
    rw [enclosed, depth, depthItems, ih]
    exact congrArg (· + 1) (Nat.max_zero _)

theorem quote_and_bounds_on_the_last_level :
    let bounds := [.text "\"", .int 18446744073709551615, .int (-9223372036854775808)]
    let last : Config := Config.set ∅ "" (enclosed (.list bounds) 125)
    let beyond : Config := Config.set ∅ "" (enclosed (.list bounds) 126)
    ofText last.print = .ok last ∧
      ∃ fault, ofText beyond.print = .error (.syntaxFault fault) ∧ fault.cause = .tooDeep := by
  intro bounds last beyond
  have plain : (Document.list bounds).Plain := by
    refine .list (List.forall_mem_cons.mpr ⟨.text _, List.forall_mem_cons.mpr ⟨.int ?_,
      List.forall_mem_singleton.mpr (.int ?_)⟩⟩)
    · rw [isWhole_iff]
      decide
    · rw [isWhole_iff]
      decide
  have depths (n : Nat) : (Config.set ∅ "" (enclosed (.list bounds) n)).toDocument.depth = n + 2 := by
    have one_level : (Document.list bounds).depth = 1 := rfl
    change max (enclosed (.list bounds) n).depth 0 + 1 = n + 2
    rw [depth_enclosed, one_level]
    omega
  have survives := survives_its_text last (List.forall_mem_singleton.mpr (enclosed_plain plain 125))
  have refused := survives_its_text beyond (List.forall_mem_singleton.mpr (enclosed_plain plain 126))
  rw [depths] at survives refused
  exact ⟨survives.1 (by decide), refused.2 (by decide)⟩

end TreeVisit.Config
