import TreeVisit.Proofs.Tree.Refusal

/- How far reading goes. A node takes a piece of the input and looks no further than that piece needs:
   the piece alone is read as the same node. The piece has a character for each of its nodes, so that
   children are read round after round, with no more rounds than characters taken. The rounds end
   behind the last child, before the layout that was skipped to look for one more. -/
namespace TreeVisit.Tree
open Text Node

mutual

theorem size_le_length {t : Shape} {piece : List Char} (written : Written t piece) :
    t.size ≤ piece.length := by
  cases written with
  | @atom kind text? valid =>
    obtain ⟨c, more, shape, _⟩ := atomChars_eq_cons valid
    simp [size, sizes, shape]
  | list valid opening all closing =>
    have inside := sizes_le_length all
    simp only [size, List.length_cons, List.length_append]
    omega

theorem sizes_le_length {piece body : List Char} {children : List Shape}
    (written : WrittenAll piece children body) : sizes children ≤ body.length := by
  cases written with
  | nil => exact Nat.le_refl 0
  | cons parted written others =>
    have first := size_le_length written
    have later := sizes_le_length others
    simp only [sizes, List.length_append]
    omega

end

theorem node?_eq_none_iff {s : List Char} : node? s = none ↔ NoNode s := by
  constructor
  · exact noNode_of_unread
  · intro none_begins
    cases read : node? s with
    | none => rfl
    | some found =>
      obtain ⟨piece, split, written⟩ := written_of_node? read
      exact absurd written (none_begins _ piece _ split)

theorem node?_piece {t : Shape} {piece : List Char} (written : Written t piece) :
    node? piece = some (t, []) := by
  have found := node?_of_written written [] fun _ => closed_nil
  rwa [List.append_nil] at found

theorem ne_nil_of_written {t : Shape} {piece : List Char} (written : Written t piece) :
    piece ≠ [] := by
  obtain ⟨c, more, rfl, _⟩ := written_eq_cons written
  exact List.cons_ne_nil c more

/-- The text is empty or ends in a character that is no layout. -/
def Trimmed (s : List Char) : Prop := ∀ c ∈ s.getLast?, Text.isLayout c = false

theorem trimmed_nil : Trimmed [] := by
  intro c last
  nomatch last

theorem trimmed_append {s rest : List Char} (behind : Trimmed rest) (before : rest = [] → Trimmed s) :
    Trimmed (s ++ rest) := by
  intro c last
  rw [List.getLast?_append] at last
  cases ending : rest.getLast? with
  | none =>
    rw [ending] at last
    exact before (List.getLast?_eq_none_iff.mp ending) c last
  | some d =>
    rw [ending] at last
    exact behind c (ending ▸ last)

theorem trimmed_written {t : Shape} {piece : List Char} (written : Written t piece) :
    Trimmed piece := by
  cases written with
  | atom valid =>
    intro c last
    exact isLayout_eq_false_of_isTextChar
      (isTextChar_of_mem_atomChars valid (List.mem_of_getLast? last))
  | list =>
    rw [← List.cons_append]
    apply trimmed_append
    · intro c last
      cases last
      decide
    · intro none
      nomatch none

/-- These children are read one after another, each behind layout, and `later` is left. -/
inductive Rounds : List Char → List Shape → List Char → Prop
  | none {s} : Rounds s [] s
  | next {s child rest children later} (read : node? (skipLayout s) = some (child, rest))
      (others : Rounds rest children later) : Rounds s (child :: children) later

variable {s later stop : List Char} {children : List Shape}

theorem Rounds.taken (rounds : Rounds s children later) :
    ∃ body, s = body ++ later ∧ sizes children ≤ body.length ∧ Trimmed body := by
  induction rounds with
  | none => exact ⟨[], rfl, Nat.le_refl 0, trimmed_nil⟩
  | @next s child rest children later read others ih =>
    obtain ⟨piece, split, written⟩ := written_of_node? read
    obtain ⟨body, rfl, inside, trimmed⟩ := ih
    have whole := takeWhile_skipLayout s
    have first := size_le_length written
    refine ⟨s.takeWhile Text.isLayout ++ (piece ++ body), ?_, ?_, ?_⟩
    · rw [List.append_assoc, List.append_assoc, ← split, whole]
    · simp only [sizes, List.length_append]
      omega
    · have ends : Trimmed (piece ++ body) :=
        trimmed_append trimmed fun _ => trimmed_written written
      apply trimmed_append ends
      intro none
      exact absurd (List.append_eq_nil_iff.mp none).1 (ne_nil_of_written written)

theorem Rounds.nodes_eq (rounds : Rounds s children later) :
    nodes s = (children ++ (nodes later).1, (nodes later).2) := by
  induction rounds with
  | none => rfl
  | @next s child rest children later read others ih =>
    have first : nodes s = (child :: (nodes rest).1, (nodes rest).2) := by rw [Tree.nodes_eq, read]
    rw [first, ih, List.cons_append]

theorem nodes_of_unread (unread : node? (skipLayout s) = none) : nodes s = ([], s) := by
  rw [nodes_eq, unread]

theorem rounds_nodes (s : List Char) :
    Rounds s (nodes s).1 (nodes s).2 ∧ node? (skipLayout (nodes s).2) = none := by
  induction h : s.length using Nat.strongRecOn generalizing s with
  | ind k shorter =>
    cases read : node? (skipLayout s) with
    | none =>
      rw [nodes_of_unread read]
      exact ⟨.none, read⟩
    | some found =>
      obtain ⟨child, rest⟩ := found
      have := length_skipLayout_le s
      have := node?_shorter read
      obtain ⟨others, stuck⟩ := shorter rest.length (by omega) rest rfl
      rw [nodes_eq, read]
      exact ⟨.next read others, stuck⟩

theorem nodes_eq_iff :
    nodes s = (children, stop) ↔ Rounds s children stop ∧ node? (skipLayout stop) = none := by
  constructor
  · intro read
    have run := rounds_nodes s
    rwa [read] at run
  · rintro ⟨rounds, stuck⟩
    rw [rounds.nodes_eq, nodes_of_unread stuck, List.append_nil]

theorem node?_list_iff {inner rest : List Char} {t : Shape} :
    node? ('(' :: inner) = some (t, rest) ↔
      ∃ behind stop, readAtom (skipLayout inner) = some ((t.kind, t.text?), behind) ∧
        Rounds behind t.children stop ∧ skipLayout stop = ')' :: rest := by
  rw [node?_list]
  constructor
  · intro read
    split at read
    · nomatch read
    next kind text? behind atom =>
      split at read
      next after close =>
        cases read
        exact ⟨behind, _, atom, (rounds_nodes behind).1, close⟩
      · nomatch read
  · rintro ⟨behind, stop, atom, rounds, close⟩
    have stuck : node? (skipLayout stop) = none := close ▸ node?_closing rest
    have all : nodes behind = (t.children, stop) := nodes_eq_iff.mpr ⟨rounds, stuck⟩
    rw [atom]
    simp only [all, close]
    rw [← t.eta]
    rfl

/-- A node takes a piece from the start of the input, with at least as many characters as the tree has
    nodes, and the piece alone is read as the same tree to its end; where none is read, none begins. The
    rounds of a repetition, at any time, are no more than the characters that they took, the last of which
    is no layout, and the repetition goes on from there to the one end that it has on each input: where
    behind the layout no node is read. A list is the atom and the rounds behind it, if they lead to where
    it is closed. -/
theorem nodes_take_their_pieces (s : List Char) :
    (∀ t rest, node? s = some (t, rest) →
      ∃ piece, s = piece ++ rest ∧ piece ≠ [] ∧ t.size ≤ piece.length ∧
        node? piece = some (t, [])) ∧
    (node? s = none ↔ NoNode s) ∧
    (∀ children later, Rounds s children later →
      (∃ body, s = body ++ later ∧ children.length ≤ body.length ∧ Trimmed body) ∧
        nodes s = (children ++ (nodes later).1, (nodes later).2)) ∧
    (∀ children stop, nodes s = (children, stop) ↔
      Rounds s children stop ∧ node? (skipLayout stop) = none) ∧
    ∀ t rest, node? ('(' :: s) = some (t, rest) ↔
      ∃ behind stop, readAtom (skipLayout s) = some ((t.kind, t.text?), behind) ∧
        Rounds behind t.children stop ∧ skipLayout stop = ')' :: rest := by
  refine ⟨?_, node?_eq_none_iff, ?_, fun _ _ => nodes_eq_iff, fun _ _ => node?_list_iff⟩
  · intro t rest read
    obtain ⟨piece, split, written⟩ := written_of_node? read
    exact ⟨piece, split, ne_nil_of_written written, size_le_length written, node?_piece written⟩
  · intro children later rounds
    obtain ⟨body, split, inside, trimmed⟩ := rounds.taken
    have counted := length_le_sizes children
    exact ⟨⟨body, split, Nat.le_trans counted inside, trimmed⟩, rounds.nodes_eq⟩

theorem colon_behind_two_nodes :
    let g : Shape := .mk () "g" none [.mk () "h" (some "x") []]
    let a : Shape := .mk () "a" none []
    let s := "(g h:x )a :b".toList
    (node? s = some (g, "a :b".toList) ∧ node? "(g h:x )".toList = some (g, [])) ∧
    Rounds s [g, a] " :b".toList ∧ nodes s = ([g, a], " :b".toList) ∧
    ∃ body, s = body ++ " :b".toList ∧ 2 ≤ body.length ∧ Trimmed body := by
  intro g a s
  have inner : node? (skipLayout " h:x )a :b".toList) =
      some (.mk () "h" (some "x") [], " )a :b".toList) := by
    rw [node?_atom (by decide)]
    rfl
  have listed : node? s = some (g, "a :b".toList) :=
    node?_list_iff.mpr ⟨" h:x )a :b".toList, " )a :b".toList, rfl, .next inner .none, rfl⟩
  have leaf : node? (skipLayout "a :b".toList) = some (a, " :b".toList) := by
    rw [node?_atom (by decide)]
    rfl
  have unread : node? (skipLayout " :b".toList) = none := by
    rw [node?_atom (by decide)]
    rfl
  have rounds : Rounds s [g, a] " :b".toList := .next listed (.next leaf .none)
  obtain ⟨pieces, _, taken, ends, _⟩ := nodes_take_their_pieces s
  obtain ⟨piece, split, _, _, alone⟩ := pieces g _ listed
  have joined : "(g h:x )".toList ++ "a :b".toList = piece ++ "a :b".toList := split
  have same : "(g h:x )".toList = piece := List.append_cancel_right joined
  exact ⟨⟨listed, same ▸ alone⟩, rounds, (ends _ _).mpr ⟨rounds, unread⟩, (taken _ _ rounds).1⟩

end TreeVisit.Tree
