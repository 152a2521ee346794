import TreeVisit.Proofs.Board
import TreeVisit.Proofs.Tree.Spots
import TreeVisit.Proofs.Walk.Ending

/- One edit. A visit that counts its calls, and asks for a change at one of them alone, changes its
   tree at the node of that number in pre-order. The nodes above that node are built anew around the
   trees on either side of the way to it, and these stay the very trees that they were. -/
namespace TreeVisit

/-- A node that is passed on the way to one below it, with the trees on either side of the way. -/
structure Frame (μ : Type) where
  mark : μ
  kind : String
  text? : Option String
  before : List (Node μ)
  after : List (Node μ)

def Frame.around {μ : Type} (n : Node μ) (before after : List (Node μ)) : Frame μ :=
  ⟨n.mark, n.kind, n.text?, before, after⟩

abbrev Spine (μ : Type) := List (Frame μ)

namespace Spine
variable {μ : Type}

/-- What stands for the root when this stands for the node at the end of the way. -/
def graft : Spine μ → Splice (Node μ) → Splice (Node μ)
  | [], splice => splice
  | f :: inner, splice =>
    .keep (.mk f.mark f.kind f.text? (f.before ++ ((graft inner splice).nodes ++ f.after)))

def rank : Spine μ → Nat
  | [] => 0
  | f :: inner => 1 + Node.sizes f.before + rank inner

/-- The same way through new nodes, whose marks are drawn from here on, the innermost first. -/
def renewed (next : Nat) : Spine Mark → Spine Mark
  | [] => []
  | f :: inner => { f with mark := .rebuilt (next + inner.length) } :: renewed next inner

theorem graft_cons (f : Frame μ) (inner : Spine μ) {splice : Splice (Node μ)} {p : Node μ}
    (grafted : graft inner splice = .keep p) :
    graft (f :: inner) splice = .keep (.mk f.mark f.kind f.text? (f.before ++ p :: f.after)) := by
  simp [graft, grafted, Splice.nodes]

theorem preorder_rank {spine : Spine μ} {x p : Node μ} (whole : graft spine (.keep x) = .keep p) :
    p.preorder[rank spine]? = some x := by
  induction spine generalizing p with
  | nil =>
    cases whole
    simp [rank, Node.preorder_eq_cons]
  | cons f inner ih =>
    obtain ⟨q, below⟩ : ∃ q, graft inner (.keep x) = .keep q := by
      cases inner with
      | nil => exact ⟨x, rfl⟩
      | cons g inner => exact ⟨_, rfl⟩
    rw [graft_cons f inner below] at whole
    cases whole
    have place : rank (f :: inner) = Node.sizes f.before + rank inner + 1 := by
      simp only [rank]
      omega
    have inside : rank inner < q.preorder.length :=
      (List.getElem?_eq_some_iff.mp (ih below)).1
    rw [Node.preorder_eq_cons, Node.children_mk, place, List.getElem?_cons_succ,
      Node.preorders_append, ← Node.length_preorders, List.getElem?_append_right (by omega)]
    simpa [Node.preorders, List.getElem?_append_left inside] using ih below

theorem mem_renewed_marks {next : Nat} {spine : Spine Mark} {mark : Mark}
    (member : mark ∈ (renewed next spine).map (·.mark)) :
    ∃ i < spine.length, mark = .rebuilt (next + i) := by
  induction spine with
  | nil => cases member
  | cons f inner ih =>
    simp only [renewed, List.map_cons] at member
    rcases List.mem_cons.mp member with rfl | deeper
    · exact ⟨inner.length, by simp, rfl⟩
    · obtain ⟨i, under, drawn⟩ := ih deeper
      refine ⟨i, ?_, drawn⟩
      rw [List.length_cons]
      omega

theorem nodup_renewed_marks (next : Nat) (spine : Spine Mark) :
    ((renewed next spine).map (·.mark)).Nodup := by
  induction spine with
  | nil => exact List.nodup_nil
  | cons f inner ih =>
    rw [renewed, List.map_cons, List.nodup_cons]
    refine ⟨?_, ih⟩
    intro member
    obtain ⟨i, under, drawn⟩ := mem_renewed_marks member
    have same := Mark.rebuilt.inj drawn
    omega

theorem graft_renewed_ne {s : Supply} {spine : Spine Mark} {answer : Splice Tree} {x p : Tree}
    (whole : graft spine (.keep x) = .keep p) (past : s.Past p) (apart : answer ≠ .keep x) :
    graft (renewed s.next spine) answer ≠ .keep p := by
  cases spine with
  | nil =>
    cases whole
    exact apart
  | cons f inner =>
    intro same
    have mark : p.mark = .rebuilt (s.next + inner.length) := by
      rw [← Splice.keep.inj same]
      rfl
    have old := past _ mark
    omega

theorem rebuild_around {n x p node : Tree} {left right : List Tree} {spine : Spine Mark}
    {answer : Splice Tree} {answers : List (Splice Tree)} {s inner supply : Supply}
    (split : n.children = left ++ p :: right) (whole : graft spine (.keep x) = .keep p)
    (past : s.Past p)
    (stand : answers = left.map .keep ++
      graft (if answer = .keep x then spine else renewed s.next spine) answer :: right.map .keep)
    (drawn : inner.next = s.next + if answer = .keep x then 0 else spine.length)
    (rebuilt : (Tree.rebuild n answers).run inner = (node, supply)) :
    let here := Frame.around n left right :: spine
    .keep node = graft (if answer = .keep x then here else renewed s.next here) answer ∧
      supply.next = s.next + if answer = .keep x then 0 else here.length := by
  intro here
  by_cases same : answer = .keep x
  · rw [if_pos same] at stand drawn ⊢
    have unchanged : answers = n.children.map .keep := by
      rw [stand, same, whole, split, List.map_append, List.map_cons]
    obtain ⟨rfl, rfl⟩ := Tree.rebuild_unchanged rebuilt unchanged
    rw [if_pos same, same, graft_cons _ spine whole, Frame.around, ← split, Node.eta]
    exact ⟨rfl, drawn⟩
  · rw [if_neg same] at stand drawn ⊢
    have changed : answers ≠ n.children.map .keep := by
      intro unchanged
      rw [stand, split, List.map_append, List.map_cons] at unchanged
      have child := (List.cons.inj (List.append_cancel_left unchanged)).1
      exact graft_renewed_ne whole past same child
    rcases Tree.rebuild_cases rebuilt with ⟨unchanged, _⟩ | ⟨_, rfl, grown⟩
    · exact absurd unchanged changed
    · rw [if_neg same, stand, drawn]
      refine ⟨?_, ?_⟩
      · simp [here, renewed, graft, Frame.around, Node.withChildren]
      · rw [grown, drawn, List.length_cons]
        omega

end Spine

section
variable {κ ω ρ τ σ ε : Type} [Storable τ] [DecidableEq τ]

/-- Counts the calls under the key, and says at one of them that the node is to be edited. Where the
    count would start again from zero it stays, so that no later call has the same number. -/
def editing (key : String) (k : Count) (edit : Decision Tree) : Visit κ Tree τ σ ε := fun _ _ => do
  let desk ← get
  let (calls, board) := desk.board.increment key
  set { desk with board := if calls = 0 then desk.board else board }
  return if calls = k then edit else .recurse

theorem editing_follows (key : String) (k : Count) (edit : Decision Tree) :
    (editing key k edit : Visit κ Tree τ σ ε).Follows fun _ board =>
      let (calls, next) := board.increment key
      (if calls = k then edit else .recurse, if calls = 0 then board else next) := by
  intro cx n desk
  exact ⟨desk.own, rfl⟩

theorem Count.add_one_eq_iff {c k : Count} (positive : 1 ≤ (k : Nat)) :
    c + 1 = k ↔ (c : Nat) + 1 = k := by
  have word := c.toNat_lt
  have target := k.toNat_lt
  rw [← UInt64.toNat_inj, UInt64.toNat_add, UInt64.toNat_one]
  omega

theorem editing_asked {key : String} {k : Count} {edit decision : Decision Tree} {cx : κ} {n : Tree}
    {st st' : Progress τ σ × ρ} (positive : 1 ≤ (k : Nat))
    (asked : visitNode (editing key k edit : Visit κ Tree τ σ ε) cx n st = .ok decision st') :
    decision = (if st.1.count key + 1 = k then edit else .recurse) ∧
      st'.1.count key = min (st.1.count key + 1) Count.greatest := by
  obtain ⟨decided, left⟩ := Prod.mk.inj ((editing_follows key k edit).asked asked)
  constructor
  · rw [← decided]
    exact if_congr (Count.add_one_eq_iff positive) rfl rfl
  · rw [Progress.count, ← left]
    change ((if (st.1.desk.board.increment key).1 = 0 then _ else _ : Board τ).count key : Nat) =
      min ((st.1.desk.board.count key : Nat) + 1) _
    rcases Nat.lt_or_eq_of_le (Count.le_greatest (st.1.desk.board.count key)) with below | full
    · have next := Board.toNat_increment below
      have nonzero : (st.1.desk.board.increment key).1 ≠ 0 := by
        intro zero
        rw [zero, UInt64.toNat_zero] at next
        omega
      rw [if_neg nonzero]
      change ((st.1.desk.board.increment key).2.count key : Nat) = _
      rw [Board.count_increment, next]
      omega
    · rw [if_pos (Board.increment_greatest (UInt64.toNat_inj.mp full))]
      omega

variable {options : Options} {key : String} {k : Count} {edit : Decision Tree} {cx : κ}
  {ns : List Tree} {st final : Progress τ σ × Supply} {course : Course κ Tree τ ε}
  {answers : List (Splice Tree)}

theorem Tree.host_children (options : Options) : (Tree.host options).children = Node.children := rfl

theorem Walked.unedited (positive : 1 ≤ (k : Nat))
    (walked : Walked (Tree.host options) (editing key k edit) cx ns st course final)
    (complete : course.outcome = .ok answers)
    (elsewhere : k ≤ st.1.count key ∨ st.1.count key + Node.sizes ns < k) :
    answers = ns.map .keep ∧ final.2 = st.2 ∧
      final.1.count key = min (st.1.count key + Node.sizes ns) Count.greatest := by
  have fits := Count.le_greatest k
  induction walked generalizing answers with
  | @done st =>
    cases complete
    have word : st.1.count key ≤ Count.greatest := Count.le_greatest _
    refine ⟨rfl, rfl, ?_⟩
    rw [Node.sizes]
    omega
  | failed => cases complete
  | @settled n rest st st' final decision answer later asked settles _ others =>
    obtain ⟨decided, _⟩ := editing_asked positive asked
    have nonempty := n.size_pos
    rw [Node.sizes] at elsewhere
    rw [if_neg (by omega)] at decided
    rw [decided] at settles
    cases settles
  | @entered n rest st st' inner final below answers node supply later asked _ finished rebuilt _
      inside others =>
    obtain ⟨_, complete', rfl⟩ := complete_later complete
    obtain ⟨_, counted⟩ := editing_asked positive asked
    have size := n.size_eq
    rw [Node.sizes] at elsewhere ⊢
    rw [Tree.host_children] at inside
    obtain ⟨kept, drawn, reached⟩ := inside finished (by omega)
    obtain ⟨rfl, rfl⟩ := Tree.rebuild_unchanged rebuilt kept
    obtain ⟨later_kept, later_drawn, later_reached⟩ := others complete' (by simp only; omega)
    rw [later_kept, later_drawn, later_reached, drawn, visitNode_supply asked]
    refine ⟨rfl, rfl, ?_⟩
    simp only
    omega
  | broken asked _ fails => cases fails.symm.trans complete

/-- Where the edit is made at one of the trees or below it, the other trees are kept as they are. The
    node that is edited is found at the end of a way from its tree, and if it changes, so does every
    node on the way. -/
theorem Walked.edited (positive : 1 ≤ (k : Nat)) {answer : Splice Tree} (settles : edit.splice? = some answer)
    (walked : Walked (Tree.host options) (editing key k edit) cx ns st course final)
    (complete : course.outcome = .ok answers) (issued : st.2.Issued ns)
    (before : st.1.count key < (k : Nat))
    (within : k ≤ st.1.count key + Node.sizes ns) :
    ∃ left p right spine x,
      ns = left ++ p :: right ∧ Spine.graft spine (.keep x) = .keep p ∧
      st.1.count key + Node.sizes left + Spine.rank spine + 1 = k ∧
      answers = left.map .keep ++ Spine.graft
        (if answer = .keep x then spine else Spine.renewed st.2.next spine) answer ::
        right.map .keep ∧
      final.2.next = st.2.next + (if answer = .keep x then 0 else spine.length) ∧
      k ≤ final.1.count key := by
  have fits := Count.le_greatest k
  induction walked generalizing answers with
  | done =>
    rw [Node.sizes] at within
    omega
  | failed => cases complete
  | @settled n rest st st' final decision answer' later asked settles' walked_later _ =>
    obtain ⟨_, complete', rfl⟩ := complete_later complete
    obtain ⟨decided, counted⟩ := editing_asked positive asked
    have here : st.1.count key + 1 = k := by
      by_contra elsewhere
      rw [decided, if_neg elsewhere] at settles'
      cases settles'
    obtain rfl : answer = answer' := by
      rw [decided, if_pos here, settles] at settles'
      exact Option.some.inj settles'
    obtain ⟨kept, drawn, reached⟩ := walked_later.unedited positive complete' (by omega)
    refine ⟨[], n, rest, [], n, rfl, rfl, ?_, ?_, ?_, ?_⟩
    · simpa [Node.sizes, Spine.rank] using here
    · rw [kept]
      split <;> rfl
    · rw [drawn, visitNode_supply asked]
      simp
    · omega
  | @entered n rest st st' inner final below answers node supply later asked walked_below finished
      rebuilt walked_later inside others =>
    obtain ⟨_, complete', rfl⟩ := complete_later complete
    obtain ⟨decided, counted⟩ := editing_asked positive asked
    have not_here : st.1.count key + 1 ≠ k := by
      intro here
      rw [if_pos here] at decided
      rw [← decided] at settles
      cases settles
    obtain ⟨issued_below, past, issued_later⟩ := issued.entered asked walked_below rebuilt
    have size := n.size_eq
    rw [Node.sizes] at within
    rw [Tree.host_children] at walked_below inside
    by_cases below_here : k ≤ st'.1.count key + Node.sizes n.children
    · -- the edit is made below this node, which becomes the first on the way to it
      obtain ⟨left, p, right, spine, x, split, whole, rank, stand, drawn, reached⟩ :=
        inside finished issued_below (by omega) below_here
      rw [split] at issued_below
      have past : st'.2.Past p := (Supply.issued_append.mp issued_below).2.root
      obtain ⟨built, grown⟩ := Spine.rebuild_around split whole past stand drawn rebuilt
      obtain ⟨kept, last, counted'⟩ := walked_later.unedited positive complete' (Or.inl reached)
      rw [← visitNode_supply asked]
      refine ⟨[], n, rest, .around n left right :: spine, x, rfl, ?_, ?_, ?_, ?_, ?_⟩
      · rw [Spine.graft_cons _ spine whole, Frame.around, ← split, n.eta]
      · simp only [Node.sizes, Spine.rank, Frame.around]
        omega
      · rw [built, kept]
        rfl
      · rw [last, grown]
      · rw [counted']
        simp only
        omega
    · -- the edit is made behind this node, which has been walked without any change
      obtain ⟨kept, drawn, reached⟩ := walked_below.unedited positive finished (by omega)
      obtain ⟨rfl, rfl⟩ := Tree.rebuild_unchanged rebuilt kept
      obtain ⟨left, p, right, spine, x, split, whole, rank, stand, grown, last⟩ :=
        others complete' issued_later (by simp only; omega) (by simp only; omega)
      rw [drawn, visitNode_supply asked] at stand grown
      refine ⟨node :: left, p, right, spine, x, ?_, whole, ?_, ?_, grown, last⟩
      · rw [split, List.cons_append]
      · rw [Node.sizes]
        simp only at rank
        omega
      · rw [stand, List.map_cons, List.cons_append]
  | broken asked _ fails => cases fails.symm.trans complete

end

/-- The visit edits at its k-th call, whatever the edit is. Then the node of that number in pre-order is
    at the end of a way from the root, and what is asked for stands in its place among its siblings, or
    for the root itself, with the trees on either side of the way kept as they are. The way leads
    through new nodes of the same kinds and texts, unless the node was replaced by itself, when the
    root is kept. -/
theorem single_edit_is_local {χ π ο τ σ ε : Type} [Storable τ] [DecidableEq τ] [Checked π χ]
    {level : Level} (args : Args χ π ο level) (options : Options) (root : Tree) (key : String)
    {k : Count} (positive : 1 ≤ (k : Nat)) (within : k ≤ root.size) {edit : Decision Tree}
    {answer : Splice Tree} (settles : edit.splice? = some answer) (own : σ) (supply : Supply)
    (issued : supply.Issued [root]) :
    let pass : BoundPass level χ π ο (Visit (level.Context Tree Options χ π) Tree τ σ ε) :=
      ⟨⟨editing key k edit⟩, args⟩
    let result := ((pass.transform (Tree.host options) root).run (own, supply)).1.1
    ∃ (spine : Spine Mark) (x : Tree),
      root.descendants[(k : Nat) - 1]? = some x ∧ Spine.rank spine + 1 = k ∧
      Spine.graft spine (.keep x) = .keep root ∧
      (answer = .keep x → result = .ok (.keep root)) ∧
      (answer ≠ .keep x →
        result = .ok (Spine.graft (Spine.renewed supply.next spine) answer)) ∧
      ((Spine.renewed supply.next spine).map (·.mark)).Nodup ∧
      ∀ n, supply.Past n → n.mark ∉ (Spine.renewed supply.next spine).map (·.mark) := by
  intro pass result
  obtain ⟨course, final, splice, whole, ends⟩ := pass.exists_course_of_follows
    (editing_follows key k edit) (Tree.host options) root (own, supply)
  have within_walk : k ≤ 0 + Node.sizes [root] := by
    simp only [Node.sizes]
    omega
  obtain ⟨left, p, right, spine, x, split, grafted, rank, stand, _⟩ :=
    whole.walked.edited positive settles whole.outcome issued positive within_walk
  obtain ⟨rfl, rfl, rfl⟩ : left = [] ∧ p = root ∧ right = [] := by
    cases left with
    | nil => simpa [eq_comm] using split
    | cons _ _ => simp at split
  have place : Spine.rank spine + 1 = k := by
    simpa [Node.sizes] using rank
  have answered : splice = Spine.graft
      (if answer = .keep x then spine else Spine.renewed supply.next spine) answer :=
    List.singleton_inj.mp stand
  refine ⟨spine, x, ?listed, place, grafted, ?same, ?changed, Spine.nodup_renewed_marks _ _, ?new⟩
  case listed =>
    rw [← place, Node.descendants_eq_preorder]
    exact Spine.preorder_rank grafted
  case same =>
    intro same
    rw [if_pos same, same, grafted] at answered
    rw [← answered]
    exact ends
  case changed =>
    intro changed
    rw [if_neg changed] at answered
    rw [← answered]
    exact ends
  case new =>
    intro n past member
    obtain ⟨i, _, mark⟩ := Spine.mem_renewed_marks member
    have old := past _ mark
    omega

theorem fourth_node_is_flattened :
    let pass : BoundPass .raw Checker Program Options
        (Visit (Level.raw.Context Tree Options Checker Program) Tree Empty Unit Fault) :=
      ⟨⟨editing "n" 4 (.flatten [])⟩, .raw⟩
    let a : Tree := .mk (.given 1) "a" none []
    let b : Tree := .mk (.given 2) "b" none []
    let root : Tree :=
      .mk (.given 0) "module" none [a, .mk (.given 3) "block" none [b, b]]
    let result := ((pass.transform (Tree.host default) root).run ((), ⟨7⟩)).1.1
    4 ≤ root.size ∧ Supply.Issued ⟨7⟩ [root] ∧
      result = .ok (.keep
        (.mk (.rebuilt 8) "module" none [a, .mk (.rebuilt 7) "block" none [b]])) ∧
      ∃ (spine : Spine Mark) (x : Tree),
        root.descendants[3]? = some x ∧ Spine.graft spine (.keep x) = .keep root ∧
        (Splice.flatten [] ≠ .keep x →
          result = .ok (Spine.graft (Spine.renewed 7 spine) (.flatten []))) := by
  intro pass a b root result
  have within : ((4 : Count) : Nat) ≤ root.size := by decide
  have issued : Supply.Issued ⟨7⟩ [root] := by decide
  have ok : result = .ok (.keep
      (.mk (.rebuilt 8) "module" none [a, .mk (.rebuilt 7) "block" none [b]])) := by
    decide +kernel
  have settles : (Decision.flatten [] : Decision Tree).splice? = some (.flatten []) := rfl
  obtain ⟨spine, x, listed, _, grafted, _, changed, _⟩ :=
    single_edit_is_local (τ := Empty) (ε := Fault) (Args.raw : Args Checker Program Options .raw)
      default root "n" (k := 4) (by decide) within settles () ⟨7⟩ issued
  exact ⟨within, issued, ok, spine, x, listed, grafted, changed⟩

end TreeVisit
