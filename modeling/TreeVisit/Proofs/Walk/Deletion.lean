import TreeVisit.Proofs.Tree.Spots
import TreeVisit.Proofs.Walk.Ending
import TreeVisit.Proofs.Walk.Rebuilding

/- Deletion by kind and text. A pass that removes the nodes that meet a test takes them out with all
   that is below them and leaves the rest in place. Nothing that meets the test is left, so the pass
   changes nothing a second time; and two such passes in turn do what one does for both tests. -/
namespace TreeVisit

universe u

abbrev AtomTest := String → Option String → Bool

namespace AtomTest

def or (p q : AtomTest) : AtomTest := fun kind text? => p kind text? || q kind text?

theorem or_comm (p q : AtomTest) : p.or q = q.or p := by
  funext kind text?
  exact Bool.or_comm _ _

end AtomTest

namespace Node
variable {μ : Type u}

def meets (n : Node μ) (p : AtomTest) : Bool := p n.kind n.text?

mutual

/-- The tree without the nodes below its root that meet the test, and all that is below those. -/
def without (p : AtomTest) : Node μ → Node μ
  | mk m k t cs => mk m k t (withoutAll p cs)

def withoutAll (p : AtomTest) : List (Node μ) → List (Node μ)
  | [] => []
  | c :: rest => if c.meets p then withoutAll p rest else c.without p :: withoutAll p rest

end

theorem without_eq (p : AtomTest) (n : Node μ) :
    n.without p = mk n.mark n.kind n.text? (withoutAll p n.children) := by
  cases n
  rfl

@[simp] theorem meets_without (p q : AtomTest) (n : Node μ) :
    (n.without p).meets q = n.meets q := by
  cases n
  rfl

@[simp] theorem meets_or (p q : AtomTest) (n : Node μ) :
    n.meets (p.or q) = (n.meets p || n.meets q) := rfl

@[simp] theorem withoutAll_nil (p : AtomTest) : withoutAll p ([] : List (Node μ)) = [] := rfl

theorem withoutAll_cons_of_meets {p : AtomTest} {n : Node μ} (meets : n.meets p = true)
    (rest : List (Node μ)) : withoutAll p (n :: rest) = withoutAll p rest := by
  simp [withoutAll, meets]

theorem withoutAll_cons_of_not {p : AtomTest} {n : Node μ} (fails : n.meets p = false)
    (rest : List (Node μ)) : withoutAll p (n :: rest) = n.without p :: withoutAll p rest := by
  simp [withoutAll, fails]

theorem withoutAll_withoutAll (p q : AtomTest) (ns : List (Node μ)) :
    withoutAll q (withoutAll p ns) = withoutAll (p.or q) ns := by
  induction ns using forest_induction with
  | nil => rfl
  | cons n rest below later =>
    cases first : n.meets p with
    | true =>
      have either : n.meets (p.or q) = true := by simp [first]
      rw [withoutAll_cons_of_meets first, withoutAll_cons_of_meets either, later]
    | false =>
      have second : (n.without p).meets q = n.meets (p.or q) := by simp [first]
      rw [withoutAll_cons_of_not first]
      cases either : n.meets (p.or q) with
      | true =>
        rw [withoutAll_cons_of_meets (second.trans either), withoutAll_cons_of_meets either, later]
      | false =>
        rw [withoutAll_cons_of_not (second.trans either), withoutAll_cons_of_not either, later]
        simp [without_eq, below]

theorem without_without (p q : AtomTest) (n : Node μ) :
    (n.without p).without q = n.without (p.or q) := by
  simp [without_eq, withoutAll_withoutAll]

end Node

/-- Neither the node of the place nor one above it meets the test. -/
def Spot.spared {μ : Type u} (p : AtomTest) (s : Spot μ) : Bool :=
  !s.node.meets p && s.above.all fun a => !a.node.meets p

namespace Node
variable {μ : Type u}

theorem filter_spared_below {p : AtomTest} {above : List (Place μ)} {a : Place μ} (member : a ∈ above)
    (meets : a.node.meets p = true) (number : Nat) (ns : List (Node μ)) :
    (spotsAll above number ns).filter (Spot.spared p) = [] := by
  rw [List.filter_eq_nil_iff]
  intro s place spared
  have higher : a ∈ s.above := spotsAll_above above number ns s place member
  simp only [Spot.spared, Bool.and_eq_true, List.all_eq_true] at spared
  simpa [meets] using spared.2 a higher

theorem outlines_withoutAll (p : AtomTest) {above : List (Place μ)}
    (outside : ∀ a ∈ above, a.node.meets p = false) (number : Nat) (ns : List (Node μ)) :
    outlines above.length (withoutAll p ns) =
      ((spotsAll above number ns).filter (Spot.spared p)).map Spot.entry := by
  induction ns using forest_induction generalizing above number with
  | nil => rfl
  | cons n rest below later =>
    rw [spotsAll_cons, spotsFrom_eq, List.cons_append, List.filter_cons, List.filter_append]
    cases here : n.meets p with
    | true =>
      have gone : (spotsAll (⟨number, n⟩ :: above) (number + 1) n.children).filter
          (Spot.spared p) = [] :=
        filter_spared_below List.mem_cons_self here (number + 1) n.children
      rw [withoutAll_cons_of_meets here, gone, later outside (number + n.size)]
      simp [Spot.spared, here]
    | false =>
      have spared : Spot.spared p ⟨⟨number, n⟩, above⟩ = true := by
        simpa [Spot.spared, here] using outside
      have onwards : ∀ a ∈ (⟨number, n⟩ : Place μ) :: above, a.node.meets p = false :=
        List.forall_mem_cons.mpr ⟨here, outside⟩
      have children := below onwards (number + 1)
      rw [withoutAll_cons_of_not here, outlines_cons, later outside (number + n.size), spared]
      simp [without_eq, Spot.entry, Spot.depth, ← children]

theorem outline_without (p : AtomTest) {n : Node μ} (fails : n.meets p = false) :
    (n.without p).outline 0 = (n.spots.filter (Spot.spared p)).map Spot.entry := by
  have none_above : ∀ a ∈ ([] : List (Place μ)), a.node.meets p = false := by simp
  have listed := outlines_withoutAll p none_above 0 [n]
  rw [withoutAll_cons_of_not fails, withoutAll_nil] at listed
  rw [outline_eq_outlines, spots_eq_spotsAll]
  exact listed

section
variable {μ : Type}

@[simp] theorem meets_shape (p : AtomTest) (n : Node μ) : n.shape.meets p = n.meets p := by
  rw [shape_eq]
  rfl

theorem shapes_withoutAll (p : AtomTest) (ns : List (Node μ)) :
    (withoutAll p ns).map shape = withoutAll p (ns.map shape) := by
  induction ns using forest_induction with
  | nil => rfl
  | cons n rest below later =>
    cases here : n.meets p with
    | true =>
      rw [withoutAll_cons_of_meets here, List.map_cons, withoutAll_cons_of_meets (by simpa), later]
    | false =>
      rw [withoutAll_cons_of_not here, List.map_cons, List.map_cons,
        withoutAll_cons_of_not (by simpa), later]
      simp [shape_eq, without_eq, below]

theorem shape_without (p : AtomTest) (n : Node μ) : (n.without p).shape = n.shape.without p := by
  simp [shape_eq, without_eq, shapes_withoutAll]

theorem outlines_shapes (depth : Nat) (ns : List (Node μ)) :
    outlines depth (ns.map shape) = outlines depth ns := by
  induction ns using forest_induction generalizing depth with
  | nil => rfl
  | cons n rest below later =>
    rw [List.map_cons, outlines_cons, outlines_cons, later, shape_eq]
    simp [below]

theorem outline_shape (depth : Nat) (n : Node μ) : n.shape.outline depth = n.outline depth := by
  rw [outline_eq_outlines, outline_eq_outlines]
  exact outlines_shapes depth [n]

theorem fails_of_without {p : AtomTest} {n t : Node μ} (fails : n.meets p = false)
    (same : t.shape = (n.without p).shape) : ∀ m ∈ preorders [t], m.meets p = false := by
  intro m member
  have listed : outlines 0 [t] = (n.spots.filter (Spot.spared p)).map Spot.entry := by
    rw [← outline_eq_outlines, ← outline_shape, same, outline_shape, outline_without p fails]
  have atom : (m.kind, m.text?) ∈ (preorders [t]).map fun n => (n.kind, n.text?) :=
    List.mem_map_of_mem member
  rw [← outlines_atoms 0, listed, List.map_map] at atom
  obtain ⟨s, place, same⟩ := List.mem_map.mp atom
  have spared := (List.mem_filter.mp place).2
  obtain ⟨kind, text⟩ := Prod.mk.inj same
  simp only [Spot.spared, Bool.and_eq_true, Bool.not_eq_true'] at spared
  unfold meets
  rw [← kind, ← text]
  exact spared.1

def deleted (p : AtomTest) (n : Node μ) : Splice (Node μ) :=
  if n.meets p then .remove else .keep (n.without p)

theorem nodes_deleted (p : AtomTest) (ns : List (Node μ)) :
    (ns.map (deleted p)).flatMap Splice.nodes = withoutAll p ns := by
  induction ns with
  | nil => rfl
  | cons n rest later =>
    rw [List.map_cons, List.flatMap_cons, later]
    cases here : n.meets p with
    | true => simp [deleted, here, withoutAll_cons_of_meets, Splice.nodes]
    | false => simp [deleted, here, withoutAll_cons_of_not, Splice.nodes]

theorem deleted_congr (p : AtomTest) {n n' : Node μ} (same : n'.shape = n.shape) :
    (n'.deleted p).map shape = (n.deleted p).map shape := by
  have meets : n'.meets p = n.meets p := by
    rw [← meets_shape, same, meets_shape]
  cases here : n.meets p with
  | true => simp [deleted, meets, here, Splice.map]
  | false => simp [deleted, meets, here, Splice.map, shape_without, same]

end
end Node

variable {κ ω ρ χ π ο τ σ ε : Type} [Storable τ]

def deleting (p : AtomTest) : Visit κ Tree τ σ ε := fun _ n =>
  return if n.meets p then .remove else .recurse

theorem deleting_follows (p : AtomTest) :
    (deleting p : Visit κ Tree τ σ ε).Follows fun n board =>
      (if n.meets p then .remove else .recurse, board) := by
  intro cx n desk
  exact ⟨desk.own, rfl⟩

section
variable {p : AtomTest} {host : Host Tree ω ρ} {cx : κ} {ns : List Tree}
  {st final : Progress τ σ × ρ} {course : Course κ Tree τ ε} {answers : List (Splice Tree)}

theorem Walked.deletes (splices : host.Splices)
    (walked : Walked host (deleting p) cx ns st course final) (complete : course.outcome = .ok answers) :
    answers.map (Splice.map Node.shape) =
      ns.map fun n => (n.deleted p).map Node.shape := by
  induction walked generalizing answers with
  | done =>
    cases complete
    rfl
  | failed => cases complete
  | @settled n rest st st' final decision answer later asked settles _ others =>
    obtain ⟨_, complete', rfl⟩ := complete_later complete
    have decided := congrArg Prod.fst ((deleting_follows p).asked asked)
    rw [List.map_cons, List.map_cons, others complete']
    cases here : n.meets p with
    | true =>
      obtain rfl : Decision.remove = decision := by simpa [here] using decided
      cases settles
      simp [Node.deleted, here]
    | false =>
      obtain rfl : Decision.recurse = decision := by simpa [here] using decided
      cases settles
  | @entered n rest st st' inner final below answers node supply later asked _ finished rebuilt _
      inside others =>
    obtain ⟨_, complete', rfl⟩ := complete_later complete
    obtain ⟨kind, text, spliced⟩ := splices.rebuild n answers inner.2 node (congrArg Prod.fst rebuilt)
    have decided := congrArg Prod.fst ((deleting_follows p).asked asked)
    have here : n.meets p = false := by simpa using decided
    rw [splices.children] at inside
    have children : node.children.map Node.shape = (Node.withoutAll p n.children).map Node.shape := by
      rw [spliced, Splice.shapes_nodes, inside finished, ← Node.nodes_deleted, List.map_flatMap]
      simp [List.flatMap_map, Splice.nodes_map]
    have built : node.shape = (n.without p).shape := by
      rw [Node.shape_eq, kind, text, children, Node.shape_eq, Node.without_eq]
      rfl
    rw [List.map_cons, List.map_cons, others complete']
    simp [Node.deleted, here, Splice.map, built]
  | broken asked _ fails => cases fails.symm.trans complete

theorem Walked.deletes_nothing {options : Options} {st final : Progress τ σ × Supply}
    (walked : Walked (Tree.host options) (deleting p) cx ns st course final)
    (fails : ∀ n ∈ Node.preorders ns, n.meets p = false) :
    course.outcome = .ok (ns.map .keep) := by
  apply walked.kept_of_quiet
  intro call member
  have kept := fails call.node (walked.node_mem call member)
  have reply := walked.follows (deleting_follows p) call member
  rw [kept] at reply
  exact Or.inl reply

end

variable [Checked π χ] {level : Level}

/-- Two passes in turn, the second over the tree that the first leaves. Where it does not leave one
    tree in the place of its own there is nothing more to do. -/
def BoundPass.andThen {ν : Type}
    (first second : BoundPass level χ π ο (Visit (level.Context ν ω χ π) ν τ σ ε))
    (host : Host ν ω ρ) (unit : ν) : StateM (σ × ρ) (Except ε (Splice ν)) := do
  let (result, _) ← first.transform host unit
  match result with
  | .ok (.keep t) => return (← second.transform host t).1
  | _ => return result

theorem BoundPass.andThen_keep {ν : Type}
    {first second : BoundPass level χ π ο (Visit (level.Context ν ω χ π) ν τ σ ε)}
    {host : Host ν ω ρ} {unit t : ν} {st : σ × ρ}
    (kept : ((first.transform host unit).run st).1.1 = .ok (.keep t)) :
    ((first.andThen second host unit).run st).1 =
      ((second.transform host t).run ((first.transform host unit).run st).2).1.1 := by
  simp only [andThen, StateT.run_bind]
  generalize (first.transform host unit).run st = ran at kept ⊢
  obtain ⟨⟨result, event⟩, last⟩ := ran
  cases kept
  rfl

theorem BoundPass.andThen_remove {ν : Type}
    {first second : BoundPass level χ π ο (Visit (level.Context ν ω χ π) ν τ σ ε)}
    {host : Host ν ω ρ} {unit : ν} {st : σ × ρ}
    (removed : ((first.transform host unit).run st).1.1 = .ok .remove) :
    ((first.andThen second host unit).run st).1 = .ok .remove := by
  simp only [andThen, StateT.run_bind]
  generalize (first.transform host unit).run st = ran at removed ⊢
  obtain ⟨⟨result, event⟩, last⟩ := ran
  cases removed
  rfl

def deletion (p : AtomTest) (args : Args χ π ο level) :
    BoundPass level χ π ο (Visit (level.Context Tree Options χ π) Tree τ σ ε) :=
  ⟨⟨deleting p⟩, args⟩

variable (args : Args χ π ο level) (options : Options)

theorem deletion_result (p : AtomTest) (root : Tree) (st : σ × Supply) :
    let pass : BoundPass level χ π ο (Visit (level.Context Tree Options χ π) Tree τ σ ε) :=
      deletion p args
    ∃ splice, ((pass.transform (Tree.host options) root).run st).1.1 = .ok splice ∧
      splice.map Node.shape = (root.deleted p).map Node.shape := by
  intro pass
  obtain ⟨course, final, splice, whole, result⟩ :=
    pass.exists_course_of_follows (deleting_follows p) (Tree.host options) root st
  have deleted := whole.walked.deletes (Tree.host_splices options) whole.outcome
  exact ⟨splice, result, List.singleton_inj.mp deleted⟩

theorem deletion_removes {p : AtomTest} {root : Tree} (meets : root.meets p = true)
    (st : σ × Supply) :
    let pass : BoundPass level χ π ο (Visit (level.Context Tree Options χ π) Tree τ σ ε) :=
      deletion p args
    ((pass.transform (Tree.host options) root).run st).1.1 = .ok .remove := by
  intro pass
  obtain ⟨splice, result, deleted⟩ := deletion_result (τ := τ) (ε := ε) args options p root st
  rw [result]
  cases splice <;> simp_all [Node.deleted, Splice.map]

theorem deletion_keeps {p : AtomTest} {root : Tree} (fails : root.meets p = false)
    (st : σ × Supply) :
    let pass : BoundPass level χ π ο (Visit (level.Context Tree Options χ π) Tree τ σ ε) :=
      deletion p args
    ∃ t, ((pass.transform (Tree.host options) root).run st).1.1 = .ok (.keep t) ∧
      t.shape = (root.without p).shape := by
  intro pass
  obtain ⟨splice, result, deleted⟩ := deletion_result (τ := τ) (ε := ε) args options p root st
  rw [result]
  cases splice <;> simp_all [Node.deleted, Splice.map]

theorem deletion_again {p : AtomTest} {root t : Tree} (fails : root.meets p = false)
    (left : t.shape = (root.without p).shape) (st : σ × Supply) :
    let pass : BoundPass level χ π ο (Visit (level.Context Tree Options χ π) Tree τ σ ε) :=
      deletion p args
    ((pass.transform (Tree.host options) t).run st).1.1 = .ok (.keep t) := by
  intro pass
  obtain ⟨course, final, splice, whole, result⟩ :=
    pass.exists_course_of_follows (deleting_follows p) (Tree.host options) t st
  have kept := whole.walked.deletes_nothing (Node.fails_of_without fails left)
  have same : [splice] = [t].map .keep := Except.ok.inj (whole.outcome.symm.trans kept)
  rw [result, List.singleton_inj.mp same]

theorem deletions_in_turn (p q : AtomTest) (root : Tree) (st st' : σ × Supply) :
    let pass (p : AtomTest) :
        BoundPass level χ π ο (Visit (level.Context Tree Options χ π) Tree τ σ ε) :=
      deletion p args
    ((((pass p).andThen (pass q)) (Tree.host options) root).run st).1.map (Splice.map Node.shape) =
      (((pass (p.or q)).transform (Tree.host options) root).run st').1.1.map
        (Splice.map Node.shape) := by
  intro pass
  obtain ⟨both, result, deleted⟩ :=
    deletion_result (τ := τ) (ε := ε) args options (p.or q) root st'
  rw [show _ = Except.ok both from result]
  cases first : root.meets p with
  | true =>
    have removed : (((pass p).transform (Tree.host options) root).run st).1.1 = .ok .remove :=
      deletion_removes args options first st
    rw [BoundPass.andThen_remove removed]
    simp only [Except.map, deleted]
    simp [Node.deleted, first, Splice.map]
  | false =>
    obtain ⟨t, kept, left⟩ := deletion_keeps (τ := τ) (ε := ε) args options first st
    obtain ⟨splice, result', deleted'⟩ := deletion_result (τ := τ) (ε := ε) args options q t
      (((pass p).transform (Tree.host options) root).run st).2
    have onwards : (root.without p).deleted q = root.deleted (p.or q) := by
      simp [Node.deleted, first, Node.without_without]
    rw [BoundPass.andThen_keep kept, result']
    simp only [Except.map, deleted, deleted', Node.deleted_congr q left, onwards]

/-- The pass that removes the nodes that meet a test removes a root that meets it. Of any other tree
    it keeps what does not meet the test and is below nothing that does, each in its place in the
    listing, and over that the same pass keeps the very tree. Two such passes, in either order, leave
    what one pass for both tests leaves. -/
theorem deletion_leaves_the_spared (root : Tree) (p q : AtomTest) (st st' : σ × Supply) :
    let pass (p : AtomTest) :
        BoundPass level χ π ο (Visit (level.Context Tree Options χ π) Tree τ σ ε) :=
      deletion p args
    let result (p : AtomTest) (root : Tree) (st : σ × Supply) :=
      (((pass p).transform (Tree.host options) root).run st).1.1
    let inTurn (p q : AtomTest) (st : σ × Supply) :=
      (((pass p).andThen (pass q) (Tree.host options) root).run st).1.map (Splice.map Node.shape)
    root.outline 0 = root.spots.map Spot.entry ∧
      (root.meets p = true → result p root st = .ok .remove) ∧
      (root.meets p = false → ∃ t, result p root st = .ok (.keep t) ∧
        t.outline 0 = (root.spots.filter (Spot.spared p)).map Spot.entry ∧
        result p t st' = .ok (.keep t)) ∧
      inTurn p q st = (result (p.or q) root st').map (Splice.map Node.shape) ∧
      inTurn q p st = (result (p.or q) root st').map (Splice.map Node.shape) := by
  intro pass result inTurn
  refine ⟨(Node.spots_entries root).symm, ?removes, ?keeps, ?pThenQ, ?qThenP⟩
  case removes =>
    intro meets
    exact deletion_removes args options meets st
  case keeps =>
    intro fails
    obtain ⟨t, kept, left⟩ := deletion_keeps (τ := τ) (ε := ε) args options fails st
    refine ⟨t, kept, ?_, deletion_again args options fails left st'⟩
    rw [← Node.outline_shape, left, Node.outline_shape, Node.outline_without p fails]
  case pThenQ => exact deletions_in_turn args options p q root st st'
  case qThenP =>
    rw [AtomTest.or_comm p q]
    exact deletions_in_turn args options q p root st st'

end TreeVisit
