import Mathlib.Algebra.GroupWithZero.Nat
import Mathlib.Data.List.Basic
import TreeVisit.Proofs.Walk.Ending
import TreeVisit.Proofs.Walk.Placing
import TreeVisit.Proofs.Walk.Record

/- The accounts of a walk. Three things are counted apart from each other: the calls by what they
   decided, the nodes of the tree that was walked, and those of what it became. They agree, since
   every node is either visited or below a node that was settled, and what is left is what the walk
   went into and what it was given. -/
namespace TreeVisit

variable {κ ν ω ρ τ σ ε : Type} [Storable τ]

def Call.decided (kind : Decision ν → Bool) (call : Call κ ν τ ε) : Bool :=
  match call.reply with
  | .ok decision => kind decision
  | .error _ => false

theorem Call.decided_isRecurse {ν : Type} (call : Call κ ν τ ε) :
    call.decided Decision.isRecurse = call.recursed := by
  unfold decided recursed
  cases call.reply <;> rfl

theorem Tally.add_reply (t : Tally) (call : Call κ ν τ ε) :
    t.add call.reply =
      ⟨t.visited + 1, t.recursed + (call.decided Decision.isRecurse).toNat,
        t.replaced + (call.decided Decision.isReplacement).toNat,
        t.removed + (call.decided Decision.isRemove).toNat⟩ := by
  obtain ⟨_, _, _, reply, _⟩ := call
  cases reply with
  | error e => rfl
  | ok decision => cases decision <;> rfl

theorem countP_decided_cons (kind : Decision ν → Bool) (call : Call κ ν τ ε)
    (later : List (Call κ ν τ ε)) :
    (call :: later).countP (·.decided kind) =
      (call.decided kind).toNat + later.countP (·.decided kind) := by
  cases decided : call.decided kind with
  | false => simp [decided]
  | true => simp [decided, Nat.add_comm]

theorem Tally.foldl_add (t : Tally) (calls : List (Call κ ν τ ε)) :
    calls.foldl (fun t call => t.add call.reply) t =
      ⟨t.visited + calls.length, t.recursed + calls.countP (·.decided Decision.isRecurse),
        t.replaced + calls.countP (·.decided Decision.isReplacement),
        t.removed + calls.countP (·.decided Decision.isRemove)⟩ := by
  induction calls generalizing t with
  | nil => rfl
  | cons call later ih =>
    rw [List.foldl_cons, ih, add_reply]
    simp only [countP_decided_cons, List.length_cons, Tally.mk.injEq]
    omega

theorem Recorded.tally_eq {cx : κ} {calls : List (Call κ ν τ ε)} {t : Traversal ν τ ε}
    (recorded : Recorded cx calls t) :
    t.tally = ⟨calls.length, calls.countP (·.decided Decision.isRecurse),
      calls.countP (·.decided Decision.isReplacement),
      calls.countP (·.decided Decision.isRemove)⟩ := by
  rw [recorded.tally, Tally.foldl_add]
  simp only [EmptyCollection.emptyCollection, Nat.zero_add]

theorem countP_decided {calls : List (Call κ ν τ ε)}
    (answered : ∀ call ∈ calls, ∃ decision, call.reply = .ok decision) :
    calls.length = calls.countP (·.decided Decision.isRecurse) +
      calls.countP (·.decided Decision.isReplacement) +
      calls.countP (·.decided Decision.isRemove) := by
  induction calls with
  | nil => rfl
  | cons call later ih =>
    obtain ⟨⟨decision, reply⟩, others⟩ := List.forall_mem_cons.mp answered
    have rest := ih others
    have here : 1 = (call.decided Decision.isRecurse).toNat +
        (call.decided Decision.isReplacement).toNat + (call.decided Decision.isRemove).toNat := by
      unfold Call.decided
      rw [reply]
      cases decision <;> rfl
    simp only [countP_decided_cons, List.length_cons]
    omega

namespace Call

/-- The nodes of the tree that the call settles. -/
def covered (call : Call κ Tree τ ε) : List Tree :=
  if call.recursed then [call.node] else call.node.descendants

def left (call : Call κ Tree τ ε) : List (String × Option String) :=
  if call.recursed then [(call.node.kind, call.node.text?)]
  else (Node.preorders call.given).map fun n => (n.kind, n.text?)

end Call

theorem Placed.covered_nodes {p : Placed κ τ ε} (about : p.node = p.call.node) :
    p.covered.map (·.node) = p.call.covered := by
  by_cases recursed : p.call.recursed = true
  · simp [covered, Call.covered, recursed, about]
  · simp [covered, Call.covered, recursed, Node.spotsFrom_eq, Node.spotsAll_nodes,
      Node.descendants_eq_preorder, Node.preorder_eq_cons, about]

theorem Placed.left_atoms {p : Placed κ τ ε} (about : p.node = p.call.node) :
    p.left.map (·.2) = p.call.left := by
  by_cases recursed : p.call.recursed = true
  · simp [left, Call.left, recursed, Spot.entry, about]
  · simp [left, Call.left, recursed, Node.outlines_atoms]

variable {host : Host Tree ω ρ} {visit : Visit κ Tree τ σ ε} {cx : κ} {ns : List Tree}
  {st final : Progress τ σ × ρ} {course : Course κ Tree τ ε} {answers : List (Splice Tree)}

theorem Walked.preorders_eq (tree : host.children = Node.children)
    (walked : Walked host visit cx ns st course final) (complete : course.outcome = .ok answers) :
    Node.preorders ns = course.calls.flatMap Call.covered := by
  have spots := walked.spotsAll_eq tree complete [] 0
  rw [← Node.spotsAll_nodes [] 0 ns, spots, List.map_flatMap, ← course.placed_calls [] 0,
    List.flatMap_map]
  apply List.flatMap_congr
  intro p member
  exact Placed.covered_nodes (course.placed_node [] 0 p member)

theorem Walked.atoms_eq (splices : host.Splices)
    (walked : Walked host visit cx ns st course final) (complete : course.outcome = .ok answers) :
    (Node.preorders (answers.flatMap Splice.nodes)).map (fun n => (n.kind, n.text?)) =
      course.calls.flatMap Call.left := by
  have outlines := walked.outlines_eq splices complete [] 0
  rw [← Node.outlines_atoms ([] : List (Place Mark)).length, outlines, List.map_flatMap,
    ← course.placed_calls [] 0, List.flatMap_map]
  apply List.flatMap_congr
  intro p member
  exact Placed.left_atoms (course.placed_node [] 0 p member)

theorem length_covered (calls : List (Call κ Tree τ ε)) :
    (calls.flatMap Call.covered).length =
      calls.length +
        ((calls.filter fun call => !call.recursed).map fun call => call.node.size - 1).sum := by
  induction calls with
  | nil => rfl
  | cons call later ih =>
    have positive := call.node.size_pos
    by_cases recursed : call.recursed = true
    · simp [Call.covered, recursed, ih]
      omega
    · simp [Call.covered, recursed, ih, Node.length_descendants]
      omega

theorem length_left (calls : List (Call κ Tree τ ε)) :
    (calls.flatMap Call.left).length =
      calls.countP (·.decided Decision.isRecurse) + Node.sizes (calls.flatMap Call.given) := by
  induction calls with
  | nil => rfl
  | cons call later ih =>
    rw [List.flatMap_cons, List.length_append, ih, List.flatMap_cons, Node.sizes_append,
      List.countP_cons, Call.decided_isRecurse]
    by_cases recursed : call.recursed = true
    · have nothing : call.given = [] := by
        obtain ⟨_, _, _, reply, _⟩ := call
        cases reply with
        | error e => rfl
        | ok decision => cases decision <;> first | rfl | cases recursed
      simp [Call.left, recursed, nothing, Node.sizes]
      omega
    · simp [Call.left, recursed, Node.length_preorders]
      omega

/-- Let a walk end well. It reports as many visits as it made calls, and of each kind of decision as
    many as were made. The visits and the nodes below those it settled are the nodes of its tree; what
    it leaves has as many nodes as it went into and was given, all told. Call by call, the calls cover
    the tree in pre-order, and what they leave is in pre-order what the walk leaves. -/
theorem walk_accounts_for_every_node {χ π ο : Type} [Checked π χ] {level : Level}
    (pass : BoundPass level χ π ο (Visit (level.Context Tree Options χ π) Tree τ σ ε))
    (options : Options) (root : Tree) (own : σ) (supply : Supply) {splice : Splice Tree}
    (ok : ((pass.transform (Tree.host options) root).run (own, supply)).1.1 = .ok splice) :
    let log := pass.calls (Tree.host options) root own supply
    ∃ tally boardEntries,
      ((pass.transform (Tree.host options) root).run (own, supply)).1.2 =
        .completed level tally boardEntries ∧
      tally.visited = log.length ∧
      tally.visited = tally.recursed + tally.replaced + tally.removed ∧
      tally.recursed = log.countP (·.decided Decision.isRecurse) ∧
      tally.replaced = log.countP (·.decided Decision.isReplacement) ∧
      tally.removed = log.countP (·.decided Decision.isRemove) ∧
      tally.visited +
          ((log.filter fun call => !call.recursed).map fun call => call.node.size - 1).sum =
        root.size ∧
      Node.sizes splice.nodes = tally.recursed + Node.sizes (log.flatMap Call.given) ∧
      root.descendants = log.flatMap Call.covered ∧
      (Node.preorders splice.nodes).map (fun n => (n.kind, n.text?)) = log.flatMap Call.left := by
  intro log
  obtain ⟨course, final, whole, calls⟩ :=
    pass.exists_course_of_ok (Tree.host options) root own supply ok
  have recorded := traverse_is_recorded (Tree.host options) pass.visit
    (pass.args.enrich ⟨root, options⟩) root own supply
  let walk := ((pass.traverse (Tree.host options) root).run (own, supply)).1
  have counts : walk.tally = ⟨log.length, log.countP (·.decided Decision.isRecurse),
      log.countP (·.decided Decision.isReplacement), log.countP (·.decided Decision.isRemove)⟩ :=
    recorded.tally_eq
  have kinds := countP_decided (whole.walked.answered whole.outcome)
  have covered := whole.walked.preorders_eq rfl whole.outcome
  have left := whole.walked.atoms_eq (Tree.host_splices options) whole.outcome
  simp only [List.flatMap_cons, List.flatMap_nil, List.append_nil] at left
  rw [← calls] at kinds covered left
  have listed : root.descendants = log.flatMap Call.covered := by
    rwa [Node.descendants, Node.listing_eq_preorders]
  have size : root.size = (log.flatMap Call.covered).length := by
    rw [← listed, Node.length_descendants]
  have sizes : Node.sizes splice.nodes = (log.flatMap Call.left).length := by
    rw [← left, List.length_map, Node.length_preorders]
  refine ⟨walk.tally, walk.board.keys.length, Traversal.event_completed ok level, ?_⟩
  rw [counts, size, sizes, length_covered, length_left]
  exact ⟨rfl, kinds, rfl, rfl, rfl, rfl, rfl, listed, left⟩

def ungrouping : Visit κ Tree τ Unit Fault := fun _ n =>
  return if n.isKind "drop" then .remove
    else if n.isKind "group" then .flatten n.children
    else .recurse

theorem ungrouped_tree_is_accounted_for :
    let pass : BoundPass .raw Checker Program Options
        (Visit (Level.raw.Context Tree Options Checker Program) Tree Empty Unit Fault) :=
      ⟨⟨ungrouping⟩, .raw⟩
    let a : Tree := .mk (.given 1) "a" none []
    let b : Tree := .mk (.given 2) "b" none []
    let root : Tree := .mk (.given 0) "module" none
      [.mk (.given 3) "group" none [a, b],
        .mk (.given 4) "block" none
          [.mk (.given 5) "drop" none [a], .mk (.given 6) "group" none [], b]]
    let ungrouped : Tree :=
      .mk (.rebuilt 1) "module" none [a, b, .mk (.rebuilt 0) "block" none [b]]
    let log := pass.calls (Tree.host default) root () ⟨0⟩
    ((pass.transform (Tree.host default) root).run ((), ⟨0⟩)).1 =
        (.ok (.keep ungrouped), .completed .raw ⟨6, 3, 2, 1⟩ 0) ∧
      6 + ((log.filter fun call => !call.recursed).map fun call => call.node.size - 1).sum = 9 ∧
      ungrouped.size = 3 + Node.sizes (log.flatMap Call.given) := by
  intro pass a b root ungrouped log
  have run : ((pass.transform (Tree.host default) root).run ((), ⟨0⟩)).1 =
      (.ok (.keep ungrouped), .completed .raw ⟨6, 3, 2, 1⟩ 0) := by
    with_unfolding_all rfl
  have ok := congrArg Prod.fst run
  obtain ⟨tally, entries, event, _, _, _, _, _, covered, left, _⟩ :=
    walk_accounts_for_every_node pass default root () ⟨0⟩ ok
  rw [run] at event
  cases event
  exact ⟨run, covered, left⟩

end TreeVisit
