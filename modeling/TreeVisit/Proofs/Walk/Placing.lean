import Mathlib.Data.List.Basic
import TreeVisit.Proofs.Tree.Spots
import TreeVisit.Proofs.Walk.WellFormed

/- The calls of a walk at the places that they are about. A walk that ends well has settled every
   place of its trees: a call that recursed stands for its own place, any other for all places of its
   subtree. What the walk leaves is listed in the same order, with the nodes that were given instead. -/
namespace TreeVisit

structure Placed (κ τ : Type) [Storable τ] (ε : Type) extends Spot Mark where
  call : Call κ Tree τ ε

variable {κ ω ρ τ σ ε : Type} [Storable τ]

namespace Placed

def covered (p : Placed κ τ ε) : List (Spot Mark) :=
  if p.call.recursed then [p.toSpot] else p.node.spotsFrom p.above p.number

def left (p : Placed κ τ ε) : List (Nat × String × Option String) :=
  if p.call.recursed then [p.entry] else Node.outlines p.depth p.call.given

end Placed

namespace Course

/-- The calls at their places, where the first tree has this number and these places above it. -/
def placed (above : List (Place Mark)) (number : Nat) : Course κ Tree τ ε → List (Placed κ τ ε)
  | done => []
  | failed call _ => [⟨⟨⟨number, call.node⟩, above⟩, call⟩]
  | settled call _ later =>
    ⟨⟨⟨number, call.node⟩, above⟩, call⟩ :: later.placed above (number + call.node.size)
  | entered call below _ later =>
    ⟨⟨⟨number, call.node⟩, above⟩, call⟩ ::
      (below.placed (⟨number, call.node⟩ :: above) (number + 1) ++
        later.placed above (number + call.node.size))
  | broken call below =>
    ⟨⟨⟨number, call.node⟩, above⟩, call⟩ ::
      below.placed (⟨number, call.node⟩ :: above) (number + 1)

theorem placed_calls (course : Course κ Tree τ ε) (above : List (Place Mark)) (number : Nat) :
    (course.placed above number).map (·.call) = course.calls := by
  induction course generalizing above number with
  | done => rfl
  | failed => rfl
  | settled call _ later others => simp [placed, calls, others]
  | entered call below _ later inside others => simp [placed, calls, inside, others]
  | broken call below inside => simp [placed, calls, inside]

theorem placed_node (course : Course κ Tree τ ε) (above : List (Place Mark)) (number : Nat) :
    ∀ p ∈ course.placed above number, p.node = p.call.node := by
  induction course generalizing above number with
  | done => simp [placed]
  | failed => simp [placed]
  | settled call _ later others => simpa [placed] using others above _
  | entered call below _ later inside others =>
    simp only [placed, List.forall_mem_cons, List.forall_mem_append, true_and]
    exact ⟨inside _ _, others _ _⟩
  | broken call below inside => simpa [placed] using inside _ _

end Course

variable {host : Host Tree ω ρ} {visit : Visit κ Tree τ σ ε} {cx : κ}

theorem Walked.spotsAll_eq (tree : host.children = Node.children) {ns : List Tree}
    {st final : Progress τ σ × ρ} {course : Course κ Tree τ ε}
    (walked : Walked host visit cx ns st course final) {answers : List (Splice Tree)}
    (complete : course.outcome = .ok answers) (above : List (Place Mark)) (number : Nat) :
    Node.spotsAll above number ns = (course.placed above number).flatMap Placed.covered := by
  induction walked generalizing answers above number with
  | done => rfl
  | failed => cases complete
  | @settled n rest st st' final decision answer later asked settles _ others =>
    obtain ⟨_, complete', _⟩ := complete_later complete
    have settled : (callAt cx n st (.ok decision) st' : Call κ Tree τ ε).recursed = false :=
      Call.recursed_settled settles
    simp only [Course.placed, List.flatMap_cons, Placed.covered, settled]
    rw [← others complete']
    rfl
  | @entered n rest st st' inner final below answers node supply later asked _ finished _ _ inside
      others =>
    obtain ⟨_, complete', _⟩ := complete_later complete
    have recursed : (callAt cx n st (.ok .recurse) st' : Call κ Tree τ ε).recursed = true := rfl
    rw [tree] at inside
    simp only [Course.placed, List.flatMap_cons, List.flatMap_append, Placed.covered, recursed]
    rw [← inside finished, ← others complete', Node.spotsAll_cons, Node.spotsFrom_eq]
    rfl
  | broken asked _ fails => cases fails.symm.trans complete

theorem Walked.outlines_eq (splices : host.Splices) {ns : List Tree}
    {st final : Progress τ σ × ρ} {course : Course κ Tree τ ε}
    (walked : Walked host visit cx ns st course final) {answers : List (Splice Tree)}
    (complete : course.outcome = .ok answers) (above : List (Place Mark)) (number : Nat) :
    Node.outlines above.length (answers.flatMap Splice.nodes) =
      (course.placed above number).flatMap Placed.left := by
  induction walked generalizing answers above number with
  | done =>
    cases complete
    rfl
  | failed => cases complete
  | @settled n rest st st' final decision answer later asked settles _ others =>
    obtain ⟨_, complete', rfl⟩ := complete_later complete
    have settled : (callAt cx n st (.ok decision) st' : Call κ Tree τ ε).recursed = false :=
      Call.recursed_settled settles
    have given : (callAt cx n st (.ok decision) st' : Call κ Tree τ ε).given = answer.nodes :=
      Decision.given_settled settles
    simp only [Course.placed, List.flatMap_cons, Placed.left, settled, given, Node.outlines_append]
    rw [← others complete']
    rfl
  | @entered n rest st st' inner final below answers node supply later asked _ finished rebuilt _
      inside others =>
    obtain ⟨_, complete', rfl⟩ := complete_later complete
    obtain ⟨kind, text, spliced⟩ := splices.rebuild n answers inner.2 node (congrArg Prod.fst rebuilt)
    have recursed : (callAt cx n st (.ok .recurse) st' : Call κ Tree τ ε).recursed = true := rfl
    simp only [Course.placed, List.flatMap_cons, List.flatMap_append, Placed.left, recursed]
    rw [← inside finished, ← others complete', Node.outlines_append]
    simp [Splice.nodes, Node.outlines_cons, kind, text, spliced, Spot.entry, Spot.depth, callAt]
  | broken asked _ fails => cases fails.symm.trans complete

theorem Walked.above_recursed {ns : List Tree} {st final : Progress τ σ × ρ}
    {course : Course κ Tree τ ε} (walked : Walked host visit cx ns st course final)
    {answers : List (Splice Tree)} (complete : course.outcome = .ok answers)
    (above : List (Place Mark)) (number : Nat) :
    ∀ p ∈ course.placed above number, ∀ a ∈ p.above,
      a ∈ above ∨ ∃ q ∈ course.placed above number, q.toPlace = a ∧ q.call.recursed = true := by
  induction walked generalizing answers above number with
  | done =>
    intro p member
    cases member
  | failed => cases complete
  | settled asked settles _ others =>
    obtain ⟨_, complete', _⟩ := complete_later complete
    intro p member a ancestor
    rcases List.mem_cons.mp member with rfl | behind
    · exact Or.inl ancestor
    · rcases others complete' above _ p behind a ancestor with outside | ⟨q, placed, same⟩
      · exact Or.inl outside
      · exact Or.inr ⟨q, List.mem_cons_of_mem _ placed, same⟩
  | @entered n rest st st' inner final below answers node supply later asked _ finished _ _ inside
      others =>
    obtain ⟨_, complete', _⟩ := complete_later complete
    intro p member a ancestor
    rcases List.mem_cons.mp member with rfl | deeper
    · exact Or.inl ancestor
    rcases List.mem_append.mp deeper with within | behind
    · rcases inside finished _ _ p within a ancestor with outside | ⟨q, placed, same⟩
      · rcases List.mem_cons.mp outside with rfl | outside
        · exact Or.inr ⟨_, List.mem_cons_self, rfl, rfl⟩
        · exact Or.inl outside
      · exact Or.inr ⟨q, List.mem_cons_of_mem _ (List.mem_append_left _ placed), same⟩
    · rcases others complete' above _ p behind a ancestor with outside | ⟨q, placed, same⟩
      · exact Or.inl outside
      · exact Or.inr ⟨q, List.mem_cons_of_mem _ (List.mem_append_right _ placed), same⟩
  | broken asked _ fails => cases fails.symm.trans complete

theorem Walked.placed_spots (tree : host.children = Node.children) {ns : List Tree}
    {st final : Progress τ σ × ρ} {course : Course κ Tree τ ε} {answers : List (Splice Tree)}
    (walked : Walked host visit cx ns st course final) (complete : course.outcome = .ok answers)
    {settled : Nat → Bool} {above : List (Place Mark)} {number : Nat}
    (agree : ∀ q ∈ course.placed above number, settled q.number = !q.call.recursed)
    (outside : ∀ a ∈ above, settled a.number = false) :
    (Node.spotsAll above number ns).filter (fun s => s.above.all fun a => !settled a.number) =
      (course.placed above number).map (·.toSpot) := by
  rw [walked.spotsAll_eq tree complete above number, List.filter_flatMap, List.map_eq_flatMap]
  apply List.flatMap_congr
  intro q member
  have spared : ∀ a ∈ q.above, settled a.number = false := by
    intro a higher
    rcases walked.above_recursed complete above number q member a higher with
      higher | ⟨q', member', rfl, recursed⟩
    · exact outside a higher
    · rw [agree q' member', recursed]
      rfl
  have here := agree q member
  cases recursed : q.call.recursed with
  | true => simpa [Placed.covered, recursed] using spared
  | false =>
    rw [recursed] at here
    have gone : (Node.spotsAll (q.toPlace :: q.above) (q.number + 1) q.node.children).filter
        (fun s => s.above.all fun a => !settled a.number) = [] := by
      rw [List.filter_eq_nil_iff]
      intro s below
      have inside := Node.spotsAll_above _ _ _ s below List.mem_cons_self
      simp only [List.all_eq_true, Bool.not_eq_true', not_forall]
      exact ⟨q.toPlace, inside, by simp [here]⟩
    rw [Placed.covered, if_neg (by simp [recursed]), Node.spotsFrom_eq,
      List.filter_cons_of_pos (by simpa using spared), gone]

end TreeVisit
