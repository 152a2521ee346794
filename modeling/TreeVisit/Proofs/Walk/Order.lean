import TreeVisit.Proofs.Walk.Course
import TreeVisit.Tree.Host
import TreeVisit.Tree.Preorder

/- The order of the calls of a walk over a syntax tree. The nodes that are visited are those of the
   pre-order listing of the tree, less what lies below a node that was settled, up to the first
   failure; a node that a visit puts in place of another is not in the listing and never visited. -/
namespace TreeVisit

universe u

namespace Node
variable {μ : Type u} {ε : Type}

def properDescendants (n : Node μ) : List (Node μ) := n.descendants.tail

/-- A listing without the descendants of the nodes that were settled, cut off behind the first
    failure, when the replies to the nodes that are left are known in order. The node after the last
    reply is still due. -/
def pruned {μ : Type} : List (Node μ) → List (Except ε (Decision (Node μ))) → List (Node μ)
  | [], _ => []
  | n :: _, [] => [n]
  | n :: _, .error _ :: _ => [n]
  | n :: later, .ok .recurse :: replies => n :: pruned later replies
  | n :: later, .ok _ :: replies => n :: pruned (later.drop n.properDescendants.length) replies

theorem preorder_eq_cons (n : Node μ) : n.preorder = n :: preorders n.children := by
  cases n
  rfl

theorem descendants_eq_preorder (n : Node μ) : n.descendants = n.preorder := by
  rw [descendants, listing_eq_preorders, preorders, preorders, List.append_nil]

theorem properDescendants_eq_preorders (n : Node μ) : n.properDescendants = preorders n.children := by
  rw [properDescendants, descendants_eq_preorder, preorder_eq_cons, List.tail_cons]

theorem pruned_settled {μ : Type} {decision : Decision (Node μ)} {answer : Splice (Node μ)}
    (settles : decision.splice? = some answer) (n : Node μ) (later : List (Node μ))
    (replies : List (Except ε (Decision (Node μ)))) :
    pruned (n :: later) (.ok decision :: replies) =
      n :: pruned (later.drop n.properDescendants.length) replies := by
  cases decision with
  | recurse => nomatch settles
  | remove => rw [pruned]; nofun
  | replace m => rw [pruned]; nofun
  | flatten ms => rw [pruned]; nofun

theorem pruned_sublist {μ : Type} (listed : List (Node μ))
    (replies : List (Except ε (Decision (Node μ)))) :
    (pruned listed replies).Sublist listed := by
  fun_induction pruned listed replies with
  | case1 => exact List.Sublist.refl []
  | case2 n later => exact (List.nil_sublist later).cons_cons n
  | case3 n later _ e => exact (List.nil_sublist later).cons_cons n
  | case4 n later replies ih => exact ih.cons_cons n
  | case5 n later replies decision settled ih =>
    exact (ih.trans (List.drop_sublist _ _)).cons_cons n

theorem pruned_of_recurse {μ : Type} {listed : List (Node μ)}
    {replies : List (Except ε (Decision (Node μ)))} (recurse : ∀ reply ∈ replies, reply = .ok .recurse)
    (all_answered : (pruned listed replies).length = replies.length) :
    pruned listed replies = listed := by
  fun_induction pruned listed replies with
  | case1 => rfl
  | case2 n later => simp at all_answered
  | case3 n later e => nomatch recurse (.error e) List.mem_cons_self
  | case4 n later replies ih =>
    have later_recurse : ∀ reply ∈ replies, reply = .ok .recurse := by
      intro reply member
      exact recurse reply (List.mem_cons_of_mem _ member)
    rw [ih later_recurse (Nat.succ.inj all_answered)]
  | case5 n later replies decision settled ih =>
    exact absurd (Except.ok.inj (recurse _ List.mem_cons_self)) settled

end Node

section
variable {κ τ ε : Type} [Storable τ]

def Course.behind {ν α : Type} (course : Course κ ν τ ε) (rest : List α) : List α :=
  match course.outcome with
  | .ok _ => rest
  | .error _ => []

theorem Course.behind_ok {ν α : Type} {course : Course κ ν τ ε} {answers : List (Splice ν)}
    (complete : course.outcome = .ok answers) (rest : List α) : course.behind rest = rest := by
  rw [behind, complete]

theorem Course.behind_error {ν α : Type} {course : Course κ ν τ ε} {e : ε}
    (fails : course.outcome = .error e) (rest : List α) : course.behind rest = [] := by
  rw [behind, fails]

theorem Course.behind_nil {ν α : Type} (course : Course κ ν τ ε) :
    course.behind ([] : List α) = [] := by
  unfold behind
  split <;> rfl

theorem Course.behind_settled {ν α : Type} (call : Call κ ν τ ε) (answer : Splice ν)
    (later : Course κ ν τ ε) (rest : List α) :
    (settled call answer later).behind rest = later.behind rest := by
  simp only [behind, outcome]
  cases later.outcome <;> rfl

theorem Course.behind_entered {ν α : Type} (call : Call κ ν τ ε) (below later : Course κ ν τ ε)
    (node : ν) (rest : List α) :
    (entered call below node later).behind rest = later.behind rest := by
  simp only [behind, outcome]
  cases later.outcome <;> rfl

/-- The calls of a course are due in the order of the listing, whatever is listed behind its trees
    and whatever is replied there. -/
theorem Walked.order {ω ρ σ μ : Type} {host : Host (Node μ) ω ρ} {visit : Visit κ (Node μ) τ σ ε}
    {cx : κ} {ns : List (Node μ)} {st final : Progress τ σ × ρ} {course : Course κ (Node μ) τ ε}
    (tree : host.children = Node.children) (walked : Walked host visit cx ns st course final)
    (listed : List (Node μ)) (replies : List (Except ε (Decision (Node μ)))) :
    Node.pruned (Node.preorders ns ++ listed) (course.calls.map (·.reply) ++ replies) =
      course.calls.map (·.node) ++ course.behind (Node.pruned listed replies) := by
  induction walked generalizing listed replies with
  | done => rfl
  | failed asked =>
    rw [Node.preorders, Node.preorder_eq_cons, Course.behind_error rfl]
    rfl
  | @settled n rest st st' final decision answer later asked settles _ others =>
    have skipped : (Node.preorders n.children ++ (Node.preorders rest ++ listed)).drop
        n.properDescendants.length = Node.preorders rest ++ listed := by
      rw [Node.properDescendants_eq_preorders, List.drop_left]
    rw [Node.preorders, Node.preorder_eq_cons, Course.behind_settled]
    simp only [Course.calls, callAt, List.map_cons, List.cons_append, List.append_assoc]
    rw [Node.pruned_settled settles, skipped, others]
  | @entered n rest st st' inner final below answers node supply later asked _ complete _ _
      children others =>
    rw [tree] at children
    have onwards := children (Node.preorders rest ++ listed) (later.calls.map (·.reply) ++ replies)
    rw [Course.behind_ok complete, others] at onwards
    rw [Node.preorders, Node.preorder_eq_cons, Course.behind_entered]
    simp only [Course.calls, callAt, List.map_cons, List.map_append, List.cons_append,
      List.append_assoc, Node.pruned, onwards]
  | @broken n rest st st' inner below e asked _ fails children =>
    rw [tree] at children
    have onwards := children (Node.preorders rest ++ listed) replies
    rw [Course.behind_error fails, List.append_nil] at onwards
    have ended : (Course.broken (callAt cx n st (.ok .recurse) st') below).outcome = .error e := fails
    rw [Node.preorders, Node.preorder_eq_cons, Course.behind_error ended, List.append_nil]
    simp only [Course.calls, callAt, List.map_cons, List.cons_append, List.append_assoc,
      Node.pruned, onwards]

/-- The visit is called on the nodes of the input in pre-order, without the proper descendants of
    those that it did not recurse into, up to its first failure: so once at most for each place, on
    nothing that it put there itself, and everywhere if it only recurses. -/
theorem calls_follow_preorder {σ χ π ο : Type} [Checked π χ] {level : Level}
    (pass : BoundPass level χ π ο (Visit (level.Context Tree Options χ π) Tree τ σ ε))
    (options : Options) (root : Tree) (own : σ) (supply : Supply) :
    let log := pass.calls (Tree.host options) root own supply
    log.map (·.node) = Node.pruned root.descendants (log.map (·.reply)) ∧
      (log.map (·.node)).Sublist root.descendants ∧
      ((∀ call ∈ log, call.reply = .ok .recurse) → log.map (·.node) = root.descendants) := by
  intro log
  obtain ⟨course, final, answer, whole⟩ := exists_courseOf (Tree.host options) pass.visit
    (pass.args.enrich ⟨root, options⟩) root own supply
  have order : log.map (·.node) = Node.pruned root.descendants (log.map (·.reply)) := by
    have due := whole.walked.order rfl [] []
    rw [Node.pruned, Course.behind_nil, List.append_nil, List.append_nil, List.append_nil] at due
    rw [show log = course.calls from whole.calls_eq, ← due, Node.descendants, Node.listing_eq_preorders]
  refine ⟨order, ?_, ?_⟩
  · rw [order]
    exact Node.pruned_sublist _ _
  · intro recurse
    rw [order]
    apply Node.pruned_of_recurse
    · intro reply member
      obtain ⟨call, here, rfl⟩ := List.mem_map.mp member
      exact recurse call here
    · rw [← order, List.length_map, List.length_map]

end
end TreeVisit
