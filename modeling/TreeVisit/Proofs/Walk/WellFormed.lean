import TreeVisit.Proofs.Tree.RoundTrip
import TreeVisit.Proofs.Walk.Rebuilding

/- Walks between reading and printing. A walk over a tree of well-formed atoms brings in no other atoms
   than those of the nodes that its visit gives it, and it drops none of these. So what it makes of a
   tree that was read can be printed and read again exactly if all that the visit gave can be. -/
namespace TreeVisit

def Decision.given {ν : Type} : Decision ν → List ν
  | recurse | remove => []
  | replace n => [n]
  | flatten ns => ns

theorem Decision.given_settled {ν : Type} {decision : Decision ν} {answer : Splice ν}
    (settles : decision.splice? = some answer) : decision.given = answer.nodes := by
  cases decision with
  | recurse => cases settles
  | remove => cases settles; rfl
  | replace n => cases settles; rfl
  | flatten ns => cases settles; rfl

def Call.given {κ ν τ ε : Type} [Storable τ] (call : Call κ ν τ ε) : List ν :=
  match call.reply with
  | .ok decision => decision.given
  | .error _ => []

namespace Tree

universe u
variable {μ : Type u}

/-- The nodes of all the trees can be written. -/
def AllWellFormed (ns : List (Node μ)) : Prop := ∀ n ∈ ns, WellFormed n

theorem allWellFormed_nil : AllWellFormed ([] : List (Node μ)) := by
  intro n member
  cases member

theorem allWellFormed_append {ns ms : List (Node μ)} :
    AllWellFormed (ns ++ ms) ↔ AllWellFormed ns ∧ AllWellFormed ms := List.forall_mem_append

theorem allWellFormed_iff_preorders {ns : List (Node μ)} :
    AllWellFormed ns ↔ ∀ m ∈ Node.preorders ns, IsAtom m.kind m.text? := by
  induction ns with
  | nil => simp [AllWellFormed, Node.preorders]
  | cons n rest ih =>
    rw [Node.preorders, List.forall_mem_append, ← ih]
    exact List.forall_mem_cons

theorem wellFormed_iff {n : Node μ} :
    WellFormed n ↔ IsAtom n.kind n.text? ∧ AllWellFormed n.children := by
  rw [WellFormed, Node.preorder_eq_cons, List.forall_mem_cons, allWellFormed_iff_preorders]

end Tree

open TreeVisit.Tree

variable {κ ω ρ τ σ ε : Type} [Storable τ] {host : Host Tree ω ρ} {visit : Visit κ Tree τ σ ε}
  {cx : κ}

theorem Walked.allWellFormed_iff (splices : host.Splices) {ns : List Tree}
    {st final : Progress τ σ × ρ} {course : Course κ Tree τ ε}
    (walked : Walked host visit cx ns st course final) (valid : AllWellFormed ns)
    {answers : List (Splice Tree)} (complete : course.outcome = .ok answers) :
    AllWellFormed (answers.flatMap Splice.nodes) ↔ ∀ call ∈ course.calls, AllWellFormed call.given := by
  induction walked generalizing answers with
  | done =>
    cases complete
    refine iff_of_true allWellFormed_nil ?_
    intro call member
    cases member
  | failed => cases complete
  | @settled n ns st st' final decision answer later asked settles _ others =>
    obtain ⟨rest, complete', rfl⟩ := complete_later complete
    have others := others (List.forall_mem_cons.mp valid).2 complete'
    have here : (callAt cx n st (.ok decision) st' : Call κ Tree τ ε).given = answer.nodes :=
      Decision.given_settled settles
    rw [List.flatMap_cons, allWellFormed_append, others, Course.calls, List.forall_mem_cons, here]
  | @entered n ns st st' inner final below answers node supply later asked _ finished rebuilt _
      inside others =>
    obtain ⟨rest, complete', rfl⟩ := complete_later complete
    obtain ⟨first, behind⟩ := List.forall_mem_cons.mp valid
    obtain ⟨own, children⟩ := wellFormed_iff.mp first
    obtain ⟨kind, text, spliced⟩ := splices.rebuild n answers inner.2 node (congrArg Prod.fst rebuilt)
    have within : AllWellFormed (answers.flatMap Splice.nodes) ↔
        ∀ call ∈ below.calls, AllWellFormed call.given := by
      rw [splices.children] at inside
      exact inside children finished
    have here : WellFormed node ↔ ∀ call ∈ below.calls, AllWellFormed call.given := by
      rw [wellFormed_iff, kind, text, spliced, within]
      exact and_iff_right own
    rw [List.flatMap_cons, allWellFormed_append, others behind complete', Course.calls,
      List.forall_mem_cons, List.forall_mem_append, ← here]
    constructor
    · rintro ⟨built, behind⟩
      exact ⟨allWellFormed_nil, built node List.mem_cons_self, behind⟩
    · rintro ⟨-, built, behind⟩
      exact ⟨List.forall_mem_singleton.mpr built, behind⟩
  | broken asked _ fails => cases fails.symm.trans complete

theorem Splice.mem_of_root? {ν : Type} {splice : Splice ν} {n : ν}
    (single : splice.root? = .ok (some n)) : n ∈ splice.nodes := by
  unfold root? at single
  split at single
  · cases single
    exact List.mem_cons_self
  · cases single
  · cases single
  · cases single
    exact List.mem_cons_self
  · cases single

/-- Let a tree be read and walked to the end. The trees that stand for it then have atoms that can be
    written throughout, exactly if this is so of every node that the visit gave. In that case the one
    tree that takes the place of the root, if there is one, is printed as a text that reads back as
    it, also where nodes that had children have lost them all. -/
theorem walked_tree_reads_back {χ π ο : Type} [Checked π χ] {level : Level}
    (pass : BoundPass level χ π ο (Visit (level.Context Tree Options χ π) Tree τ σ ε))
    (options : Options) {input : String} {root : Tree} (parsed : Tree.read input = .ok root.shape)
    (own : σ) (supply : Supply) {splice : Splice Tree}
    (ok : ((pass.transform (Tree.host options) root).run (own, supply)).1.1 = .ok splice) :
    let log := pass.calls (Tree.host options) root own supply
    ((∀ n ∈ splice.nodes, WellFormed n) ↔ ∀ call ∈ log, ∀ n ∈ call.given, WellFormed n) ∧
      ((∀ call ∈ log, ∀ n ∈ call.given, WellFormed n) →
        ∀ t, splice.root? = .ok (some t) → Tree.read t.print = .ok t.shape) := by
  intro log
  obtain ⟨course, final, whole, calls⟩ :=
    pass.exists_course_of_ok (Tree.host options) root own supply ok
  have valid : WellFormed root := (wellFormed_shape root).mp (wellFormed_of_read parsed)
  have exact_atoms : AllWellFormed splice.nodes ↔ ∀ call ∈ log, AllWellFormed call.given := by
    rw [show log = course.calls from calls, ← List.flatMap_singleton Splice.nodes splice]
    exact whole.walked.allWellFormed_iff (Tree.host_splices options)
      (List.forall_mem_singleton.mpr valid) whole.outcome
  refine ⟨exact_atoms, ?_⟩
  intro given t single
  have written : WellFormed t := exact_atoms.mpr given t (Splice.mem_of_root? single)
  exact (read_print_iff t).mpr written

def tidying : Visit κ Tree τ Unit Fault := fun _ n =>
  return if n.isKind "drop" then .remove
    else if n.isKind "old" then .replace (.mk (.given 9) "new" (some "x:1") [])
    else .recurse

theorem tidied_tree_reads_back :
    let pass : BoundPass .raw Checker Program Options
        (Visit (Level.raw.Context Tree Options Checker Program) Tree Empty Unit Fault) :=
      ⟨⟨tidying⟩, .raw⟩
    let root : Tree := .mk (.given 0) "module" none
      [.mk (.given 1) "list" none [.mk (.given 2) "drop" none []], .mk (.given 3) "old" none []]
    let tidied : Tree := .mk (.rebuilt 1) "module" none
      [.mk (.rebuilt 0) "list" none [], .mk (.given 9) "new" (some "x:1") []]
    Tree.read "(module (list drop) old)" = .ok root.shape ∧
      ((pass.transform (Tree.host default) root).run ((), ⟨0⟩)).1.1 = .ok (.keep tidied) ∧
      tidied.print = "(module list new:x:1)" ∧ Tree.read tidied.print = .ok tidied.shape := by
  intro pass root tidied
  have parsed : Tree.read "(module (list drop) old)" = .ok root.shape := by
    have valid : WellFormed root := by decide
    exact (read_print_iff root).mpr valid
  have ok : ((pass.transform (Tree.host default) root).run ((), ⟨0⟩)).1.1 = .ok (.keep tidied) := by
    with_unfolding_all rfl
  have valid : ∀ n ∈ (Splice.keep tidied).nodes, WellFormed n := by decide
  obtain ⟨exact_atoms, reads_back⟩ := walked_tree_reads_back pass default parsed () ⟨0⟩ ok
  exact ⟨parsed, ok, by decide, reads_back (exact_atoms.mp valid) tidied rfl⟩

end TreeVisit
