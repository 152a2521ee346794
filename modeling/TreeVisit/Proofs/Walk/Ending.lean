import TreeVisit.Proofs.Walk.Record
import TreeVisit.Proofs.Walk.Sharing

/- How walks end. A walk ends well if and only if all of its calls were answered, so a visit that goes
   by a rule, and never fails, brings every walk to its end. Where no call asks for a change, what
   stands at the end for each tree is the tree itself. -/
namespace TreeVisit

variable {κ ν ω ρ τ σ ε : Type} [Storable τ]

section
variable {host : Host ν ω ρ} {visit : Visit κ ν τ σ ε} {cx : κ} {ns : List ν}
  {st final : Progress τ σ × ρ} {course : Course κ ν τ ε}

theorem Walked.replied (walked : Walked host visit cx ns st course final) :
    ∀ call ∈ course.calls, ∃ own own',
      visit cx call.node ⟨call.before, own⟩ = resultAt call.reply ⟨call.after, own'⟩ := by
  induction walked with
  | done => simp [Course.calls]
  | failed asked =>
    obtain ⟨desk, called, rfl⟩ := visitNode_error asked
    simp only [Course.calls, List.forall_mem_singleton]
    exact ⟨_, _, called⟩
  | settled asked _ _ others =>
    obtain ⟨desk, called, rfl⟩ := visitNode_ok asked
    simp only [Course.calls, List.forall_mem_cons]
    exact ⟨⟨_, _, called⟩, others⟩
  | entered asked _ _ _ _ inside others =>
    obtain ⟨desk, called, rfl⟩ := visitNode_ok asked
    simp only [Course.calls, List.forall_mem_cons, List.forall_mem_append]
    exact ⟨⟨_, _, called⟩, inside, others⟩
  | broken asked _ _ inside =>
    obtain ⟨desk, called, rfl⟩ := visitNode_ok asked
    simp only [Course.calls, List.forall_mem_cons]
    exact ⟨⟨_, _, called⟩, inside⟩

theorem Walked.answered (walked : Walked host visit cx ns st course final)
    {answers : List (Splice ν)} (complete : course.outcome = .ok answers) :
    ∀ call ∈ course.calls, ∃ decision, call.reply = .ok decision := by
  induction walked generalizing answers with
  | done => simp [Course.calls]
  | failed => cases complete
  | settled _ _ _ others =>
    obtain ⟨_, complete', _⟩ := complete_later complete
    simp only [Course.calls, List.forall_mem_cons]
    exact ⟨⟨_, rfl⟩, others complete'⟩
  | entered _ _ finished _ _ inside others =>
    obtain ⟨_, complete', _⟩ := complete_later complete
    simp only [Course.calls, List.forall_mem_cons, List.forall_mem_append]
    exact ⟨⟨_, rfl⟩, inside finished, others complete'⟩
  | broken _ _ fails => cases fails.symm.trans complete

/-- The visit never fails, and goes by a rule from the node and the board alone. -/
def Visit.Follows (visit : Visit κ ν τ σ ε) (rule : ν → Board τ → Decision ν × Board τ) : Prop :=
  ∀ cx n desk, ∃ own, visit cx n desk = .ok (rule n desk.board).1 ⟨(rule n desk.board).2, own⟩

variable {rule : ν → Board τ → Decision ν × Board τ}

theorem Visit.Follows.asked (follows : visit.Follows rule) {n : ν} {st st' : Progress τ σ × ρ}
    {decision : Decision ν} (asked : visitNode visit cx n st = .ok decision st') :
    rule n st.1.desk.board = (decision, st'.1.desk.board) := by
  obtain ⟨desk, called, rfl⟩ := visitNode_ok asked
  obtain ⟨own, said⟩ := follows cx n st.1.desk
  obtain ⟨decided, left⟩ := EStateM.Result.ok.inj (said.symm.trans called)
  exact Prod.ext decided (congrArg Desk.board left)

theorem Walked.follows (walked : Walked host visit cx ns st course final)
    (follows : visit.Follows rule) :
    ∀ call ∈ course.calls, call.reply = .ok (rule call.node call.before).1 := by
  intro call member
  obtain ⟨own, own', called⟩ := walked.replied call member
  obtain ⟨_, said⟩ := follows cx call.node ⟨call.before, own⟩
  rw [said] at called
  cases reply : call.reply with
  | ok decision =>
    rw [reply] at called
    obtain ⟨decided, _⟩ := EStateM.Result.ok.inj called
    exact congrArg Except.ok decided.symm
  | error e =>
    rw [reply] at called
    cases called

theorem Walked.completes (walked : Walked host visit cx ns st course final)
    (follows : visit.Follows rule) : ∃ answers, course.outcome = .ok answers := by
  cases outcome : course.outcome with
  | ok answers => exact ⟨answers, rfl⟩
  | error e =>
    obtain ⟨last, ends, failed⟩ := walked.last_reply outcome
    have answered := walked.follows follows last (ends.subset List.mem_cons_self)
    cases failed.symm.trans answered

end

def Progress.count [DecidableEq τ] (p : Progress τ σ) (key : String) : Nat := p.desk.board.count key

@[simp] theorem count_start {ρ : Type} [DecidableEq τ] (own : σ) (supply : ρ) (key : String) :
    (start own supply : Progress τ σ × ρ).1.count key = 0 := rfl

theorem BoundPass.exists_course_of_follows {χ π ο : Type} [Checked π χ] {level : Level}
    (pass : BoundPass level χ π ο (Visit (level.Context ν ω χ π) ν τ σ ε))
    {rule : ν → Board τ → Decision ν × Board τ} (follows : pass.visit.Follows rule)
    (host : Host ν ω ρ) (root : ν) (st : σ × ρ) :
    ∃ course final splice,
      CourseOf host pass.visit (pass.args.enrich ⟨root, host.options⟩) root st.1 st.2 course final
        (.ok splice) ∧
      ((pass.transform host root).run st).1.1 = .ok splice := by
  obtain ⟨course, final, answer, whole⟩ := exists_courseOf host pass.visit
    (pass.args.enrich ⟨root, host.options⟩) root st.1 st.2
  obtain ⟨answers, complete⟩ := whole.walked.completes follows
  cases answer with
  | ok splice =>
    have result := congrArg (·.1.result) whole.traversal
    exact ⟨course, final, splice, whole, result⟩
  | error e => cases complete.symm.trans whole.outcome

variable {options : Options} {visit : Visit κ Tree τ σ ε} {cx : κ}

theorem Tree.rebuild_unchanged {n node : Tree} {answers : List (Splice Tree)} {s s' : Supply}
    (rebuilt : (Tree.rebuild n answers).run s = (node, s')) (kept : answers = n.children.map .keep) :
    node = n ∧ s' = s := by
  rcases Tree.rebuild_cases rebuilt with ⟨_, same⟩ | ⟨changed, _⟩
  · exact same
  · exact absurd kept changed

theorem Walked.kept_of_quiet {ns : List Tree} {st final : Progress τ σ × Supply}
    {course : Course κ Tree τ ε} (walked : Walked (Tree.host options) visit cx ns st course final)
    (quiet : course.Quiet) : course.outcome = .ok (ns.map .keep) := by
  induction walked with
  | done => rfl
  | failed => simp [Course.Quiet, Course.calls, Call.Quiet, callAt] at quiet
  | settled asked settles _ others =>
    obtain ⟨here, later⟩ := Course.quiet_settled.mp quiet
    rw [Course.outcome, others later, (quiet_settled_iff settles _).mpr here]
    rfl
  | @entered n ns st st' inner final below answers node supply later asked _ complete rebuilt _
      inside others =>
    obtain ⟨_, below_quiet, later_quiet⟩ := Course.quiet_entered.mp quiet
    have unchanged : answers = n.children.map .keep :=
      Except.ok.inj (complete.symm.trans (inside below_quiet))
    rw [Course.outcome, others later_quiet, (Tree.rebuild_unchanged rebuilt unchanged).1]
    rfl
  | broken asked _ fails inside =>
    have below_quiet : Course.Quiet _ := fun call member => quiet call (List.mem_cons_of_mem _ member)
    cases fails.symm.trans (inside below_quiet)

theorem Walked.node_mem {ns : List Tree} {st final : Progress τ σ × Supply}
    {course : Course κ Tree τ ε} (walked : Walked (Tree.host options) visit cx ns st course final) :
    ∀ call ∈ course.calls, call.node ∈ Node.preorders ns := by
  intro call member
  have due := walked.order rfl [] []
  simp only [Node.pruned, Course.behind_nil, List.append_nil] at due
  have listed : call.node ∈ course.calls.map (·.node) := List.mem_map_of_mem member
  rw [← due] at listed
  exact (Node.pruned_sublist _ _).subset listed

end TreeVisit
