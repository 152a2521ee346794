import TreeVisit.Program
import TreeVisit.Proofs.Walk.Order

/- Structural sharing. A node keeps its mark wherever it goes, so equal trees with equal marks are one
   object; a walk gives back the very node that it entered if no call below it asked for a change,
   and else one node that did not exist before. -/
namespace TreeVisit

variable {κ τ σ ε : Type} [Storable τ]

namespace Supply

def Past (s : Supply) (n : Tree) : Prop := ∀ k, n.mark = .rebuilt k → k < s.next

/-- No mark in the trees will be drawn again, as is so of all trees that were built before. -/
def Issued (s : Supply) (ns : List Tree) : Prop := ∀ n ∈ Node.preorders ns, s.Past n

instance (s : Supply) (n : Tree) : Decidable (s.Past n) :=
  match mark : n.mark with
  | .given _ => isTrue fun _ drawn => nomatch mark.symm.trans drawn
  | .rebuilt k =>
    decidable_of_iff (k < s.next)
      ⟨fun old _ drawn => Mark.rebuilt.inj (mark.symm.trans drawn) ▸ old, fun past => past k mark⟩

instance (s : Supply) (ns : List Tree) : Decidable (s.Issued ns) :=
  inferInstanceAs (Decidable (∀ n ∈ _, _))

variable {s s' : Supply} {n : Tree} {ns : List Tree}

theorem Past.later (past : s.Past n) (grown : s.next ≤ s'.next) : s'.Past n := by
  intro k mark
  have old := past k mark
  omega

theorem Issued.later (issued : s.Issued ns) (grown : s.next ≤ s'.next) : s'.Issued ns := by
  intro m member
  exact (issued m member).later grown

theorem issued_cons : s.Issued (n :: ns) ↔ s.Past n ∧ s.Issued n.children ∧ s.Issued ns := by
  simp only [Issued, Node.preorders, Node.preorder_eq_cons, List.cons_append,
    List.forall_mem_cons, List.forall_mem_append]

theorem issued_append {ms : List Tree} : s.Issued (ms ++ ns) ↔ s.Issued ms ∧ s.Issued ns := by
  simp only [Issued, Node.preorders_append, List.forall_mem_append]

theorem Issued.root (issued : s.Issued (n :: ns)) : s.Past n := (issued_cons.mp issued).1
theorem Issued.below (issued : s.Issued (n :: ns)) : s.Issued n.children := (issued_cons.mp issued).2.1
theorem Issued.others (issued : s.Issued (n :: ns)) : s.Issued ns := (issued_cons.mp issued).2.2

end Supply

theorem Tree.rebuild_cases {n node : Tree} {answers : List (Splice Tree)} {s s' : Supply}
    (rebuilt : (Tree.rebuild n answers).run s = (node, s')) :
    (answers = n.children.map .keep ∧ node = n ∧ s' = s) ∨
      (answers ≠ n.children.map .keep ∧
        node = n.withChildren (.rebuilt s.next) (answers.flatMap Splice.nodes) ∧
        s'.next = s.next + 1) := by
  unfold Tree.rebuild at rebuilt
  split at rebuilt
  next same =>
    cases rebuilt
    exact Or.inl ⟨same, rfl, rfl⟩
  next changed =>
    cases rebuilt
    exact Or.inr ⟨changed, rfl, rfl⟩

theorem Tree.rebuild_next_le {n node : Tree} {answers : List (Splice Tree)} {s s' : Supply}
    (rebuilt : (Tree.rebuild n answers).run s = (node, s')) : s.next ≤ s'.next := by
  rcases Tree.rebuild_cases rebuilt with ⟨_, _, rfl⟩ | ⟨_, _, grown⟩
  · exact Nat.le_refl _
  · omega

theorem Tree.rebuild_same_iff {n node : Tree} {answers : List (Splice Tree)} {s s' : Supply}
    (rebuilt : (Tree.rebuild n answers).run s = (node, s')) (past : s.Past n) :
    node = n ↔ answers = n.children.map .keep := by
  rcases Tree.rebuild_cases rebuilt with ⟨same, unchanged, _⟩ | ⟨changed, new, _⟩
  · exact iff_of_true unchanged same
  · apply iff_of_false
    · intro same
      have mark : n.mark = .rebuilt s.next := by
        rw [← same, new]
        rfl
      have old := past s.next mark
      omega
    · exact changed

/-- A call that leaves its node as it is. To replace a node by an equal one with another mark is a
    change, and so is to flatten it to itself. -/
def Call.Quiet (call : Call κ Tree τ ε) : Prop :=
  call.reply = .ok .recurse ∨ call.reply = .ok (.replace call.node)

def Course.Quiet (course : Course κ Tree τ ε) : Prop := ∀ call ∈ course.calls, call.Quiet

theorem quiet_settled_iff {ρ : Type} {n : Tree} {st st' : Progress τ σ × ρ} {decision : Decision Tree}
    {answer : Splice Tree} (settles : decision.splice? = some answer) (cx : κ) :
    answer = .keep n ↔ (callAt cx n st (.ok decision) st' : Call κ Tree τ ε).Quiet := by
  cases decision with
  | recurse => cases settles
  | remove =>
    cases settles
    simp [Call.Quiet, callAt]
  | replace m =>
    cases settles
    simp [Call.Quiet, callAt]
  | flatten ms =>
    cases settles
    simp [Call.Quiet, callAt]

theorem Course.quiet_settled {call : Call κ Tree τ ε} {answer : Splice Tree}
    {later : Course κ Tree τ ε} :
    (settled call answer later).Quiet ↔ call.Quiet ∧ later.Quiet := by
  simp [Quiet, calls]

theorem Course.quiet_entered {call : Call κ Tree τ ε} {below later : Course κ Tree τ ε} {node : Tree} :
    (entered call below node later).Quiet ↔ call.Quiet ∧ below.Quiet ∧ later.Quiet := by
  simp [Quiet, calls, or_imp, forall_and]

variable {options : Options} {visit : Visit κ Tree τ σ ε} {cx : κ}

theorem Walked.next_le {ns : List Tree} {st final : Progress τ σ × Supply} {course : Course κ Tree τ ε}
    (walked : Walked (Tree.host options) visit cx ns st course final) :
    st.2.next ≤ final.2.next := by
  induction walked with
  | done => exact Nat.le_refl _
  | failed asked =>
    have unchanged := visitNode_supply_error asked
    exact Nat.le_of_eq (congrArg Supply.next unchanged.symm)
  | settled asked _ _ others => rwa [visitNode_supply asked] at others
  | entered asked _ _ rebuilt _ children others =>
    rw [visitNode_supply asked] at children
    exact Nat.le_trans children (Nat.le_trans (Tree.rebuild_next_le rebuilt) others)
  | broken asked _ _ children => rwa [visitNode_supply asked] at children

theorem Supply.Issued.asked {n : Tree} {ns : List Tree} {st st' : Progress τ σ × Supply}
    {decision : Decision Tree} (issued : st.2.Issued (n :: ns))
    (asked : visitNode visit cx n st = .ok decision st') : st'.2.Issued (n :: ns) := by
  rwa [visitNode_supply asked]

theorem Supply.Issued.entered {n node : Tree} {ns : List Tree} {st st' inner : Progress τ σ × Supply}
    {below : Course κ Tree τ ε} {answers : List (Splice Tree)} {supply : Supply}
    (issued : st.2.Issued (n :: ns)) (asked : visitNode visit cx n st = .ok .recurse st')
    (children : Walked (Tree.host options) visit cx n.children st' below inner)
    (rebuilt : (Tree.rebuild n answers).run inner.2 = (node, supply)) :
    st'.2.Issued n.children ∧ inner.2.Past n ∧ supply.Issued ns := by
  have issued := issued.asked asked
  have grown := children.next_le
  have drawn := Tree.rebuild_next_le rebuilt
  exact ⟨issued.below, issued.root.later grown, issued.others.later (Nat.le_trans grown drawn)⟩

theorem Walked.kept_iff_quiet {ns : List Tree} {st final : Progress τ σ × Supply}
    {course : Course κ Tree τ ε} (walked : Walked (Tree.host options) visit cx ns st course final)
    (issued : st.2.Issued ns) {answers : List (Splice Tree)} (complete : course.outcome = .ok answers) :
    answers = ns.map .keep ↔ course.Quiet := by
  induction walked generalizing answers with
  | done =>
    cases complete
    simp [Course.Quiet, Course.calls]
  | failed asked => cases complete
  | settled asked settles _ others =>
    obtain ⟨rest, complete', rfl⟩ := complete_later complete
    have others := others (issued.asked asked).others complete'
    rw [Course.quiet_settled, ← quiet_settled_iff settles, ← others, List.map_cons, List.cons.injEq]
  | @entered n ns st st' inner final below answers node supply later asked children finished
      rebuilt _ kept others =>
    obtain ⟨rest, complete', rfl⟩ := complete_later complete
    obtain ⟨within, past, behind⟩ := issued.entered asked children rebuilt
    have same : node = n ↔ answers = n.children.map .keep := Tree.rebuild_same_iff rebuilt past
    have kept : answers = n.children.map .keep ↔ below.Quiet := kept within finished
    have others : rest = ns.map .keep ↔ later.Quiet := others behind complete'
    have quiet : (callAt cx n st (.ok .recurse) st' : Call κ Tree τ ε).Quiet := Or.inl rfl
    rw [Course.quiet_entered, ← others, ← kept, ← same, List.map_cons, List.cons.injEq,
      Splice.keep.injEq]
    exact (and_iff_right quiet).symm
  | broken asked _ fails children => cases fails.symm.trans complete

/-- A node whose visit recursed, with the course of the walk below it and what then stood for it. -/
structure Entry (κ τ : Type) [Storable τ] (ε : Type) where
  call : Call κ Tree τ ε
  below : Course κ Tree τ ε
  node : Tree

def Course.entries : Course κ Tree τ ε → List (Entry κ τ ε)
  | done | failed _ _ => []
  | settled _ _ later => later.entries
  | entered call below node later => ⟨call, below, node⟩ :: (below.entries ++ later.entries)
  | broken _ below => below.entries

/-- The marks of the nodes that the walk put in place of others of its own accord. -/
def Course.created (course : Course κ Tree τ ε) : List Mark :=
  (course.entries.filter fun entry => entry.node ≠ entry.call.node).map (·.node.mark)

def Supply.drawn (s s' : Supply) : List Mark := (List.range' s.next (s'.next - s.next)).map .rebuilt

structure Entry.Exact (options : Options) (visit : Visit κ Tree τ σ ε) (cx : κ)
    (entry : Entry κ τ ε) : Prop where
  inside : ∃ st st' : Progress τ σ × Supply,
    Walked (Tree.host options) visit cx entry.call.node.children st entry.below st'
  kind : entry.node.kind = entry.call.node.kind
  text : entry.node.text? = entry.call.node.text?
  spliced : ∃ answers, entry.below.outcome = .ok answers ∧
    entry.node.children = answers.flatMap Splice.nodes
  same : entry.node = entry.call.node ↔ entry.below.Quiet

@[simp] theorem Splice.flatMap_nodes_keep {ν : Type} (ns : List ν) :
    (ns.map keep).flatMap nodes = ns := by
  rw [List.flatMap_map]
  exact List.flatMap_singleton' ns

theorem Tree.rebuild_spliced {n node : Tree} {answers : List (Splice Tree)} {s s' : Supply}
    (rebuilt : (Tree.rebuild n answers).run s = (node, s')) :
    node.kind = n.kind ∧ node.text? = n.text? ∧ node.children = answers.flatMap Splice.nodes := by
  rcases Tree.rebuild_cases rebuilt with ⟨same, unchanged, _⟩ | ⟨_, new, _⟩
  · rw [unchanged, same, Splice.flatMap_nodes_keep]
    exact ⟨rfl, rfl, rfl⟩
  · rw [new]
    exact ⟨rfl, rfl, rfl⟩

theorem Walked.entries_exact {ns : List Tree} {st final : Progress τ σ × Supply}
    {course : Course κ Tree τ ε} (walked : Walked (Tree.host options) visit cx ns st course final)
    (issued : st.2.Issued ns) : ∀ entry ∈ course.entries, entry.Exact options visit cx := by
  induction walked with
  | done =>
    intro entry member
    cases member
  | failed =>
    intro entry member
    cases member
  | settled asked _ _ others => exact others (issued.asked asked).others
  | @entered n ns st st' inner final below answers node supply later asked children finished
      rebuilt _ exact_below others =>
    obtain ⟨within, past, behind⟩ := issued.entered asked children rebuilt
    have same : node = n ↔ below.Quiet :=
      (Tree.rebuild_same_iff rebuilt past).trans (children.kept_iff_quiet within finished)
    obtain ⟨kind, text, spliced⟩ := Tree.rebuild_spliced rebuilt
    intro entry member
    rcases List.mem_cons.mp member with rfl | deeper
    · exact ⟨⟨st', inner, children⟩, kind, text, ⟨answers, finished, spliced⟩, same⟩
    · rcases List.mem_append.mp deeper with inside | outside
      · exact exact_below within entry inside
      · exact others behind entry outside
  | broken asked _ _ children => exact children (issued.asked asked).below

def Call.recursed {ν : Type} (call : Call κ ν τ ε) : Bool :=
  match call.reply with
  | .ok decision => decision.isRecurse
  | .error _ => false

theorem Call.recursed_settled {ρ : Type} {n : Tree} {st st' : Progress τ σ × ρ}
    {decision : Decision Tree} {answer : Splice Tree} (settles : decision.splice? = some answer) :
    (callAt cx n st (.ok decision) st' : Call κ Tree τ ε).recursed = false := by
  cases decision with
  | recurse => cases settles
  | remove => rfl
  | replace m => rfl
  | flatten ms => rfl

theorem Walked.entries_calls {ns : List Tree} {st final : Progress τ σ × Supply}
    {course : Course κ Tree τ ε} (walked : Walked (Tree.host options) visit cx ns st course final)
    {answers : List (Splice Tree)} (complete : course.outcome = .ok answers) :
    course.entries.map (·.call) = course.calls.filter Call.recursed := by
  induction walked generalizing answers with
  | done => rfl
  | failed => cases complete
  | @settled n _ st st' _ decision _ _ asked settles _ others =>
    obtain ⟨rest, complete', _⟩ := complete_later complete
    have skipped : (callAt cx n st (.ok decision) st' : Call κ Tree τ ε).recursed = false :=
      Call.recursed_settled settles
    rw [Course.calls, List.filter_cons_of_neg (by rw [skipped]; exact Bool.false_ne_true)]
    exact others complete'
  | entered asked _ finished _ _ inside others =>
    obtain ⟨rest, complete', _⟩ := complete_later complete
    rw [Course.calls, List.filter_cons_of_pos rfl, List.filter_append, ← inside finished,
      ← others complete', Course.entries, List.map_cons, List.map_append]
  | broken asked _ fails => cases fails.symm.trans complete

theorem Course.calls_of_entry (course : Course κ Tree τ ε) {entry : Entry κ τ ε}
    (member : entry ∈ course.entries) : entry.call :: entry.below.calls <:+: course.calls := by
  induction course with
  | done => cases member
  | failed => cases member
  | settled call answer later others => exact (others member).trans (List.suffix_cons ..).isInfix
  | entered call below node later inside others =>
    rcases List.mem_cons.mp member with rfl | deeper
    · exact (List.prefix_append (call :: below.calls) later.calls).isInfix
    · have tail := (List.suffix_cons call (below.calls ++ later.calls)).isInfix
      refine List.IsInfix.trans ?_ tail
      rcases List.mem_append.mp deeper with within | behind
      · exact (inside within).trans (List.prefix_append ..).isInfix
      · exact (others behind).trans (List.suffix_append ..).isInfix
  | broken call below inside => exact (inside member).trans (List.suffix_cons ..).isInfix

theorem Supply.drawn_self (s : Supply) : s.drawn s = [] := by
  rw [drawn, Nat.sub_self]
  rfl

theorem Supply.drawn_append {s s' s'' : Supply} (first : s.next ≤ s'.next)
    (second : s'.next ≤ s''.next) : s.drawn s'' = s.drawn s' ++ s'.drawn s'' := by
  have whole : s''.next - s.next = (s'.next - s.next) + (s''.next - s'.next) := by omega
  have middle : s.next + 1 * (s'.next - s.next) = s'.next := by omega
  rw [drawn, drawn, drawn, ← List.map_append, whole, ← List.range'_append, middle]

theorem Supply.nodup_drawn (s s' : Supply) : (s.drawn s').Nodup := by
  have numbers : (List.range' s.next (s'.next - s.next)).Nodup := List.nodup_range'
  apply List.Pairwise.map _ ?_ numbers
  intro j k apart same
  exact apart (Mark.rebuilt.inj same)

theorem Supply.mem_drawn {s s' : Supply} {mark : Mark} :
    mark ∈ s.drawn s' ↔ ∃ k, mark = .rebuilt k ∧ s.next ≤ k ∧ k < s'.next := by
  simp only [drawn, List.mem_map, List.mem_range'_1]
  constructor
  · rintro ⟨k, ⟨above, under⟩, rfl⟩
    exact ⟨k, rfl, above, by omega⟩
  · rintro ⟨k, rfl, above, under⟩
    exact ⟨k, ⟨above, by omega⟩, rfl⟩

theorem Tree.rebuild_drawn {n node : Tree} {answers : List (Splice Tree)} {s s' : Supply}
    (rebuilt : (Tree.rebuild n answers).run s = (node, s')) (past : s.Past n) :
    (if node = n then [] else [node.mark]) = s.drawn s' := by
  have same := Tree.rebuild_same_iff rebuilt past
  rcases Tree.rebuild_cases rebuilt with ⟨kept, unchanged, rfl⟩ | ⟨changed, new, grown⟩
  · rw [if_pos unchanged, Supply.drawn_self]
  · have one : s'.next - s.next = 1 := by omega
    have differs : node ≠ n := by
      intro unchanged
      exact changed (same.mp unchanged)
    rw [if_neg differs, new, Supply.drawn, one]
    rfl

theorem Course.created_entered {call : Call κ Tree τ ε} {below later : Course κ Tree τ ε}
    {node : Tree} : (entered call below node later).created =
      (if node = call.node then [] else [node.mark]) ++ (below.created ++ later.created) := by
  by_cases same : node = call.node
  · simp [created, entries, same]
  · simp [created, entries, same]

theorem Walked.created_perm {ns : List Tree} {st final : Progress τ σ × Supply}
    {course : Course κ Tree τ ε} (walked : Walked (Tree.host options) visit cx ns st course final)
    (issued : st.2.Issued ns) : course.created.Perm (st.2.drawn final.2) := by
  induction walked with
  | @done st =>
    rw [Supply.drawn_self]
    exact List.Perm.nil
  | failed asked =>
    rw [visitNode_supply_error asked, Supply.drawn_self]
    exact List.Perm.nil
  | settled asked _ _ others =>
    rw [← visitNode_supply asked]
    exact others (issued.asked asked).others
  | @entered n ns st st' inner final below answers node supply later asked children _ rebuilt
      walked_later inside others =>
    obtain ⟨within, past, behind⟩ := issued.entered asked children rebuilt
    have inside : below.created.Perm (st'.2.drawn inner.2) := inside within
    have others : later.created.Perm (supply.drawn final.2) := others behind
    have here : (if node = n then [] else [node.mark]) = inner.2.drawn supply :=
      Tree.rebuild_drawn rebuilt past
    have grown := children.next_le
    have grown' := Tree.rebuild_next_le rebuilt
    have whole : st'.2.drawn final.2 =
        st'.2.drawn inner.2 ++ (inner.2.drawn supply ++ supply.drawn final.2) := by
      rw [← Supply.drawn_append grown' walked_later.next_le,
        ← Supply.drawn_append grown (Nat.le_trans grown' walked_later.next_le)]
    rw [Course.created_entered, ← visitNode_supply asked, whole]
    change ((if node = n then [] else [node.mark]) ++ _).Perm _
    rw [here]
    exact (List.perm_append_comm_assoc _ _ _).trans (inside.append (others.append_left _))
  | broken asked _ _ children =>
    rw [← visitNode_supply asked]
    exact children (issued.asked asked).below

/-- A walk that ends well gives back the tree that it was given exactly if every call was quiet.
    Within it the same is so of each node that was entered, and a node that does not stay is one
    that was created for it alone, with its kind and text. -/
theorem sharing_is_exact {χ π ο : Type} [Checked π χ] {level : Level}
    (pass : BoundPass level χ π ο (Visit (level.Context Tree Options χ π) Tree τ σ ε))
    (options : Options) (root : Tree) (own : σ) (supply : Supply) (issued : supply.Issued [root])
    {splice : Splice Tree}
    (ok : ((pass.transform (Tree.host options) root).run (own, supply)).1.1 = .ok splice) :
    let cx := pass.args.enrich ⟨root, options⟩
    let log := pass.calls (Tree.host options) root own supply
    (splice = .keep root ↔ ∀ call ∈ log, call.Quiet) ∧
      ∃ course final,
        CourseOf (Tree.host options) pass.visit cx root own supply course final (.ok splice) ∧
        course.entries.map (·.call) = log.filter Call.recursed ∧
        (∀ entry ∈ course.entries,
          entry.Exact options pass.visit cx ∧ entry.call :: entry.below.calls <:+: log) ∧
        course.created.Perm (supply.drawn final.2) ∧ course.created.Nodup ∧
        ∀ n ∈ root.descendants, n.mark ∉ course.created := by
  intro cx log
  obtain ⟨course, final, answer, whole⟩ :=
    exists_courseOf (Tree.host options) pass.visit cx root own supply
  obtain rfl : answer = .ok splice := by
    change (traverse (Tree.host options) pass.visit cx root (own, supply)).1.result = _ at ok
    rwa [whole.traversal] at ok
  have calls : log = course.calls := whole.calls_eq
  have complete : course.outcome = .ok [splice] := whole.outcome
  have created := whole.walked.created_perm issued
  constructor
  · rw [calls]
    have kept := whole.walked.kept_iff_quiet issued complete
    rwa [List.map_cons, List.map_nil, List.cons.injEq, and_iff_left rfl] at kept
  refine ⟨course, final, whole, ?_, ?_, created, ?_, ?_⟩
  · rw [calls]
    exact whole.walked.entries_calls complete
  · intro entry member
    rw [calls]
    exact ⟨whole.walked.entries_exact issued entry member, course.calls_of_entry member⟩
  · exact created.nodup_iff.mpr (Supply.nodup_drawn supply final.2)
  · intro n member old
    obtain ⟨k, mark, drawn, _⟩ := Supply.mem_drawn.mp (created.mem_iff.mp old)
    rw [Node.descendants, Node.listing_eq_preorders] at member
    exact Nat.not_lt_of_le drawn (issued n member k mark)

def removing (kind : String) : Visit κ Tree τ Unit Fault := fun _ n =>
  return if n.isKind kind then .remove else .recurse

theorem sharing_around_a_removed_node :
    let pass : BoundPass .raw Checker Program Options
        (Visit (Level.raw.Context Tree Options Checker Program) Tree Empty Unit Fault) :=
      ⟨⟨removing "b"⟩, .raw⟩
    let root : Tree :=
      .mk (.given 0) "block" none [.mk (.given 1) "a" none [], .mk (.given 2) "b" none []]
    Supply.Issued ⟨3⟩ [root] ∧
      ((pass.transform (Tree.host default) root).run ((), ⟨3⟩)).1.1 =
        .ok (.keep (.mk (.rebuilt 3) "block" none [.mk (.given 1) "a" none []])) ∧
      ¬ ∀ call ∈ pass.calls (Tree.host default) root () ⟨3⟩, call.Quiet := by
  intro pass root
  have issued : Supply.Issued ⟨3⟩ [root] := by decide
  have ok : ((pass.transform (Tree.host default) root).run ((), ⟨3⟩)).1.1 =
      .ok (.keep (.mk (.rebuilt 3) "block" none [.mk (.given 1) "a" none []])) := by
    with_unfolding_all rfl
  refine ⟨issued, ok, ?_⟩
  intro quiet
  have unchanged := (sharing_is_exact pass default root () ⟨3⟩ issued ok).1.mpr quiet
  exact absurd unchanged (by decide)

end TreeVisit
