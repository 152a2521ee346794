import Mathlib.Data.List.Induction
import TreeVisit.Proofs.Board
import TreeVisit.Proofs.Walk.Ending
import TreeVisit.Proofs.Walk.Placing

/- Replacement within a budget. A visit that counts on the board how many nodes it has replaced, and
   replaces no more once the budget is used up, spends it on the first nodes in pre-order that
   qualify: those that meet the test and are not below one that was replaced. -/
namespace TreeVisit

/-- The node of the place meets the test, nothing above it is replaced, and fewer than the budget are
    replaced before it. -/
def Due (p : Tree → Bool) (m : Nat) (replaced : Nat → Bool) (s : Spot Mark) : Prop :=
  p s.node = true ∧ (∀ a ∈ s.above, replaced a.number = false) ∧
    (List.range s.number).countP replaced < m

instance (p : Tree → Bool) (m : Nat) (replaced : Nat → Bool) (s : Spot Mark) :
    Decidable (Due p m replaced s) :=
  inferInstanceAs (Decidable (_ ∧ _ ∧ _))

theorem due_congr {p : Tree → Bool} {m : Nat} {replaced replaced' : Nat → Bool} {s : Spot Mark}
    (earlier : ∀ a ∈ s.above, a.number < s.number)
    (same : ∀ i < s.number, replaced' i = replaced i) : Due p m replaced' s ↔ Due p m replaced s := by
  have before : (List.range s.number).countP replaced' = (List.range s.number).countP replaced := by
    apply List.countP_congr
    intro i member
    rw [same i (List.mem_range.mp member)]
  have above : (∀ a ∈ s.above, replaced' a.number = false) ↔
      ∀ a ∈ s.above, replaced a.number = false := by
    apply forall₂_congr
    intro a member
    rw [same a.number (earlier a member)]
  rw [Due, Due, before, above]

/-- Places can be scanned one after the other: what is replaced before a place decides whether it is
    replaced itself. -/
theorem exists_replaced (p : Tree → Bool) (m : Nat) {spots : List (Spot Mark)}
    (ordered : (spots.map (·.number)).Pairwise (· < ·))
    (earlier : ∀ s ∈ spots, ∀ a ∈ s.above, a.number < s.number) :
    ∃ replaced : Nat → Bool, ∀ s ∈ spots, replaced s.number = true ↔ Due p m replaced s := by
  induction spots using List.reverseRecOn with
  | nil => exact ⟨fun _ => false, by simp⟩
  | append_singleton spots s ih =>
    rw [List.map_append, List.pairwise_append] at ordered
    obtain ⟨ordered, _, last⟩ := ordered
    obtain ⟨earlier, earlier_s⟩ := List.forall_mem_append.mp earlier
    rw [List.forall_mem_singleton] at earlier_s
    obtain ⟨replaced, scanned⟩ := ih ordered earlier
    let replaced' := fun i => if i = s.number then decide (Due p m replaced s) else replaced i
    have kept : ∀ i < s.number, replaced' i = replaced i := by
      intro i before
      exact if_neg (Nat.ne_of_lt before)
    refine ⟨replaced', List.forall_mem_append.mpr ⟨?_, List.forall_mem_singleton.mpr ?_⟩⟩
    · intro t member
      have before : t.number < s.number :=
        last t.number (List.mem_map_of_mem member) s.number (by simp)
      have kept_before : ∀ i < t.number, replaced' i = replaced i := by
        intro i earlier
        exact kept i (Nat.lt_trans earlier before)
      rw [kept t.number before, due_congr (earlier t member) kept_before]
      exact scanned t member
    · rw [due_congr earlier_s kept]
      simp [replaced']

theorem Node.exists_replaced_spots (p : Tree → Bool) (m : Nat) (root : Tree) :
    ∃ replaced : Nat → Bool, ∀ s ∈ root.spots, replaced s.number = true ↔ Due p m replaced s := by
  rw [spots_eq_spotsAll]
  apply exists_replaced
  · rw [spotsAll_numbers]
    exact List.pairwise_lt_range' 1
  · exact spotsAll_above_lt (by simp) [root]

theorem countP_range_add (f : Nat → Bool) (first count : Nat) :
    (List.range (first + count)).countP f =
      (List.range first).countP f + (List.range' first count).countP f := by
  rw [List.range_eq_range', List.range_eq_range', ← List.range'_append_1, List.countP_append,
    Nat.zero_add]

theorem countP_below_replaced {p : Tree → Bool} {m number : Nat} {replaced : Nat → Bool}
    {above : List (Place Mark)} {n : Tree} {ns : List Tree} (here : replaced number = true)
    (scanned : ∀ s ∈ Node.spotsAll (⟨number, n⟩ :: above) (number + 1) ns,
      replaced s.number = true ↔ Due p m replaced s) :
    (List.range' (number + 1) (Node.sizes ns)).countP replaced = 0 := by
  rw [← Node.spotsAll_numbers (⟨number, n⟩ :: above), List.countP_map, List.countP_eq_zero]
  intro s member below_replaced
  have due := (scanned s member).mp below_replaced
  have inside := Node.spotsAll_above _ _ ns s member List.mem_cons_self
  have spared := due.2.1 _ inside
  simp [here] at spared

section
variable {κ ω ρ τ σ ε : Type} [Storable τ]

theorem Placed.left_of_reply {q : Placed κ τ ε} {r : Tree} {replaced : Nat → Bool}
    (reply : q.call.reply = .ok (if replaced q.number then .replace r else .recurse)) :
    q.left = if replaced q.number then r.outline q.depth else [q.entry] := by
  cases here : replaced q.number with
  | true =>
    rw [here] at reply
    simp [Placed.left, Call.recursed, Call.given, reply, Decision.isRecurse, Decision.given,
      Node.outline_eq_outlines]
  | false =>
    rw [here] at reply
    simp [Placed.left, Call.recursed, reply, Decision.isRecurse]

variable [DecidableEq τ]

def rationing (p : Tree → Bool) (r : Tree) (key : String) (m : Count) : Visit κ Tree τ σ ε :=
  fun _ n => do
    let desk ← get
    if p n && desk.board.count key < m then
      set { desk with board := (desk.board.increment key).2 }
      return .replace r
    else return .recurse

theorem rationing_follows (p : Tree → Bool) (r : Tree) (key : String) (m : Count) :
    (rationing p r key m : Visit κ Tree τ σ ε).Follows fun n board =>
      if p n && board.count key < m then (.replace r, (board.increment key).2)
      else (.recurse, board) := by
  intro cx n desk
  have read : (get : EStateM ε (Desk τ σ) (Desk τ σ)) desk = .ok desk desk := rfl
  refine ⟨desk.own, ?_⟩
  rw [rationing, bind_ok read]
  split
  next replaces =>
    simp only [if_pos replaces]
    rfl
  next goes_on =>
    simp only [if_neg goes_on]
    rfl

variable {host : Host Tree ω ρ} {p : Tree → Bool} {r : Tree} {key : String} {m : Count} {cx : κ}
  {replaced : Nat → Bool} {above : List (Place Mark)} {number : Nat}

theorem rationing_asked {n : Tree} {st st' : Progress τ σ × ρ} {decision : Decision Tree}
    (asked : visitNode (rationing p r key m : Visit κ Tree τ σ ε) cx n st = .ok decision st')
    (scanned : replaced number = true ↔ Due p m replaced ⟨⟨number, n⟩, above⟩)
    (spared : ∀ a ∈ above, replaced a.number = false)
    (counted : st.1.count key = (List.range number).countP replaced) (within : st.1.count key ≤ m) :
    decision = (if replaced number then .replace r else .recurse) ∧
      st'.1.count key = (List.range (number + 1)).countP replaced ∧ st'.1.count key ≤ m := by
  have said := (rationing_follows p r key m).asked asked
  have due : Due p m replaced ⟨⟨number, n⟩, above⟩ ↔
      (p n && decide (st.1.desk.board.count key < m)) = true := by
    rw [Due, Bool.and_eq_true, decide_eq_true_eq, UInt64.lt_iff_toNat_lt, ← Progress.count, counted]
    constructor
    · intro ⟨meets, _, affordable⟩
      exact ⟨meets, affordable⟩
    · intro ⟨meets, affordable⟩
      exact ⟨meets, spared, affordable⟩
  have next : (List.range (number + 1)).countP replaced =
      st.1.count key + if replaced number then 1 else 0 := by
    rw [List.range_succ, List.countP_append, counted, List.countP_singleton]
  rw [next]
  change (if (p n && decide (st.1.desk.board.count key < m)) = true then _ else _) = _ at said
  cases here : replaced number with
  | true =>
    have replaces := due.mp (scanned.mp here)
    rw [if_pos replaces] at said
    obtain ⟨decided, left⟩ := Prod.mk.inj said
    simp only [Bool.and_eq_true, decide_eq_true_eq, UInt64.lt_iff_toNat_lt] at replaces
    have affordable : st.1.count key < (m : Nat) := replaces.2
    have grown : st'.1.count key = st.1.count key + 1 := by
      rw [Progress.count, ← left, Board.count_increment]
      exact Board.toNat_increment (Nat.lt_of_lt_of_le affordable m.le_greatest)
    exact ⟨decided.symm, grown, grown ▸ affordable⟩
  | false =>
    have goes_on : ¬ (p n && decide (st.1.desk.board.count key < m)) = true := by
      intro replaces
      have contra := scanned.mpr (due.mpr replaces)
      simp [here] at contra
    rw [if_neg goes_on] at said
    obtain ⟨decided, left⟩ := Prod.mk.inj said
    have same : st'.1.count key = st.1.count key := by
      rw [Progress.count, ← left]
      rfl
    rw [same]
    exact ⟨decided.symm, rfl, within⟩

theorem Walked.rationed (tree : host.children = Node.children) {ns : List Tree}
    {st final : Progress τ σ × ρ} {course : Course κ Tree τ ε} {answers : List (Splice Tree)}
    (walked : Walked host (rationing p r key m) cx ns st course final)
    (complete : course.outcome = .ok answers)
    (scanned : ∀ s ∈ Node.spotsAll above number ns,
      replaced s.number = true ↔ Due p m replaced s)
    (spared : ∀ a ∈ above, replaced a.number = false)
    (counted : st.1.count key = (List.range number).countP replaced) (within : st.1.count key ≤ m) :
    (∀ q ∈ course.placed above number,
      q.call.reply = .ok (if replaced q.number then .replace r else .recurse)) ∧
    final.1.count key = (List.range (number + Node.sizes ns)).countP replaced ∧
    final.1.count key ≤ m ∧ ∃ ts : List Tree, answers = ts.map .keep := by
  induction walked generalizing answers above number with
  | done =>
    cases complete
    exact ⟨by simp [Course.placed], counted, within, [], rfl⟩
  | failed => cases complete
  | @settled n rest st st' final decision answer later asked settles _ others =>
    obtain ⟨_, complete', rfl⟩ := complete_later complete
    simp only [Node.spotsAll_cons, Node.spotsFrom_eq, List.forall_mem_append,
      List.forall_mem_cons] at scanned
    obtain ⟨⟨first, scanned_below⟩, scanned_later⟩ := scanned
    obtain ⟨decided, counted', within'⟩ := rationing_asked asked first spared counted within
    have here : replaced number = true := by
      cases here : replaced number with
      | true => rfl
      | false =>
        rw [decided, here] at settles
        cases settles
    have next : st'.1.count key = (List.range (number + n.size)).countP replaced := by
      rw [counted', Node.size_eq, ← Nat.add_assoc, countP_range_add replaced (number + 1),
        countP_below_replaced here scanned_below]
      exact (Nat.add_zero _).symm
    obtain ⟨replies, reached, bounded, ts, rfl⟩ :=
      others complete' scanned_later spared next within'
    rw [decided, if_pos here] at settles
    cases settles
    refine ⟨?_, ?_, bounded, r :: ts, rfl⟩
    · rw [Course.placed, List.forall_mem_cons]
      exact ⟨congrArg Except.ok decided, replies⟩
    · rw [reached, Node.sizes, Nat.add_assoc]
  | @entered n rest st st' inner final below answers node supply later asked _ finished _ _ inside
      others =>
    obtain ⟨_, complete', rfl⟩ := complete_later complete
    simp only [Node.spotsAll_cons, Node.spotsFrom_eq, List.forall_mem_append,
      List.forall_mem_cons] at scanned
    obtain ⟨⟨first, scanned_below⟩, scanned_later⟩ := scanned
    obtain ⟨decided, counted', within'⟩ := rationing_asked asked first spared counted within
    have here : replaced number = false := by
      cases here : replaced number with
      | false => rfl
      | true =>
        rw [here] at decided
        cases decided
    have spared_below : ∀ a ∈ (⟨number, n⟩ : Place Mark) :: above, replaced a.number = false :=
      List.forall_mem_cons.mpr ⟨here, spared⟩
    rw [tree] at inside
    obtain ⟨replies_below, reached_below, bounded_below, _⟩ :=
      inside finished scanned_below spared_below counted' within'
    rw [Nat.add_assoc, ← Node.size_eq] at reached_below
    obtain ⟨replies, reached, bounded, ts, rfl⟩ :=
      others complete' scanned_later spared reached_below bounded_below
    refine ⟨?_, ?_, bounded, node :: ts, rfl⟩
    · rw [Course.placed, List.forall_mem_cons, List.forall_mem_append]
      exact ⟨congrArg Except.ok decided, replies_below, replies⟩
    · rw [reached, Node.sizes, Nat.add_assoc]
  | broken asked _ fails => cases fails.symm.trans complete

end

/-- A place is replaced if and only if its node meets the test, none above it is replaced, and less
    than the budget was spent before it. The visit is called on the places below none that is
    replaced, in pre-order, and what is left lists these, with what was given where one is replaced.
    The counter ends at the number of places that were replaced, which is within the budget. -/
theorem budget_goes_to_the_first_due {χ π ο τ σ ε : Type} [Storable τ] [DecidableEq τ]
    [Checked π χ] {level : Level} (args : Args χ π ο level) (options : Options) (root : Tree)
    (p : Tree → Bool) (r : Tree) (key : String) (m : Count) (own : σ) (supply : Supply) :
    let pass : BoundPass level χ π ο (Visit (level.Context Tree Options χ π) Tree τ σ ε) :=
      ⟨⟨rationing p r key m⟩, args⟩
    let log := pass.calls (Tree.host options) root own supply
    let spent : Nat := ((pass.traverse (Tree.host options) root).run (own, supply)).1.board.count key
    ∃ (t : Tree) (replaced : Nat → Bool),
      let reached := root.spots.filter fun s => s.above.all fun a => !replaced a.number
      ((pass.transform (Tree.host options) root).run (own, supply)).1.1 = .ok (.keep t) ∧
      (∀ s ∈ root.spots, replaced s.number = true ↔
        p s.node = true ∧ (∀ a ∈ s.above, replaced a.number = false) ∧
          (List.range s.number).countP replaced < m) ∧
      log.map (fun call => (call.node, call.reply)) = reached.map (fun s =>
        (s.node, .ok (if replaced s.number then .replace r else .recurse))) ∧
      t.outline 0 = reached.flatMap (fun s =>
        if replaced s.number then r.outline s.depth else [s.entry]) ∧
      spent = root.spots.countP (fun s => replaced s.number) ∧ spent ≤ m := by
  intro pass log spent
  obtain ⟨course, final, splice, whole, ends⟩ := pass.exists_course_of_follows
    (rationing_follows p r key m) (Tree.host options) root (own, supply)
  obtain ⟨replaced, scanned⟩ := root.exists_replaced_spots p m
  have calls : log = course.calls := whole.calls_eq
  have tree : (Tree.host options).children = Node.children := rfl
  have none_above : ∀ a ∈ ([] : List (Place Mark)), replaced a.number = false := by simp
  obtain ⟨replies, counted, within, ts, kept⟩ := whole.walked.rationed tree whole.outcome
    (Node.spots_eq_spotsAll root ▸ scanned) none_above (by simp) (by simp)
  obtain ⟨t, rfl⟩ : ∃ t, splice = .keep t := by
    cases ts with
    | nil => cases kept
    | cons t rest => exact ⟨t, (List.cons.inj kept).1⟩
  have agree : ∀ q ∈ course.placed [] 0, replaced q.number = !q.call.recursed := by
    intro q member
    rw [Call.recursed, replies q member]
    cases replaced q.number <;> rfl
  have reached := whole.walked.placed_spots tree whole.outcome agree none_above
  rw [← Node.spots_eq_spotsAll] at reached
  have board : spent = final.1.count key := congrArg (fun t => (t.1.board.count key : Nat)) whole.traversal
  refine ⟨t, replaced, ends, scanned, ?log, ?outline, ?spent, ?within⟩
  case log =>
    rw [calls, reached, ← course.placed_calls [] 0, List.map_map, List.map_map]
    apply List.map_congr_left
    intro q member
    exact Prod.ext (course.placed_node [] 0 q member).symm (replies q member)
  case outline =>
    have left : Node.outlines 0 [t] = (course.placed [] 0).flatMap Placed.left :=
      whole.walked.outlines_eq (Tree.host_splices options) whole.outcome [] 0
    rw [reached, List.flatMap_map, Node.outline_eq_outlines, left]
    apply List.flatMap_congr
    intro q member
    exact Placed.left_of_reply (replies q member)
  case spent =>
    have numbers := Node.spotsAll_numbers [] 0 [root]
    rw [← Node.spots_eq_spotsAll] at numbers
    rw [board, counted, Nat.zero_add, List.range_eq_range', ← numbers, List.countP_map]
    rfl
  case within =>
    rw [board]
    exact within

end TreeVisit
