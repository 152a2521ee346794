import TreeVisit.Walk.Calls

/- The course of a walk: every call with what became of its node, in the shape of the trees that
   were walked. A walk is a recursion through its host; the relation between a list of trees and the
   course of their walks has one rule for each thing that can happen at a node instead, and every
   property of a whole walk is an induction over those rules. -/
namespace TreeVisit

def Decision.splice? {ν : Type} : Decision ν → Option (Splice ν)
  | recurse => none
  | remove => some .remove
  | replace n => some (.keep n)
  | flatten ns => some (.flatten ns)

/-- What happened on the trees of a list, the first tree first. An entered node has the course of
    its children below it; behind a failure nothing happens. -/
inductive Course (κ ν τ : Type) [Storable τ] (ε : Type) where
  | done
  | failed (call : Call κ ν τ ε) (e : ε)
  | settled (call : Call κ ν τ ε) (answer : Splice ν) (later : Course κ ν τ ε)
  | entered (call : Call κ ν τ ε) (below : Course κ ν τ ε) (node : ν) (later : Course κ ν τ ε)
  | broken (call : Call κ ν τ ε) (below : Course κ ν τ ε)

variable {κ ν ω ρ τ σ ε : Type} [Storable τ]

namespace Course

def calls : Course κ ν τ ε → List (Call κ ν τ ε)
  | done => []
  | failed call _ => [call]
  | settled call _ later => call :: later.calls
  | entered call below _ later => call :: (below.calls ++ later.calls)
  | broken call below => call :: below.calls

def outcome : Course κ ν τ ε → Except ε (List (Splice ν))
  | done => .ok []
  | failed _ e => .error e
  | settled _ answer later => later.outcome.map (answer :: ·)
  | entered _ _ node later => later.outcome.map (.keep node :: ·)
  | broken _ below => below.outcome

end Course

def callAt (cx : κ) (n : ν) (before : Progress τ σ × ρ) (reply : Except ε (Decision ν))
    (after : Progress τ σ × ρ) : Call κ ν τ ε :=
  ⟨cx, n, before.1.desk.board, reply, after.1.desk.board⟩

inductive Walked (host : Host ν ω ρ) (visit : Visit κ ν τ σ ε) (cx : κ) :
    List ν → Progress τ σ × ρ → Course κ ν τ ε → Progress τ σ × ρ → Prop where
  | done {st} : Walked host visit cx [] st .done st
  | failed {n rest st st' e} (asked : visitNode visit cx n st = .error e st') :
      Walked host visit cx (n :: rest) st (.failed (callAt cx n st (.error e) st') e) st'
  | settled {n rest st st' final decision answer later}
      (asked : visitNode visit cx n st = .ok decision st') (settles : decision.splice? = some answer)
      (others : Walked host visit cx rest st' later final) :
      Walked host visit cx (n :: rest) st
        (.settled (callAt cx n st (.ok decision) st') answer later) final
  | entered {n rest st st' inner final below answers node supply later}
      (asked : visitNode visit cx n st = .ok .recurse st')
      (children : Walked host visit cx (host.children n) st' below inner)
      (complete : below.outcome = .ok answers)
      (rebuilt : (host.rebuild n answers).run inner.2 = (node, supply))
      (others : Walked host visit cx rest (inner.1, supply) later final) :
      Walked host visit cx (n :: rest) st
        (.entered (callAt cx n st (.ok .recurse) st') below node later) final
  | broken {n rest st st' inner below e} (asked : visitNode visit cx n st = .ok .recurse st')
      (children : Walked host visit cx (host.children n) st' below inner)
      (fails : below.outcome = .error e) :
      Walked host visit cx (n :: rest) st
        (.broken (callAt cx n st (.ok .recurse) st') below) inner

def resultAt {α s : Type} : Except ε α → s → EStateM.Result ε s α
  | .ok a, st => .ok a st
  | .error e, st => .error e st

variable {host : Host ν ω ρ} {visit : Visit κ ν τ σ ε} {cx : κ}

theorem complete_later {later : Course κ ν τ ε} {answer : Splice ν}
    {answers : List (Splice ν)} (complete : later.outcome.map (answer :: ·) = .ok answers) :
    ∃ rest, later.outcome = .ok rest ∧ answers = answer :: rest := by
  cases others : later.outcome with
  | error e =>
    rw [others] at complete
    cases complete
  | ok rest =>
    rw [others] at complete
    exact ⟨rest, rfl, (Except.ok.inj complete).symm⟩

theorem fails_later {later : Course κ ν τ ε} {answer : Splice ν} {e : ε}
    (fails : later.outcome.map (answer :: ·) = .error e) : later.outcome = .error e := by
  cases others : later.outcome with
  | ok rest =>
    rw [others] at fails
    cases fails
  | error e' =>
    rw [others] at fails
    exact congrArg Except.error (Except.error.inj fails)

theorem bind_ok {α β s : Type} {step : EStateM ε s α} {next : α → EStateM ε s β} {st st' : s} {a : α}
    (run : step st = .ok a st') : (step >>= next) st = next a st' := by
  change EStateM.bind step next st = _
  simp only [EStateM.bind, run]

theorem bind_error {α β s : Type} {step : EStateM ε s α} {next : α → EStateM ε s β} {st st' : s}
    {e : ε} (run : step st = .error e st') : (step >>= next) st = .error e st' := by
  change EStateM.bind step next st = _
  simp only [EStateM.bind, run]

theorem walk_failed {n : ν} {st st' : Progress τ σ × ρ} {e : ε}
    (asked : visitNode visit cx n st = .error e st') : walk host visit cx n st = .error e st' := by
  rw [walk_eq]
  exact bind_error asked

theorem walk_settled {n : ν} {st st' : Progress τ σ × ρ} {decision : Decision ν} {answer : Splice ν}
    (asked : visitNode visit cx n st = .ok decision st') (settles : decision.splice? = some answer) :
    walk host visit cx n st = .ok answer st' := by
  rw [walk_eq, bind_ok asked]
  cases decision with
  | recurse => nomatch settles
  | remove => cases settles; rfl
  | replace m => cases settles; rfl
  | flatten ms => cases settles; rfl

theorem walk_entered {n node : ν} {st st' inner : Progress τ σ × ρ} {answers : List (Splice ν)}
    {supply : ρ} (asked : visitNode visit cx n st = .ok .recurse st')
    (children : (host.children n).mapM (walk host visit cx) st' = .ok answers inner)
    (rebuilt : (host.rebuild n answers).run inner.2 = (node, supply)) :
    walk host visit cx n st = .ok (.keep node) (inner.1, supply) := by
  have built : HostM.supply (host.rebuild n answers) inner =
      (.ok node (inner.1, supply) : EStateM.Result ε (Progress τ σ × ρ) ν) := by
    simp only [HostM.supply, rebuilt]
  rw [walk_eq, bind_ok asked]
  exact (bind_ok children).trans (bind_ok built)

theorem walk_broken {n : ν} {st st' inner : Progress τ σ × ρ} {e : ε}
    (asked : visitNode visit cx n st = .ok .recurse st')
    (children : (host.children n).mapM (walk host visit cx) st' = .error e inner) :
    walk host visit cx n st = .error e inner := by
  rw [walk_eq, bind_ok asked]
  exact bind_error children

theorem mapM_ok {n : ν} {rest : List ν} {st st' final : Progress τ σ × ρ} {answer : Splice ν}
    {r : Except ε (List (Splice ν))} (first : walk host visit cx n st = .ok answer st')
    (others : rest.mapM (walk host visit cx) st' = resultAt r final) :
    (n :: rest).mapM (walk host visit cx) st = resultAt (r.map (answer :: ·)) final := by
  rw [List.mapM_cons, bind_ok first]
  cases r with
  | ok answers => exact bind_ok others
  | error e => exact bind_error others

theorem mapM_error {n : ν} {rest : List ν} {st st' : Progress τ σ × ρ} {e : ε}
    (first : walk host visit cx n st = .error e st') :
    (n :: rest).mapM (walk host visit cx) st = .error e st' := by
  rw [List.mapM_cons]
  exact bind_error first

theorem Walked.run {ns : List ν} {st final : Progress τ σ × ρ} {course : Course κ ν τ ε}
    (walked : Walked host visit cx ns st course final) :
    ns.mapM (walk host visit cx) st = resultAt course.outcome final := by
  induction walked with
  | done => rfl
  | failed asked => exact mapM_error (walk_failed asked)
  | settled asked settles _ others => exact mapM_ok (walk_settled asked settles) others
  | entered asked _ complete rebuilt _ children others =>
    rw [complete] at children
    exact mapM_ok (walk_entered asked children rebuilt) others
  | broken asked _ fails children =>
    rw [fails] at children
    rw [Course.outcome, fails]
    exact mapM_error (walk_broken asked children)

/-- The rules leave out nothing: whatever the visit does, they give a course. -/
theorem exists_walked_below (bound : Nat) (ns : List ν) (small : ∀ n ∈ ns, host.size n < bound)
    (st : Progress τ σ × ρ) :
    ∃ (course : Course κ ν τ ε) (final : Progress τ σ × ρ),
      Walked host visit cx ns st course final := by
  induction bound generalizing ns st with
  | zero =>
    cases ns with
    | nil => exact ⟨_, _, .done⟩
    | cons n rest => exact absurd (small n List.mem_cons_self) (Nat.not_lt_zero _)
  | succ bound deeper =>
    induction ns generalizing st with
    | nil => exact ⟨_, _, .done⟩
    | cons n rest wider =>
      have others := wider fun m member => small m (List.mem_cons_of_mem n member)
      cases asked : visitNode visit cx n st with
      | error e st' => exact ⟨_, _, .failed asked⟩
      | ok decision st' =>
        cases settles : decision.splice? with
        | some answer =>
          obtain ⟨later, final, walked⟩ := others st'
          exact ⟨_, _, .settled asked settles walked⟩
        | none =>
          obtain rfl : decision = .recurse := by
            cases decision <;> first | rfl | nomatch settles
          have smaller : ∀ c ∈ host.children n, host.size c < bound := by
            intro c member
            have := host.size_lt member
            have := small n List.mem_cons_self
            omega
          obtain ⟨below, inner, children⟩ := deeper (host.children n) smaller st'
          cases complete : below.outcome with
          | error e => exact ⟨_, _, .broken asked children complete⟩
          | ok answers =>
            obtain ⟨later, final, walked⟩ :=
              others (inner.1, ((host.rebuild n answers).run inner.2).2)
            exact ⟨_, _, .entered asked children complete rfl walked⟩

theorem visitNode_ok {n : ν} {st st' : Progress τ σ × ρ} {decision : Decision ν}
    (asked : visitNode visit cx n st = .ok decision st') :
    ∃ desk, visit cx n st.1.desk = .ok decision desk ∧
      st' = (⟨desk, st.1.tally.visit.settle decision⟩, st.2) := by
  simp only [visitNode] at asked
  split at asked
  next called =>
    cases asked
    exact ⟨_, called, rfl⟩
  next => cases asked

theorem visitNode_error {n : ν} {st st' : Progress τ σ × ρ} {e : ε}
    (asked : visitNode visit cx n st = .error e st') :
    ∃ desk, visit cx n st.1.desk = .error e desk ∧ st' = (⟨desk, st.1.tally.visit⟩, st.2) := by
  simp only [visitNode] at asked
  split at asked
  next => cases asked
  next called =>
    cases asked
    exact ⟨_, called, rfl⟩

theorem visitNode_supply {n : ν} {st st' : Progress τ σ × ρ} {decision : Decision ν}
    (asked : visitNode visit cx n st = .ok decision st') : st'.2 = st.2 := by
  obtain ⟨_, _, rfl⟩ := visitNode_ok asked
  rfl

theorem visitNode_supply_error {n : ν} {st st' : Progress τ σ × ρ} {e : ε}
    (asked : visitNode visit cx n st = .error e st') : st'.2 = st.2 := by
  obtain ⟨_, _, rfl⟩ := visitNode_error asked
  rfl

def logged (log : List (Call κ ν τ ε)) (st : Progress τ σ × ρ) :
    Progress τ (σ × List (Call κ ν τ ε)) × ρ :=
  (⟨⟨st.1.desk.board, (st.1.desk.own, log)⟩, st.1.tally⟩, st.2)

theorem visitNode_recorded_ok {n : ν} {st st' : Progress τ σ × ρ} {decision : Decision ν}
    (asked : visitNode visit cx n st = .ok decision st') (log : List (Call κ ν τ ε)) :
    visitNode visit.recorded cx n (logged log st) =
      .ok decision (logged (log ++ [callAt cx n st (.ok decision) st']) st') := by
  obtain ⟨desk, called, rfl⟩ := visitNode_ok asked
  simp only [visitNode, Visit.recorded, logged, callAt, called]

theorem visitNode_recorded_error {n : ν} {st st' : Progress τ σ × ρ} {e : ε}
    (asked : visitNode visit cx n st = .error e st') (log : List (Call κ ν τ ε)) :
    visitNode visit.recorded cx n (logged log st) =
      .error e (logged (log ++ [callAt cx n st (.error e) st']) st') := by
  obtain ⟨desk, called, rfl⟩ := visitNode_error asked
  simp only [visitNode, Visit.recorded, logged, callAt, called]

/-- A visit that is recorded takes the same course, and its list receives the calls in order. -/
theorem Walked.recorded {ns : List ν} {st final : Progress τ σ × ρ} {course : Course κ ν τ ε}
    (walked : Walked host visit cx ns st course final) (log : List (Call κ ν τ ε)) :
    Walked host visit.recorded cx ns (logged log st) course
      (logged (log ++ course.calls) final) := by
  induction walked generalizing log with
  | done =>
    rw [Course.calls, List.append_nil]
    exact .done
  | failed asked => exact .failed (visitNode_recorded_error asked log)
  | settled asked settles _ others =>
    rw [Course.calls, List.append_cons]
    exact .settled (visitNode_recorded_ok asked log) settles (others _)
  | entered asked _ complete rebuilt _ children others =>
    rw [Course.calls, List.append_cons, ← List.append_assoc]
    exact .entered (visitNode_recorded_ok asked log) (children _) complete rebuilt (others _)
  | broken asked _ fails children =>
    rw [Course.calls, List.append_cons]
    exact .broken (visitNode_recorded_ok asked log) (children _) fails

def start (own : σ) (supply : ρ) : Progress τ σ × ρ := (⟨⟨∅, own⟩, ∅⟩, supply)

/-- The course of the walk over one tree, the moment at which it ends and its answer. -/
structure CourseOf (host : Host ν ω ρ) (visit : Visit κ ν τ σ ε) (cx : κ) (root : ν) (own : σ)
    (supply : ρ) (course : Course κ ν τ ε) (final : Progress τ σ × ρ)
    (answer : Except ε (Splice ν)) : Prop where
  walked : Walked host visit cx [root] (start own supply) course final
  outcome : course.outcome = answer.map ([·])
  traversal : traverse host visit cx root (own, supply) =
    (⟨answer, final.1.desk.board, final.1.tally⟩, (final.1.desk.own, final.2))
  recorded : traverse host visit.recorded cx root ((own, []), supply) =
    (⟨answer, final.1.desk.board, final.1.tally⟩, ((final.1.desk.own, course.calls), final.2))

theorem Walked.run_root {n : ν} {st final : Progress τ σ × ρ} {course : Course κ ν τ ε}
    (walked : Walked host visit cx [n] st course final) :
    ∃ answer : Except ε (Splice ν), course.outcome = answer.map ([·]) ∧
      walk host visit cx n st = resultAt answer final := by
  have run := walked.run
  rw [List.mapM_cons] at run
  cases asked : walk host visit cx n st with
  | ok answer st' =>
    rw [bind_ok asked] at run
    cases outcome : course.outcome with
    | ok answers =>
      rw [outcome] at run
      cases run
      exact ⟨.ok answer, rfl, rfl⟩
    | error e =>
      rw [outcome] at run
      cases run
  | error e st' =>
    rw [bind_error asked] at run
    cases outcome : course.outcome with
    | ok answers =>
      rw [outcome] at run
      cases run
    | error e =>
      rw [outcome] at run
      cases run
      exact ⟨.error e, rfl, rfl⟩

theorem Walked.traverse {root : ν} {own : σ} {supply : ρ} {course : Course κ ν τ ε}
    {final : Progress τ σ × ρ} {answer : Except ε (Splice ν)}
    (walked : Walked host visit cx [root] (start own supply) course final)
    (outcome : course.outcome = answer.map ([·])) :
    TreeVisit.traverse host visit cx root (own, supply) =
      (⟨answer, final.1.desk.board, final.1.tally⟩, (final.1.desk.own, final.2)) := by
  obtain ⟨answer', outcome', run⟩ := walked.run_root
  obtain rfl : answer = answer' := by
    rw [outcome] at outcome'
    cases answer <;> cases answer' <;> simp_all [Except.map]
  change walk host visit cx root (⟨⟨∅, own⟩, ∅⟩, supply) = _ at run
  rw [TreeVisit.traverse, run]
  cases answer <;> rfl

theorem Walked.traverse_recorded {root : ν} {own : σ} {supply : ρ} {course : Course κ ν τ ε}
    {final : Progress τ σ × ρ} {answer : Except ε (Splice ν)}
    (walked : Walked host visit cx [root] (start own supply) course final)
    (outcome : course.outcome = answer.map ([·])) (log : List (Call κ ν τ ε)) :
    TreeVisit.traverse host visit.recorded cx root ((own, log), supply) =
      (⟨answer, final.1.desk.board, final.1.tally⟩,
        ((final.1.desk.own, log ++ course.calls), final.2)) :=
  (walked.recorded log).traverse outcome

theorem exists_courseOf (host : Host ν ω ρ) (visit : Visit κ ν τ σ ε) (cx : κ) (root : ν) (own : σ)
    (supply : ρ) : ∃ (course : Course κ ν τ ε) (final : Progress τ σ × ρ)
      (answer : Except ε (Splice ν)), CourseOf host visit cx root own supply course final answer := by
  have small : ∀ n ∈ [root], host.size n < host.size root + 1 := by
    intro n member
    rw [List.mem_singleton.mp member]
    omega
  obtain ⟨course, final, walked⟩ : ∃ (course : Course κ ν τ ε) (final : Progress τ σ × ρ),
      Walked host visit cx [root] (start own supply) course final :=
    exists_walked_below _ [root] small _
  obtain ⟨answer, outcome, _⟩ := walked.run_root
  exact ⟨course, final, answer, walked, outcome, walked.traverse outcome,
    walked.traverse_recorded outcome []⟩

theorem CourseOf.calls_eq {root : ν} {own : σ} {supply : ρ} {course : Course κ ν τ ε}
    {final : Progress τ σ × ρ} {answer : Except ε (Splice ν)}
    (whole : CourseOf host visit cx root own supply course final answer) :
    calls host visit cx root own supply = course.calls := by
  rw [calls, whole.recorded]

theorem BoundPass.exists_course_of_ok {χ π ο : Type} [Checked π χ] {level : Level}
    (pass : BoundPass level χ π ο (Visit (level.Context ν ω χ π) ν τ σ ε)) (host : Host ν ω ρ)
    (root : ν) (own : σ) (supply : ρ) {splice : Splice ν}
    (ok : ((pass.transform host root).run (own, supply)).1.1 = .ok splice) :
    ∃ course final,
      CourseOf host pass.visit (pass.args.enrich ⟨root, host.options⟩) root own supply course final
        (.ok splice) ∧
      pass.calls host root own supply = course.calls := by
  let cx := pass.args.enrich ⟨root, host.options⟩
  obtain ⟨course, final, answer, whole⟩ := exists_courseOf host pass.visit cx root own supply
  obtain rfl : answer = .ok splice := by
    change (TreeVisit.traverse host pass.visit cx root (own, supply)).1.result = _ at ok
    rwa [whole.traversal] at ok
  exact ⟨course, final, whole, whole.calls_eq⟩

theorem traverse_recorded (host : Host ν ω ρ) (visit : Visit κ ν τ σ ε) (cx : κ) (root : ν) (own : σ)
    (log : List (Call κ ν τ ε)) (supply : ρ) :
    traverse host visit.recorded cx root ((own, log), supply) =
      let (traversal, own', supply') := traverse host visit cx root (own, supply)
      (traversal, (own', log ++ calls host visit cx root own supply), supply') := by
  obtain ⟨course, final, answer, whole⟩ := exists_courseOf host visit cx root own supply
  rw [whole.walked.traverse_recorded whole.outcome, whole.traversal, whole.calls_eq]

end TreeVisit
