import TreeVisit.Proofs.Walk.Rebuilding
import TreeVisit.Proofs.Walk.Record

/- Units do not touch each other. If a visit goes by its context, the node and the board alone, then
   what becomes of a unit is the same in any company: a list of units gives what each unit gives on
   its own, up to the first that fails on its own, and nothing is asked about the units behind it. -/
namespace TreeVisit

section
variable {κ τ σ ε : Type} [Storable τ]

/-- What else the owner of the visit keeps makes no difference to the replies and to the board, the
    marks of the nodes that it builds apart. -/
def Visit.Determined (visit : Visit κ Tree τ σ ε) : Prop :=
  ∀ cx, visit.Matches Node.shape (fun _ _ => True) cx visit cx

def Call.shaped (call : Call κ Tree τ ε) :
    κ × Tree × Board τ × Except ε (Decision Shape) × Board τ :=
  (call.context, call.node, call.before, call.reply.map (Decision.map Node.shape), call.after)

theorem Visit.Determined.recorded {visit : Visit κ Tree τ σ ε} (determined : visit.Determined)
    (cx : κ) :
    visit.recorded.Matches Node.shape
      (fun own own' => own'.2.map Call.shaped = own.2.map Call.shaped) cx visit.recorded cx := by
  rintro n board ⟨own, log⟩ ⟨own', log'⟩ same
  have called := determined cx n board own own' trivial
  simp only [Visit.recorded]
  generalize visit cx n ⟨board, own⟩ = result at called ⊢
  generalize visit cx n ⟨board, own'⟩ = result' at called ⊢
  cases called with
  | ok replies desks =>
    refine .ok replies ⟨desks.1, ?_⟩
    simp only [List.map_append, List.map_cons, Call.shaped, Except.map, replies, desks.1]
    exact congrArg (· ++ _) same
  | error desks =>
    refine .error ⟨desks.1, ?_⟩
    simp only [List.map_append, List.map_cons, Call.shaped, Except.map, desks.1]
    exact congrArg (· ++ _) same

end

theorem Traversal.event_congr {ν β τ ε : Type} [Storable τ] {look : ν → β} {t t' : Traversal ν τ ε}
    (results : t'.result.map (Splice.map look) = t.result.map (Splice.map look))
    (boards : t'.board = t.board) (tallies : t'.tally = t.tally) (level : Level) :
    t'.event level = t.event level := by
  unfold event
  cases here : t.result <;> cases there : t'.result
  · rw [tallies]
  · rw [here, there] at results
    cases results
  · rw [here, there] at results
    cases results
  · rw [boards, tallies]

variable {χ π ο τ σ ε : Type} [Storable τ] [Checked π χ] {level : Level}

namespace BoundPass

section
variable {ν ω ρ : Type} (pass : BoundPass level χ π ο (Visit (level.Context ν ω χ π) ν τ σ ε))
  (host : Host ν ω ρ)

theorem transformAll_cons (unit : ν) (rest : List ν) (st : σ × ρ) :
    (pass.transformAll host (unit :: rest)).run st =
      match (pass.transform host unit).run st with
      | ((.error e, event), last) => ((.error e, [event]), last)
      | ((.ok splice, event), between) =>
        let ((results, events), last) := (pass.transformAll host rest).run between
        ((results.map (splice :: ·), event :: events), last) := by
  simp only [transformAll, StateT.run_bind]
  cases (pass.transform host unit).run st with
  | mk shown between =>
    obtain ⟨result, event⟩ := shown
    cases result <;> rfl

theorem transform_recorded (unit : ν) (own : σ) (log : List (Call (level.Context ν ω χ π) ν τ ε))
    (supply : ρ) :
    (pass.recorded.transform host unit).run ((own, log), supply) =
      let (shown, own', supply') := (pass.transform host unit).run (own, supply)
      (shown, (own', log ++ pass.calls host unit own supply), supply') := by
  have walks := traverse_recorded host pass.visit (pass.args.enrich ⟨unit, host.options⟩) unit own log
    supply
  exact congrArg (fun run => ((run.1.result, run.1.event level), run.2)) walks

theorem event_of_error {unit : ν} {st last : σ × ρ} {e : ε} {event : Event}
    (walked : (pass.transform host unit).run st = ((.error e, event), last)) :
    event = .aborted level (pass.calls host unit st.1 st.2).length ∧
      (pass.calls host unit st.1 st.2).getLast?.map (·.reply) = some (.error e) := by
  have recorded := traverse_is_recorded host pass.visit (pass.args.enrich ⟨unit, host.options⟩) unit
    st.1 st.2
  obtain ⟨fails, rfl⟩ := Prod.mk.inj (Prod.mk.inj walked).1
  refine ⟨?_, recorded.last_reply e fails⟩
  have same : Traversal.event _ level = .aborted level _ := Traversal.event_aborted fails level
  exact same.trans (congrArg (Event.aborted level) recorded.visited)

theorem event_of_ok {unit : ν} {st last : σ × ρ} {splice : Splice ν} {event : Event}
    (walked : (pass.transform host unit).run st = ((.ok splice, event), last)) :
    ∃ tally entries, event = .completed level tally entries := by
  obtain ⟨completes, rfl⟩ := Prod.mk.inj (Prod.mk.inj walked).1
  exact ⟨_, _, Traversal.event_completed completes level⟩

/-- What a list of units shows, with the calls that are made for it. A unit that fails is the last. -/
inductive Ran : List ν → σ × ρ → Except ε (List (Splice ν)) × List Event →
    List (Call (level.Context ν ω χ π) ν τ ε) → Prop where
  | done {st} : Ran [] st (.ok [], []) []
  | failed {unit rest st e event last}
      (walked : (pass.transform host unit).run st = ((.error e, event), last)) :
      Ran (unit :: rest) st (.error e, [event]) (pass.calls host unit st.1 st.2)
  | passed {unit rest st splice event between shown made}
      (walked : (pass.transform host unit).run st = ((.ok splice, event), between))
      (others : Ran rest between shown made) :
      Ran (unit :: rest) st (shown.1.map (splice :: ·), event :: shown.2)
        (pass.calls host unit st.1 st.2 ++ made)

theorem exists_ran (units : List ν) (st : σ × ρ) :
    ∃ made, pass.Ran host units st ((pass.transformAll host units).run st).1 made ∧
      ∀ log,
        ((pass.recorded.transformAll host units).run ((st.1, log), st.2)).2.1.2 = log ++ made := by
  induction units generalizing st with
  | nil => exact ⟨[], .done, fun log => (List.append_nil log).symm⟩
  | cons unit rest ih =>
    cases walked : (pass.transform host unit).run st with
    | mk shown between =>
      obtain ⟨result, event⟩ := shown
      cases result with
      | error e =>
        refine ⟨pass.calls host unit st.1 st.2, ?_, ?_⟩
        · rw [transformAll_cons, walked]
          exact .failed walked
        · intro log
          rw [transformAll_cons, transform_recorded, walked]
      | ok splice =>
        obtain ⟨made, others, logs⟩ := ih between
        refine ⟨pass.calls host unit st.1 st.2 ++ made, ?_, ?_⟩
        · rw [transformAll_cons, walked]
          exact .passed walked others
        · intro log
          rw [transformAll_cons, transform_recorded, walked, ← List.append_assoc]
          exact logs _

theorem ran_transformAll (units : List ν) (own : σ) (supply : ρ) :
    pass.Ran host units (own, supply) ((pass.transformAll host units).run (own, supply)).1
      (pass.callsAll host units own supply) := by
  obtain ⟨made, ran, logs⟩ := pass.exists_ran host units (own, supply)
  have same : pass.callsAll host units own supply = made := logs []
  rwa [same]

end

variable (pass : BoundPass level χ π ο (Visit (level.Context Tree Options χ π) Tree τ σ ε))
  (options : Options)

/-- What a unit gives from one state: the structure of its result, its event and its calls. -/
def lone (unit : Tree) (st : σ × Supply) :
    Except ε (Splice Shape) × Event ×
      List (level.Context Tree Options χ π × Tree × Board τ × Except ε (Decision Shape) × Board τ) :=
  let (result, event) := ((pass.transform (Tree.host options) unit).run st).1
  (result.map (Splice.map Node.shape), event,
    (pass.calls (Tree.host options) unit st.1 st.2).map Call.shaped)

theorem lone_eq (determined : pass.visit.Determined) (unit : Tree) (st st' : σ × Supply) :
    pass.lone options unit st' = pass.lone options unit st := by
  have hosts := (Tree.host_splices options).matches (Tree.host_splices options)
  have visits := determined.recorded (pass.args.enrich ⟨unit, options⟩)
  obtain ⟨results, boards, tallies, logs, _⟩ :=
    traverse_alike hosts visits unit ((st.1, []), st.2) ((st'.1, []), st'.2) rfl trivial
  have event := Traversal.event_congr results boards tallies level
  simp only [StateT.run, traverse_recorded, List.nil_append] at results event logs
  exact Prod.ext results (Prod.ext event logs)

theorem lone_of_walked {unit : Tree} {st last : σ × Supply} {result : Except ε (Splice Tree)}
    {event : Event}
    (walked : (pass.transform (Tree.host options) unit).run st = ((result, event), last)) :
    pass.lone options unit st = (result.map (Splice.map Node.shape), event,
      (pass.calls (Tree.host options) unit st.1 st.2).map Call.shaped) := by
  rw [lone, walked]

theorem lone_of_walked_among (determined : pass.visit.Determined) {unit : Tree}
    {st last : σ × Supply} {result : Except ε (Splice Tree)} {event : Event}
    (walked : (pass.transform (Tree.host options) unit).run st = ((result, event), last))
    (alone : σ × Supply) :
    pass.lone options unit alone = (result.map (Splice.map Node.shape), event,
      (pass.calls (Tree.host options) unit st.1 st.2).map Call.shaped) := by
  rw [pass.lone_eq options determined unit st, pass.lone_of_walked options walked]

theorem lone_completed {unit : Tree} {st : σ × Supply} {splice : Splice Shape}
    (succeeds : (pass.lone options unit st).1 = .ok splice) :
    ∃ tally entries, (pass.lone options unit st).2.1 = .completed level tally entries := by
  cases walked : (pass.transform (Tree.host options) unit).run st with
  | mk shown last =>
    obtain ⟨result, event⟩ := shown
    rw [pass.lone_of_walked options walked] at succeeds ⊢
    cases result with
    | error e => cases succeeds
    | ok _ => exact pass.event_of_ok (Tree.host options) walked

variable {pass options} {st : σ × Supply} {shown : Except ε (List (Splice Tree)) × List Event}
  {made : List (Call (level.Context Tree Options χ π) Tree τ ε)}

theorem Ran.passes {units : List Tree} (ran : pass.Ran (Tree.host options) units st shown made)
    (determined : pass.visit.Determined) (alone : Tree → σ × Supply)
    (whole : ∀ unit ∈ units, ∃ splice, (pass.lone options unit (alone unit)).1 = .ok splice) :
    (∃ splices, shown.1 = .ok splices ∧ splices.map (fun splice => .ok (splice.map Node.shape)) =
      units.map fun unit => (pass.lone options unit (alone unit)).1) ∧
    shown.2 = units.map fun unit => (pass.lone options unit (alone unit)).2.1 := by
  induction ran with
  | done => exact ⟨⟨[], rfl, rfl⟩, rfl⟩
  | @failed unit rest st e event last walked =>
    obtain ⟨splice, succeeds⟩ := whole unit List.mem_cons_self
    rw [pass.lone_of_walked_among options determined walked] at succeeds
    cases succeeds
  | @passed unit rest st splice event between shown made walked _ ih =>
    obtain ⟨⟨splices, complete, same⟩, events⟩ := ih (List.forall_mem_cons.mp whole).2
    have here := pass.lone_of_walked_among options determined walked (alone unit)
    refine ⟨⟨splice :: splices, ?_, ?_⟩, ?_⟩
    · rw [complete]
      rfl
    · rw [List.map_cons, List.map_cons, same, here]
      rfl
    · rw [List.map_cons, events, here]

theorem Ran.fails {before after : List Tree} {unit : Tree}
    (ran : pass.Ran (Tree.host options) (before ++ unit :: after) st shown made)
    (determined : pass.visit.Determined) (alone : Tree → σ × Supply)
    (whole : ∀ unit ∈ before, ∃ splice, (pass.lone options unit (alone unit)).1 = .ok splice) {e : ε}
    (fails : (pass.lone options unit (alone unit)).1 = .error e) :
    shown.1 = .error e ∧
      ∃ earlier failing, made = earlier ++ failing ∧
        earlier.map Call.shaped =
          before.flatMap (fun unit => (pass.lone options unit (alone unit)).2.2) ∧
        failing.map Call.shaped = (pass.lone options unit (alone unit)).2.2 ∧
        failing.getLast?.map (·.reply) = some (.error e) ∧
        shown.2 = before.map (fun unit => (pass.lone options unit (alone unit)).2.1) ++
          [.aborted level failing.length] := by
  induction before generalizing st shown made with
  | nil =>
    cases ran with
    | failed walked =>
      rw [pass.lone_of_walked_among options determined walked] at fails ⊢
      cases fails
      obtain ⟨rfl, reply⟩ := pass.event_of_error (Tree.host options) walked
      exact ⟨rfl, [], _, rfl, rfl, rfl, reply, rfl⟩
    | passed walked others =>
      rw [pass.lone_of_walked_among options determined walked] at fails
      cases fails
  | cons first rest ih =>
    obtain ⟨⟨splice, succeeds⟩, whole⟩ := List.forall_mem_cons.mp whole
    cases ran with
    | failed walked =>
      rw [pass.lone_of_walked_among options determined walked] at succeeds
      cases succeeds
    | passed walked others =>
      obtain ⟨ended, earlier, failing, rfl, earlier_shaped, failing_shaped, reply, events⟩ :=
        ih others whole
      have here := pass.lone_of_walked_among options determined walked (alone first)
      refine ⟨?_, _ ++ earlier, failing, (List.append_assoc ..).symm, ?_, failing_shaped, reply, ?_⟩
      · rw [ended]
        rfl
      · rw [List.map_append, List.flatMap_cons, earlier_shaped, here]
      · rw [List.map_cons, events, here, List.cons_append]

end BoundPass

/-- Let a visit be settled by its context, the node and the board. If each unit of a list succeeds on
    its own, the list gives what the units give on their own, in order. If not, the list fails with
    the error that its first unit to fail gives on its own: that is the last reply of the visit, the
    calls are those for the units up to there, and the events are the completions of the units
    before and one abort, which counts the calls for the unit that failed. -/
theorem units_go_as_alone
    (pass : BoundPass level χ π ο (Visit (level.Context Tree Options χ π) Tree τ σ ε))
    (determined : pass.visit.Determined) (options : Options) (own : σ) (supply : Supply)
    (alone : Tree → σ × Supply) :
    let lone unit := pass.lone options unit (alone unit)
    let shown units := ((pass.transformAll (Tree.host options) units).run (own, supply)).1
    let made units := pass.callsAll (Tree.host options) units own supply
    (∀ units, (∀ unit ∈ units, ∃ splice, (lone unit).1 = .ok splice) →
      (∃ splices, (shown units).1 = .ok splices ∧
        splices.map (fun splice => .ok (splice.map Node.shape)) =
          units.map fun unit => (lone unit).1) ∧
      (shown units).2 = units.map fun unit => (lone unit).2.1) ∧
    (∀ before unit after e, (∀ unit ∈ before, ∃ splice, (lone unit).1 = .ok splice) →
      (lone unit).1 = .error e →
      (shown (before ++ unit :: after)).1 = .error e ∧
        ∃ earlier failing, made (before ++ unit :: after) = earlier ++ failing ∧
          earlier.map Call.shaped = before.flatMap (fun unit => (lone unit).2.2) ∧
          failing.map Call.shaped = (lone unit).2.2 ∧
          failing.getLast?.map (·.reply) = some (.error e) ∧
          (shown (before ++ unit :: after)).2 =
            before.map (fun unit => (lone unit).2.1) ++ [.aborted level failing.length]) ∧
    ∀ unit splice, (lone unit).1 = .ok splice →
      ∃ tally entries, (lone unit).2.1 = .completed level tally entries := by
  intro lone shown made
  refine ⟨?_, ?_, ?_⟩
  · intro units whole
    have ran := pass.ran_transformAll (Tree.host options) units own supply
    exact ran.passes determined alone whole
  · intro before unit after e whole fails
    have ran := pass.ran_transformAll (Tree.host options) (before ++ unit :: after) own supply
    exact ran.fails determined alone whole fails
  · intro unit splice succeeds
    exact pass.lone_completed options succeeds

def renewing : Visit κ Tree τ Supply String := fun _ n => do
  if n.isKind "broken" then
    throw "broken"
  if n.isKind "old" then
    let desk ← get
    let (leaf, own) := (Tree.leaf "new").run desk.own
    set { desk with own }
    return .replace leaf
  return .recurse

theorem renewing_determined : (renewing : Visit κ Tree τ Supply String).Determined := by
  intro cx n board own own' _
  unfold renewing
  by_cases broken : n.isKind "broken"
  · rw [if_pos broken]
    exact .error ⟨rfl, trivial⟩
  · rw [if_neg broken]
    by_cases old : n.isKind "old"
    · rw [if_pos old]
      exact .ok rfl ⟨rfl, trivial⟩
    · rw [if_neg old]
      exact .ok rfl ⟨rfl, trivial⟩

theorem unit_stops_at_its_broken_child :
    let pass : BoundPass .raw Checker Program Options
        (Visit (Level.raw.Context Tree Options Checker Program) Tree Empty Supply String) :=
      ⟨⟨renewing⟩, .raw⟩
    let whole : Tree := .mk (.given 0) "block" none [.mk (.given 1) "old" none []]
    let torn : Tree :=
      .mk (.given 2) "block" none [.mk (.given 3) "broken" none [], .mk (.given 4) "old" none []]
    let st : Supply × Supply := (⟨5⟩, ⟨0⟩)
    (pass.lone default whole st).1 =
        .ok (.keep (.mk () "block" none [.mk () "new" none []])) ∧
      ((pass.transformAll (Tree.host default) [whole, torn, whole]).run st).1.1 = .error "broken" ∧
      ∃ earlier failing,
        pass.callsAll (Tree.host default) [whole, torn, whole] st.1 st.2 = earlier ++ failing ∧
        failing.length = 2 ∧
        ((pass.transformAll (Tree.host default) [whole, torn, whole]).run st).1.2 =
          [.completed .raw ⟨2, 1, 1, 0⟩ 0, .aborted .raw 2] := by
  intro pass whole torn st
  have succeeds : (pass.lone default whole st).1 =
      .ok (.keep (.mk () "block" none [.mk () "new" none []])) := by
    with_unfolding_all rfl
  have fails : (pass.lone default torn st).1 = .error "broken" := by
    with_unfolding_all rfl
  have first : (pass.lone default whole st).2.1 = .completed .raw ⟨2, 1, 1, 0⟩ 0 := by
    with_unfolding_all rfl
  have made : (pass.lone default torn st).2.2.length = 2 := by
    with_unfolding_all rfl
  obtain ⟨error, earlier, failing, split, _, same, _, events⟩ :=
    (units_go_as_alone pass renewing_determined default st.1 st.2 fun _ => st).2.1 [whole] torn
      [whole] "broken" (List.forall_mem_singleton.mpr ⟨_, succeeds⟩) fails
  have length : failing.length = 2 := by
    rw [← made, ← same, List.length_map]
  refine ⟨succeeds, error, earlier, failing, split, length, ?_⟩
  rw [length] at events
  rw [← first]
  exact events

end TreeVisit
