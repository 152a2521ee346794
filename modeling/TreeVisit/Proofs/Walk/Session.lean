import TreeVisit.Proofs.Walk.Record
import TreeVisit.Walk.Session

/- The contexts of a session. Throughout a walk the context shows the root of the unit, the options
   that the host had when the walk began and what was bound to the pass; the board is empty at first
   and passes from call to call. Nothing of that depends on the walks before. -/
namespace TreeVisit

variable {ν ω ρ χ π ο τ σ ε : Type} [Storable τ] [Checked π χ] {level : Level}

namespace Args

def config? : Args χ π ο level → Option Config
  | .raw => none
  | .config c | .checker _ c | .compilerOptions _ c | .program _ c => some c

def checker? : Args χ π ο level → Option χ
  | .checker checks _ => some checks
  | .program p _ => some (Checked.checker p)
  | .raw | .config _ | .compilerOptions _ _ => none

def program? : Args χ π ο level → Option π
  | .program p _ => some p
  | .raw | .config _ | .checker _ _ | .compilerOptions _ _ => none

end Args

/-- All that the accessors of a context give. -/
structure Level.Context.Shows (cx : level.Context ν ω χ π) (unit : ν) (options : ω)
    (args : Args χ π ο level) : Prop where
  sourceFile : cx.base.sourceFile = unit
  options : cx.base.options = options
  config : cx.config? = args.config?
  checker : cx.checker? = args.checker?
  program : cx.program? = args.program?

theorem Args.enrich_shows (args : Args χ π ο level) (unit : ν) (options : ω) :
    (args.enrich ⟨unit, options⟩).Shows unit options args := by
  cases args <;> exact ⟨rfl, rfl, rfl, rfl, rfl⟩

def Request.lastSet (options : ω) (requests : List (Request ν ω)) : ω :=
  requests.foldl (fun now request =>
    match request with
    | .setOptions options => options
    | .transform _ => now) options

def Visit.KeepsOptions {κ : Type} (visit : Visit κ ν τ (InUse ω σ) ε) : Prop :=
  ∀ cx n desk, match visit cx n desk with
    | .ok _ later | .error _ later => later.own.options = desk.own.options

theorem Walked.options_kept {κ ω' : Type} {host : Host ν ω' ρ} {visit : Visit κ ν τ (InUse ω σ) ε}
    {cx : κ} {ns : List ν} {st final : Progress τ (InUse ω σ) × ρ} {course : Course κ ν τ ε}
    (walked : Walked host visit cx ns st course final) (keeps : visit.KeepsOptions) :
    final.1.desk.own.options = st.1.desk.own.options := by
  have asked_ok {n : ν} {st st' : Progress τ (InUse ω σ) × ρ} {decision : Decision ν}
      (asked : visitNode visit cx n st = .ok decision st') :
      st'.1.desk.own.options = st.1.desk.own.options := by
    obtain ⟨desk, called, rfl⟩ := visitNode_ok asked
    have kept := keeps cx n st.1.desk
    rwa [called] at kept
  induction walked with
  | done => rfl
  | @failed n _ st _ _ asked =>
    obtain ⟨desk, called, rfl⟩ := visitNode_error asked
    have kept := keeps cx n st.1.desk
    rwa [called] at kept
  | settled asked _ _ others => exact others.trans (asked_ok asked)
  | entered asked _ _ _ _ children others => exact others.trans (children.trans (asked_ok asked))
  | broken asked _ _ children => exact children.trans (asked_ok asked)

namespace BoundPass
variable (pass : BoundPass level χ π ο (Visit (level.Context ν ω χ π) ν τ (InUse ω σ) ε))
  (host : Host ν ω ρ)

theorem session_append (before after : List (Request ν ω)) (st : InUse ω σ × ρ) :
    (pass.session host (before ++ after)).run st =
      let (rounds, between) := (pass.session host before).run st
      let (others, last) := (pass.session host after).run between
      (rounds ++ others, last) := by
  induction before generalizing st with
  | nil => rfl
  | cons request rest ih =>
    cases request with
    | setOptions options => exact ih _
    | transform unit =>
      simp only [List.cons_append, session, StateT.run_bind, ih]
      rfl

theorem round_options (keeps : pass.visit.KeepsOptions) (unit : ν) (st : InUse ω σ × ρ) :
    ((pass.round host unit).run st).2.1.options = st.1.options := by
  obtain ⟨course, final, answer, whole⟩ := exists_courseOf (host.withOptions st.1.options) pass.visit
    (pass.args.enrich ⟨unit, st.1.options⟩) unit st.1 st.2
  change ((TreeVisit.traverse (host.withOptions st.1.options) pass.visit
    (pass.args.enrich ⟨unit, st.1.options⟩) unit) st).2.1.options = st.1.options
  rw [whole.traversal]
  exact whole.walked.options_kept keeps

theorem session_options (keeps : pass.visit.KeepsOptions) (requests : List (Request ν ω))
    (st : InUse ω σ × ρ) :
    ((pass.session host requests).run st).2.1.options = Request.lastSet st.1.options requests := by
  induction requests generalizing st with
  | nil => rfl
  | cons request rest ih =>
    cases request with
    | setOptions options => exact ih _
    | transform unit =>
      have kept := ih ((pass.round host unit).run st).2
      rw [pass.round_options host keeps unit st] at kept
      exact kept

end BoundPass

/-- Whatever was asked of the host and the pass before a walk, and whatever is asked of them behind
    it: at each of its calls the context shows the root of the unit, the options that the host had
    when the walk began and what is bound to the pass. Its first call finds an empty board and every
    later one the board as the call before left it; the keys left at last are those reported. -/
theorem each_walk_has_its_own_context
    (pass : BoundPass level χ π ο (Visit (level.Context ν ω χ π) ν τ (InUse ω σ) ε))
    (host : Host ν ω ρ) (before after : List (Request ν ω)) (unit : ν) (st : InUse ω σ × ρ) :
    let begun := ((pass.session host before).run st).2
    ∃ round later,
      ((pass.session host (before ++ .transform unit :: after)).run st).1 =
        ((pass.session host before).run st).1 ++ round :: later ∧
      round.unit = unit ∧
      (∀ call ∈ round.calls, call.context.Shows unit begun.1.options pass.args) ∧
      round.calls ≠ [] ∧
      (∃ board, Threaded ∅ round.calls board ∧
        ∀ splice, round.result = .ok splice →
          ∃ tally, round.event = .completed level tally board.keys.length) ∧
      (pass.visit.KeepsOptions → begun.1.options = Request.lastSet st.1.options before) := by
  intro begun
  let options := begun.1.options
  have recorded := traverse_is_recorded (host.withOptions options) pass.visit
    (pass.args.enrich ⟨unit, options⟩) unit begun.1 begun.2
  refine ⟨((pass.round host unit).run begun).1,
    ((pass.session host after).run ((pass.round host unit).run begun).2).1, ?_, rfl, ?_,
    recorded.nonempty, ⟨_, recorded.threaded, ?_⟩, ?_⟩
  · rw [pass.session_append host before]
    rfl
  · intro call member
    rw [recorded.contexts call member]
    exact pass.args.enrich_shows unit options
  · intro splice completes
    exact ⟨_, Traversal.event_completed completes level⟩
  · intro keeps
    exact pass.session_options host keeps before st

end TreeVisit
