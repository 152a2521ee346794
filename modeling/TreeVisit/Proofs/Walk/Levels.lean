import TreeVisit.Proofs.Walk.Matching

/- The levels differ in what a visit may ask and in nothing else. A visit that is shown only part of
   its context makes the same walk at every level whose contexts have that part. -/
namespace TreeVisit

variable {κ κ' ν ω ρ χ π ο τ σ ε : Type} [Storable τ]

def Visit.through (view : κ → κ') (visit : Visit κ' ν τ σ ε) : Visit κ ν τ σ ε := fun cx =>
  visit (view cx)

def Call.through (view : κ → κ') (call : Call κ ν τ ε) : Call κ' ν τ ε :=
  ⟨view call.context, call.node, call.before, call.reply, call.after⟩

def Event.withLevel (level : Level) : Event → Event
  | completed _ tally boardEntries => completed level tally boardEntries
  | aborted _ visited => aborted level visited
  | unitAdded unit declarations => unitAdded unit declarations

theorem Traversal.event_withLevel (t : Traversal ν τ ε) (level other : Level) :
    (t.event other).withLevel level = t.event level := by
  unfold event
  split <;> rfl

def Viewed (view : κ → κ') (own : σ × List (Call κ ν τ ε)) (own' : σ × List (Call κ' ν τ ε)) :
    Prop :=
  own' = (own.1, own.2.map (Call.through view))

theorem Visit.through_matches (view : κ → κ') (visit : Visit κ' ν τ σ ε) (cx : κ) :
    (visit.through view).recorded.Matches id (Viewed view) cx visit.recorded (view cx) := by
  rintro n board ⟨own, log⟩ _ rfl
  simp only [recorded, through]
  generalize visit (view cx) n ⟨board, own⟩ = result
  cases result with
  | ok decision desk => exact .ok rfl ⟨rfl, by simp [Viewed, Call.through]⟩
  | error e desk => exact .error ⟨rfl, by simp [Viewed, Call.through]⟩

theorem traverse_through (host : Host ν ω ρ) (view : κ → κ') (visit : Visit κ' ν τ σ ε) (cx : κ)
    (root : ν) (own : σ) (supply : ρ) :
    traverse host (visit.through view) cx root (own, supply) =
        traverse host visit (view cx) root (own, supply) ∧
      (calls host (visit.through view) cx root own supply).map (Call.through view) =
        calls host visit (view cx) root own supply := by
  obtain ⟨results, boards, tallies, owners, supplies⟩ :=
    traverse_alike host.matches_self (visit.through_matches view cx) root ((own, []), supply)
      ((own, []), supply) rfl rfl
  simp only [StateT.run, traverse_recorded, List.nil_append, Splice.map_id, Except.map_id, id, Viewed]
    at results boards tallies owners supplies
  generalize traverse host (visit.through view) cx root (own, supply) = here at *
  generalize traverse host visit (view cx) root (own, supply) = there at *
  obtain ⟨⟨result, board, tally⟩, own₁, supply₁⟩ := here
  obtain ⟨⟨result', board', tally'⟩, own₂, supply₂⟩ := there
  simp only at results boards tallies owners supplies
  obtain ⟨same, logs⟩ := Prod.mk.inj owners
  rw [results, boards, tallies, same, supplies]
  exact ⟨rfl, logs.symm⟩

variable [Checked π χ]

namespace Level.Context

def configured : compilerOptions.Context ν ω χ π → config.Context ν ω χ π := id

def checked : program.Context ν ω χ π → checker.Context ν ω χ π := ProgramContext.toCheckerContext

end Level.Context

namespace Args

theorem base_enrich {level : Level} (args : Args χ π ο level) (base : BaseContext ν ω) :
    (args.enrich base).base = base := by
  cases args <;> rfl

theorem configured_enrich (c : Config) (options : ο) (base : BaseContext ν ω) :
    ((compilerOptions options c : Args χ π ο _).enrich base).configured =
      (config c : Args χ π ο _).enrich base := rfl

theorem checked_enrich (c : Config) (p : π) (base : BaseContext ν ω) :
    ((program p c : Args χ π ο _).enrich base).checked =
      (checker (Checked.checker p) c : Args χ π ο _).enrich base := rfl

end Args

/-- From this moment the pass walks over the unit as the other one does: it gives the same, leaves
    everything the same, makes the same calls in the view of its contexts, and reports the same
    under its own level. -/
structure BoundPass.WalksAs {level level' : Level}
    (view : level.Context ν ω χ π → level'.Context ν ω χ π)
    (pass : BoundPass level χ π ο (Visit (level.Context ν ω χ π) ν τ σ ε))
    (other : BoundPass level' χ π ο (Visit (level'.Context ν ω χ π) ν τ σ ε))
    (host : Host ν ω ρ) (unit : ν) (own : σ) (supply : ρ) : Prop where
  traversal : (pass.traverse host unit).run (own, supply) =
    (other.traverse host unit).run (own, supply)
  calls : (pass.calls host unit own supply).map (Call.through view) =
    other.calls host unit own supply
  result : ((pass.transform host unit).run (own, supply)).1.1 =
    ((other.transform host unit).run (own, supply)).1.1
  event : ((pass.transform host unit).run (own, supply)).1.2 =
    ((other.transform host unit).run (own, supply)).1.2.withLevel level

theorem BoundPass.walksAs_through {level level' : Level} (args : Args χ π ο level)
    (args' : Args χ π ο level') {view : level.Context ν ω χ π → level'.Context ν ω χ π}
    (enriched : ∀ base, view (args.enrich base) = args'.enrich base)
    (visit : Visit (level'.Context ν ω χ π) ν τ σ ε) (host : Host ν ω ρ) (unit : ν) (own : σ)
    (supply : ρ) :
    (BoundPass.mk ⟨visit.through view⟩ args).WalksAs view ⟨⟨visit⟩, args'⟩ host unit own supply := by
  have walks := traverse_through host view visit (args.enrich ⟨unit, host.options⟩) unit own supply
  rw [enriched] at walks
  obtain ⟨traversal, calls⟩ := walks
  refine ⟨traversal, calls, ?_, ?_⟩
  · exact congrArg (·.1.result) traversal
  · have event := congrArg (fun run => run.1.event level) traversal
    exact event.trans (Traversal.event_withLevel _ level level').symm

/-- A visit that goes by the base of its context makes the same walk at all levels as at the lowest.
    One that goes by the configuration too makes the same walk under bound options, which nothing
    reads, as under the configuration alone; and one that goes by the checker makes the same walk
    under a program as under the checker that the program derives. -/
theorem levels_walk_alike (host : Host ν ω ρ) (unit : ν) (own : σ) (supply : ρ) :
    (∀ (visit : Visit (BaseContext ν ω) ν τ σ ε) (level : Level) (args : Args χ π ο level),
      let lifted : BoundPass level χ π ο (Visit (level.Context ν ω χ π) ν τ σ ε) :=
        ⟨⟨visit.through Level.Context.base⟩, args⟩
      let plain : BoundPass .raw χ π ο (Visit (Level.raw.Context ν ω χ π) ν τ σ ε) := ⟨⟨visit⟩, .raw⟩
      lifted.WalksAs Level.Context.base plain host unit own supply) ∧
    (∀ (visit : Visit (ConfigContext ν ω) ν τ σ ε) (c : Config) (options : ο),
      let bound : BoundPass .compilerOptions χ π ο
          (Visit (Level.compilerOptions.Context ν ω χ π) ν τ σ ε) :=
        ⟨⟨visit⟩, .compilerOptions options c⟩
      let plain : BoundPass .config χ π ο (Visit (Level.config.Context ν ω χ π) ν τ σ ε) :=
        ⟨⟨visit⟩, .config c⟩
      bound.WalksAs Level.Context.configured plain host unit own supply) ∧
    (∀ (visit : Visit (CheckerContext ν ω χ) ν τ σ ε) (c : Config) (program : π),
      let lifted : BoundPass .program χ π ο (Visit (Level.program.Context ν ω χ π) ν τ σ ε) :=
        ⟨⟨visit.through ProgramContext.toCheckerContext⟩, .program program c⟩
      let plain : BoundPass .checker χ π ο (Visit (Level.checker.Context ν ω χ π) ν τ σ ε) :=
        ⟨⟨visit⟩, .checker (Checked.checker program) c⟩
      lifted.WalksAs Level.Context.checked plain host unit own supply) := by
  refine ⟨?_, ?_, ?_⟩
  · intro visit level args
    exact BoundPass.walksAs_through args .raw args.base_enrich visit host unit own supply
  · intro visit c options
    exact BoundPass.walksAs_through _ _ (Args.configured_enrich c options) visit host unit own supply
  · intro visit c program
    exact BoundPass.walksAs_through _ _ (Args.checked_enrich c program) visit host unit own supply

end TreeVisit
