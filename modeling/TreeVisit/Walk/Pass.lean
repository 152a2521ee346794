import TreeVisit.Walk.Context
import TreeVisit.Walk.Traversal

/- Passes: visits that are declared for a level. A pass is bound once to what its level takes and
   may then transform any number of source units, each in a walk of its own. -/
namespace TreeVisit

structure Pass (level : Level) (V : Type) where
  visit : V

namespace Pass
variable {V : Type}

def forLevel (declared requested : Level) (visit : V) : Except Fault (Pass declared V) :=
  if requested = declared then .ok ⟨visit⟩ else .error (.levelMismatch declared requested)

def ofTag (declared : Level) (tag : String) (visit : V) : Except Fault (Pass declared V) := do
  forLevel declared (← Level.ofTag tag) visit

def level {level : Level} (_ : Pass level V) : Level := level

end Pass

structure BoundPass (level : Level) (χ π ο V : Type) extends Pass level V where
  args : Args χ π ο level

def Pass.bind {level : Level} {χ π ο V : Type} (pass : Pass level V) (args : Args χ π ο level) :
    BoundPass level χ π ο V := { pass with args }

namespace BoundPass
variable {ν ω ρ χ π ο τ σ ε : Type} [Storable τ] [Checked π χ] {level : Level}

def traverse (pass : BoundPass level χ π ο (Visit (level.Context ν ω χ π) ν τ σ ε))
    (host : Host ν ω ρ) (unit : ν) : StateM (σ × ρ) (Traversal ν τ ε) :=
  TreeVisit.traverse host pass.visit (pass.args.enrich ⟨unit, host.options⟩) unit

def transform (pass : BoundPass level χ π ο (Visit (level.Context ν ω χ π) ν τ σ ε))
    (host : Host ν ω ρ) (unit : ν) : StateM (σ × ρ) (Except ε (Splice ν) × Event) := do
  let t ← pass.traverse host unit
  return (t.result, t.event level)

def transformAll (pass : BoundPass level χ π ο (Visit (level.Context ν ω χ π) ν τ σ ε))
    (host : Host ν ω ρ) :
    List ν → StateM (σ × ρ) (Except ε (List (Splice ν)) × List Event)
  | [] => return (.ok [], [])
  | unit :: rest => do
    let (result, event) ← pass.transform host unit
    match result with
    | .error e => return (.error e, [event])
    | .ok splice =>
      let (results, events) ← pass.transformAll host rest
      return (results.map (splice :: ·), event :: events)

end BoundPass
end TreeVisit
