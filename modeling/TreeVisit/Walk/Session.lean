import TreeVisit.Walk.Calls

/- A host in use with one bound pass. The options of the host may be changed between two walks, and
   also during one by a visit that holds on to the host; a walk goes by the options that it finds
   when it begins. -/
namespace TreeVisit

variable {ν ω ρ χ π ο τ σ ε : Type} [Storable τ] [Checked π χ] {level : Level}

def Host.withOptions (host : Host ν ω ρ) (options : ω) : Host ν ω ρ := { host with options }

/-- The options that the host has now, beside what else the owner of a visit keeps. -/
structure InUse (ω σ : Type) where
  options : ω
  own : σ

inductive Request (ν ω : Type) where
  | setOptions (options : ω)
  | transform (unit : ν)
  deriving DecidableEq

structure Round (κ ν τ : Type) [Storable τ] (ε : Type) where
  unit : ν
  calls : List (Call κ ν τ ε)
  result : Except ε (Splice ν)
  event : Event

namespace BoundPass

def round (pass : BoundPass level χ π ο (Visit (level.Context ν ω χ π) ν τ (InUse ω σ) ε))
    (host : Host ν ω ρ) (unit : ν) :
    StateM (InUse ω σ × ρ) (Round (level.Context ν ω χ π) ν τ ε) := fun (now, supply) =>
  let host := host.withOptions now.options
  let ((result, event), later) := (pass.transform host unit).run (now, supply)
  (⟨unit, pass.calls host unit now supply, result, event⟩, later)

/-- The requests in order; a walk that fails does not end the session. -/
def session (pass : BoundPass level χ π ο (Visit (level.Context ν ω χ π) ν τ (InUse ω σ) ε))
    (host : Host ν ω ρ) :
    List (Request ν ω) → StateM (InUse ω σ × ρ) (List (Round (level.Context ν ω χ π) ν τ ε))
  | [] => return []
  | .setOptions options :: rest => do
    modify fun (now, supply) => ({ now with options }, supply)
    pass.session host rest
  | .transform unit :: rest => do
    let round ← pass.round host unit
    return round :: (← pass.session host rest)

end BoundPass
end TreeVisit
