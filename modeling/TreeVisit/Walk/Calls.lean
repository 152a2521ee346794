import TreeVisit.Walk.Pass

/- The calls that a walk makes of its visit. A visit is recorded by giving it a list beside its own
   state; what it answers and what it does to the board stay the same. -/
namespace TreeVisit

structure Call (κ ν τ : Type) [Storable τ] (ε : Type) where
  context : κ
  node : ν
  before : Board τ
  reply : Except ε (Decision ν)
  after : Board τ

variable {κ ν ω ρ τ σ ε : Type} [Storable τ]

def Visit.recorded (visit : Visit κ ν τ σ ε) : Visit κ ν τ (σ × List (Call κ ν τ ε)) ε :=
  fun cx n desk =>
    let note (reply : Except ε (Decision ν)) (next : Desk τ σ) : Desk τ (σ × List (Call κ ν τ ε)) :=
      ⟨next.board, next.own, desk.own.2 ++ [⟨cx, n, desk.board, reply, next.board⟩]⟩
    match visit cx n ⟨desk.board, desk.own.1⟩ with
    | .ok decision next => .ok decision (note (.ok decision) next)
    | .error e next => .error e (note (.error e) next)

def calls (host : Host ν ω ρ) (visit : Visit κ ν τ σ ε) (cx : κ) (root : ν) (own : σ)
    (supply : ρ) : List (Call κ ν τ ε) :=
  (traverse host visit.recorded cx root ((own, []), supply)).2.1.2

def BoundPass.calls {χ π ο : Type} [Checked π χ] {level : Level}
    (pass : BoundPass level χ π ο (Visit (level.Context ν ω χ π) ν τ σ ε)) (host : Host ν ω ρ)
    (unit : ν) (own : σ) (supply : ρ) : List (Call (level.Context ν ω χ π) ν τ ε) :=
  TreeVisit.calls host pass.visit (pass.args.enrich ⟨unit, host.options⟩) unit own supply

def BoundPass.recorded {χ π ο : Type} {level : Level}
    (pass : BoundPass level χ π ο (Visit (level.Context ν ω χ π) ν τ σ ε)) :
    BoundPass level χ π ο (Visit (level.Context ν ω χ π) ν τ
      (σ × List (Call (level.Context ν ω χ π) ν τ ε)) ε) :=
  ⟨⟨pass.visit.recorded⟩, pass.args⟩

def BoundPass.callsAll {χ π ο : Type} [Checked π χ] {level : Level}
    (pass : BoundPass level χ π ο (Visit (level.Context ν ω χ π) ν τ σ ε)) (host : Host ν ω ρ)
    (units : List ν) (own : σ) (supply : ρ) : List (Call (level.Context ν ω χ π) ν τ ε) :=
  ((pass.recorded.transformAll host units).run ((own, []), supply)).2.1.2

end TreeVisit
