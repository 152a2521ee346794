import TreeVisit.Walk.Decision

/- What a walk needs from the trees that it walks on: the children of a node, and a way to build the
   node anew from what stands for each child. A host may draw on a supply while it builds; nothing
   else is known of its nodes. -/
namespace TreeVisit

structure Host (ν ω ρ : Type) where
  options : ω
  children : ν → List ν
  rebuild : ν → List (Splice ν) → StateM ρ ν
  size : ν → Nat
  size_lt : ∀ {n c : ν}, c ∈ children n → size c < size n

abbrev HostM (ρ ε s : Type) := EStateM ε (s × ρ)

def HostM.supply {ρ ε s α : Type} (step : StateM ρ α) : HostM ρ ε s α := fun st =>
  let (a, supply) := step.run st.2
  .ok a (st.1, supply)

namespace Host
variable {ν ω ρ ε s : Type}

/-- Asks about every child in order, up to the first failure, and rebuilds the node from the
    answers. -/
def visitEachChild (host : Host ν ω ρ) (n : ν)
    (visit : (c : ν) → c ∈ host.children n → HostM ρ ε s (Splice ν)) : HostM ρ ε s ν := do
  let answers ← (host.children n).attach.mapM fun c => visit c.1 c.2
  HostM.supply (host.rebuild n answers)

end Host
end TreeVisit
