import TreeVisit.Board
import TreeVisit.Event
import TreeVisit.Walk.Host

/- One walk over one tree. Every node is visited before its children, and the children from left to
   right; a node that is removed or replaced is settled with its subtree, and what replaces it is
   not visited. A failure of the visit ends the walk; nothing is undone and nothing tried again. -/
namespace TreeVisit

structure Desk (τ : Type) [Storable τ] (σ : Type) where
  board : Board τ
  own : σ

/-- A visit is asked about one node, in a context that stays the same throughout the walk. -/
abbrev Visit (κ ν τ : Type) [Storable τ] (σ ε : Type) :=
  κ → ν → EStateM ε (Desk τ σ) (Decision ν)

namespace Tally

def visit (t : Tally) : Tally := { t with visited := t.visited + 1 }

def settle {ν : Type} (t : Tally) : Decision ν → Tally
  | .recurse => { t with recursed := t.recursed + 1 }
  | .remove => { t with removed := t.removed + 1 }
  | .replace _ | .flatten _ => { t with replaced := t.replaced + 1 }

end Tally

structure Progress (τ : Type) [Storable τ] (σ : Type) where
  desk : Desk τ σ
  tally : Tally

variable {κ ν ω ρ τ σ ε : Type} [Storable τ]

/-- One call of the visit, which is counted whether it fails or not. -/
def visitNode (visit : Visit κ ν τ σ ε) (cx : κ) (n : ν) :
    HostM ρ ε (Progress τ σ) (Decision ν) := fun (p, supply) =>
  match visit cx n p.desk with
  | .ok decision desk => .ok decision (⟨desk, p.tally.visit.settle decision⟩, supply)
  | .error e desk => .error e (⟨desk, p.tally.visit⟩, supply)

def walk (host : Host ν ω ρ) (visit : Visit κ ν τ σ ε) (cx : κ) (n : ν) :
    HostM ρ ε (Progress τ σ) (Splice ν) := do
  match ← visitNode visit cx n with
  | .recurse => return .keep (← host.visitEachChild n fun c _child => walk host visit cx c)
  | .remove => return .remove
  | .replace m => return .keep m
  | .flatten ms => return .flatten ms
termination_by host.size n
decreasing_by exact host.size_lt _child

theorem walk_eq (host : Host ν ω ρ) (visit : Visit κ ν τ σ ε) (cx : κ) (n : ν) :
    (walk host visit cx n : HostM ρ ε (Progress τ σ) (Splice ν)) = (do
      match ← visitNode visit cx n with
      | .recurse =>
        let answers ← (host.children n).mapM fun c => walk host visit cx c
        return .keep (← HostM.supply (host.rebuild n answers))
      | .remove => return .remove
      | .replace m => return .keep m
      | .flatten ms => return .flatten ms) := by
  rw [walk]
  congr 1
  funext decision
  cases decision <;> simp [Host.visitEachChild]

structure Traversal (ν τ : Type) [Storable τ] (ε : Type) where
  result : Except ε (Splice ν)
  board : Board τ
  tally : Tally

def Traversal.event (t : Traversal ν τ ε) (level : Level) : Event :=
  match t.result with
  | .ok _ => .completed level t.tally t.board.size
  | .error _ => .aborted level t.tally.visited

def traverse (host : Host ν ω ρ) (visit : Visit κ ν τ σ ε) (cx : κ) (root : ν) :
    StateM (σ × ρ) (Traversal ν τ ε) := fun (own, supply) =>
  match walk host visit cx root (⟨⟨∅, own⟩, ∅⟩, supply) with
  | .ok splice (p, supply) => (⟨.ok splice, p.desk.board, p.tally⟩, (p.desk.own, supply))
  | .error e (p, supply) => (⟨.error e, p.desk.board, p.tally⟩, (p.desk.own, supply))

end TreeVisit
