import TreeVisit.Tree.Basic

/- Trees whose nodes can be told apart, and the supply of marks that their builders draw on. A node
   keeps its mark wherever it is shared, and each node that is built gets a mark of its own; those
   that a walk builds are numbered apart from those that its callers build. -/
namespace TreeVisit

inductive Mark where
  | given (n : Nat)
  | rebuilt (n : Nat)
  deriving DecidableEq, Repr

abbrev Tree := Node Mark

/-- The numbers from here on have not been used. -/
structure Supply where
  next : Nat
  deriving DecidableEq, Repr

instance : Inhabited Supply := ⟨⟨0⟩⟩

namespace Supply

def take : StateM Supply Nat := fun s => (s.next, ⟨s.next + 1⟩)
def given : StateM Supply Mark := do return .given (← take)
def rebuilt : StateM Supply Mark := do return .rebuilt (← take)

end Supply

namespace Tree

mutual

def ofShape : Shape → StateM Supply Tree
  | .mk _ k t cs => do
    let mark ← Supply.given
    return .mk mark k t (← ofShapes cs)

def ofShapes : List Shape → StateM Supply (List Tree)
  | [] => return []
  | c :: rest => do
    let tree ← ofShape c
    return tree :: (← ofShapes rest)

end

def leaf (kind : String) : StateM Supply Tree := do
  return .mk (← Supply.given) kind none []

def token (kind text : String) : StateM Supply Tree := do
  return .mk (← Supply.given) kind (some text) []

def node (kind : String) (children : List Tree) : StateM Supply Tree := do
  return .mk (← Supply.given) kind none children

def update (n : Tree) (children : List Tree) : StateM Supply Tree := do
  return n.withChildren (← Supply.given) children

end Tree
end TreeVisit
