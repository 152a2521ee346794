import TreeVisit.Event
import TreeVisit.Tree.Mark
import TreeVisit.Tree.Preorder
import TreeVisit.Walk.Context

/- Programs: named source units, and the types of the names that they declare. A node `let` with a
   text and a child declares the text, at the type that the first child has when it is scanned. -/
namespace TreeVisit

inductive Ty where
  | number
  | string
  | boolean
  | unknown
  deriving DecidableEq, Repr

def Ty.name : Ty → String
  | number => "number"
  | string => "string"
  | boolean => "boolean"
  | unknown => "unknown"

structure Checker where
  declarations : SortedMap Ty

namespace Checker
variable {μ : Type}

instance : EmptyCollection Checker := ⟨⟨∅⟩⟩

def declaration? (c : Checker) (name : String) : Option Ty := c.declarations.get? name
def size (c : Checker) : Nat := c.declarations.size

def typeOf (c : Checker) (n : Node μ) : Ty :=
  if n.kind = "num" then .number
  else if n.kind = "str" then .string
  else if n.kind = "bool" then .boolean
  else if n.kind = "ident" then (n.text?.bind c.declaration?).getD .unknown
  else .unknown

def scanNode (c : Checker) (n : Node μ) : Checker :=
  if n.isKind "let" then
    match n.text?, n.child? 0 with
    | some name, some value => ⟨c.declarations.insert name (c.typeOf value)⟩
    | _, _ => c
  else c

def scan (c : Checker) (root : Node μ) : Checker := root.descendants.foldl scanNode c

end Checker

structure Program where
  units : SortedMap Tree
  checker : Checker

structure DuplicateUnit where
  name : String
  deriving DecidableEq, Repr

def DuplicateUnit.message (fault : DuplicateUnit) : String :=
  "duplicate source unit: " ++ fault.name

namespace Program

instance : EmptyCollection Program := ⟨⟨∅, ∅⟩⟩
instance : Checked Program Checker := ⟨Program.checker⟩

def add (name : String) (root : Tree) : EStateM DuplicateUnit Program Event := do
  let p ← get
  if p.units.contains name then throw ⟨name⟩
  let checker := p.checker.scan root
  set (⟨p.units.insert name root, checker⟩ : Program)
  return .unitAdded name checker.size

def unit? (p : Program) (name : String) : Option Tree := p.units.get? name
def roots (p : Program) : List Tree := p.units.values
def size (p : Program) : Nat := p.units.size
def isEmpty (p : Program) : Bool := p.units.isEmpty

end Program
end TreeVisit
