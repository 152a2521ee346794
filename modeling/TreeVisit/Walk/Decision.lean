import TreeVisit.Fault

/- What a visit decides about a node, and what then stands in the place of the node. -/
namespace TreeVisit

/-- Recursing keeps a node and visits its children; all else settles the node with its subtree. -/
inductive Decision (ν : Type) where
  | recurse
  | remove
  | replace (n : ν)
  | flatten (ns : List ν)
  deriving DecidableEq

namespace Decision
variable {ν : Type}

instance : Inhabited (Decision ν) := ⟨recurse⟩
instance : Coe ν (Decision ν) := ⟨replace⟩

def isRecurse : Decision ν → Bool
  | recurse => true
  | _ => false

def isRemove : Decision ν → Bool
  | remove => true
  | _ => false

def isReplacement : Decision ν → Bool
  | replace _ | flatten _ => true
  | _ => false

end Decision

/-- What stands for a node in the list of children that it was in. -/
inductive Splice (ν : Type) where
  | keep (n : ν)
  | remove
  | flatten (ns : List ν)
  deriving DecidableEq

namespace Splice
variable {ν : Type}

instance : Coe ν (Splice ν) := ⟨keep⟩

def isKeep : Splice ν → Bool
  | keep _ => true
  | _ => false

def isRemove : Splice ν → Bool
  | remove => true
  | _ => false

def isFlatten : Splice ν → Bool
  | flatten _ => true
  | _ => false

def mapM {m : Type → Type} [Monad m] {β : Type} (f : ν → m β) : Splice ν → m (Splice β)
  | keep n => do return keep (← f n)
  | remove => return remove
  | flatten ns => do return flatten (← ns.mapM f)

def nodes : Splice ν → List ν
  | keep n => [n]
  | remove => []
  | flatten ns => ns

def spliceInto (s : Splice ν) (before : List ν) : List ν := before ++ s.nodes

def root? : Splice ν → Except Fault (Option ν)
  | keep n => .ok (some n)
  | remove => .ok none
  | flatten [] => .ok none
  | flatten [n] => .ok (some n)
  | flatten ns => .error (.rootNotSingle ns.length)

end Splice

def describeList {ν : Type} (describe : ν → String) (ns : List ν) : String :=
  "[" ++ ", ".intercalate (ns.map describe) ++ "]"

def Decision.describe {ν : Type} (describe : ν → String) : Decision ν → String
  | recurse => "Recurse"
  | remove => "Remove"
  | replace n => "Replace(" ++ describe n ++ ")"
  | flatten ns => "Flatten(" ++ describeList describe ns ++ ")"

def Splice.describe {ν : Type} (describe : ν → String) : Splice ν → String
  | keep n => "Keep(" ++ describe n ++ ")"
  | remove => "Remove"
  | flatten ns => "Flatten(" ++ describeList describe ns ++ ")"

end TreeVisit
