import TreeVisit.SortedMap

/- Configuration documents: nulls, flags, numbers, texts, lists and records. The members of a
   record are kept in ascending order of their keys. -/
namespace TreeVisit

inductive Document where
  | null
  | flag (b : Bool)
  | int (n : Int)
  | float (x : Float)
  | text (s : String)
  | list (items : List Document)
  | record (members : List (String × Document))

namespace Document

instance : Inhabited Document := ⟨null⟩

mutual

/-- Floats are compared as numbers, so the two zeros are equal. -/
def beq : Document → Document → Bool
  | null, null => true
  | flag a, flag b => a == b
  | int m, int n => m == n
  | float x, float y => x == y
  | text s, text t => s == t
  | list as, list bs => beqItems as bs
  | record as, record bs => beqMembers as bs
  | _, _ => false

def beqItems : List Document → List Document → Bool
  | [], [] => true
  | a :: as, b :: bs => beq a b && beqItems as bs
  | _, _ => false

def beqMembers : List (String × Document) → List (String × Document) → Bool
  | [], [] => true
  | (k, a) :: as, (l, b) :: bs => k == l && beq a b && beqMembers as bs
  | _, _ => false

end

instance : BEq Document := ⟨beq⟩

mutual

def depth : Document → Nat
  | list items => depthItems items + 1
  | record members => depthMembers members + 1
  | _ => 0

def depthItems : List Document → Nat
  | [] => 0
  | d :: rest => max d.depth (depthItems rest)

def depthMembers : List (String × Document) → Nat
  | [] => 0
  | (_, d) :: rest => max d.depth (depthMembers rest)

end

def ofMembers (pairs : List (String × Document)) : Document := record (Bindings.ofPairs pairs)

def kindName : Document → String
  | null => "null"
  | flag _ => "a boolean"
  | int _ | float _ => "a number"
  | text _ => "a string"
  | list _ => "an array"
  | record _ => "an object"

end Document
end TreeVisit
