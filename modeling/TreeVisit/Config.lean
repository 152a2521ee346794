import TreeVisit.Document.Reader
import TreeVisit.Fault

/- Configurations: documents under keys, listed in key order. A typed look-up tells an absent key
   from one whose value has the wrong shape; a null that is present is not absent. -/
namespace TreeVisit

structure Config where
  values : SortedMap Document

namespace Config

instance : EmptyCollection Config := ⟨⟨∅⟩⟩
instance : Inhabited Config := ⟨∅⟩
instance : BEq Config := ⟨fun a b => a.values == b.values⟩

def ofDocument : Document → Except Fault Config
  | .record members => .ok ⟨SortedMap.ofPairs members⟩
  | .null => .ok ∅
  | d => .error (.invalidConfig (.notARecord d.kindName))

def ofText (text : String) : Except Fault Config := do
  let d ← (Document.read text).mapError Fault.syntaxFault
  ofDocument d

def toDocument (c : Config) : Document := .record c.values.bindings

instance : Decode Config := ⟨fun d => do return ⟨← decode d⟩⟩

def get? (c : Config) (key : String) : Option Document := c.values.get? key

def set (c : Config) (key : String) (value : Document) : Config :=
  ⟨c.values.insert key value⟩

def insert (c : Config) (key : String) (value : Document) : Option Document × Config :=
  (c.get? key, c.set key value)

variable {α : Type} [Decode α]

def find (c : Config) (key : String) : Except Fault (Option α) :=
  match c.get? key with
  | none => .ok none
  | some d => ((decode d).map some).mapError (Fault.configValue key)

def findD (c : Config) (key : String) (default : α) : Except Fault α := do
  return (← c.find key).getD default

def decodeAll (c : Config) : Except Fault α := (decode c.toDocument).mapError Fault.dataFault

def contains (c : Config) (key : String) : Bool := c.values.contains key
def size (c : Config) : Nat := c.values.size
def isEmpty (c : Config) : Bool := c.values.isEmpty
def print (c : Config) : String := c.toDocument.print

end Config
end TreeVisit
