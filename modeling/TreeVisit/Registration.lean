import TreeVisit.Config

/- Registrations of passes: one record holds the reserved keys, which say what to run, at which
   level and when, and all its other members are the configuration of the pass. -/
namespace TreeVisit

inductive Phase where
  | before
  | after
  | afterDeclarations
  deriving DecidableEq, Repr

namespace Phase

instance : Inhabited Phase := ⟨before⟩

def all : List Phase := [before, after, afterDeclarations]

def tag : Phase → String
  | before => "before"
  | after => "after"
  | afterDeclarations => "afterDeclarations"

instance : Decode Phase := ⟨decodeTagged (all.map fun phase => (phase.tag, phase))⟩

def toDocument (phase : Phase) : Document := .text phase.tag

/-- Declarations come last, so they decide when both flags are set. -/
def ofFlags (after afterDeclarations : Bool) : Phase :=
  if afterDeclarations then .afterDeclarations else if after then .after else .before

end Phase

structure Registration where
  transform? : Option String
  level : Level
  phase : Phase
  config : Config

namespace Registration

def reservedKeys : List String := ["transform", "type", "after", "afterDeclarations"]

def readTransform : Option Document → Except Fault (Option String)
  | none | some .null => .ok none
  | some (.text s) => .ok (some s)
  | some d => .error (.invalidConfig (.transformNotAText d.kindName))

def readLevel : Option Document → Except Fault Level
  | none | some .null => .ok default
  | some (.text tag) => Level.ofTag tag
  | some d => .error (.invalidLevel d.print)

def readFlag (key : String) : Option Document → Except Fault Bool
  | none | some .null => .ok false
  | some (.flag b) => .ok b
  | some d => .error (.invalidConfig (.notAFlag key d.kindName))

/-- A reserved key that holds null counts as absent. -/
def ofDocument : Document → Except Fault Registration
  | .record members => do
    let values := SortedMap.ofPairs members
    let transform? ← readTransform (values.get? "transform")
    let level ← readLevel (values.get? "type")
    let after ← readFlag "after" (values.get? "after")
    let afterDeclarations ← readFlag "afterDeclarations" (values.get? "afterDeclarations")
    let config := reservedKeys.foldl SortedMap.erase values
    return ⟨transform?, level, .ofFlags after afterDeclarations, ⟨config⟩⟩
  | d => .error (.invalidConfig (.entryNotARecord d.kindName))

def ofText (text : String) : Except Fault Registration := do
  let d ← (Document.read text).mapError Fault.syntaxFault
  ofDocument d

end Registration
end TreeVisit
