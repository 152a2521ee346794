import TreeVisit.Document.Fault
import TreeVisit.Level

/- Everything that can go wrong in the preparation of a pass and in the use of its result. -/
namespace TreeVisit

inductive ConfigCause where
  | notARecord (found : String)
  | entryNotARecord (found : String)
  | transformNotAText (found : String)
  | notAFlag (key found : String)
  deriving DecidableEq, Repr

def ConfigCause.message : ConfigCause → String
  | notARecord found => "expected a JSON object, found " ++ found
  | entryNotARecord found => "plugin entry must be a JSON object, found " ++ found
  | transformNotAText found => "'transform' must be a string, found " ++ found
  | notAFlag key found => "'" ++ key ++ "' must be a boolean, found " ++ found

inductive Fault where
  | invalidLevel (tag : String)
  | levelMismatch (declared requested : Level)
  | invalidConfig (cause : ConfigCause)
  | configValue (key : String) (cause : DataError)
  | syntaxFault (cause : Document.SyntaxFault)
  | dataFault (cause : DataError)
  | rootNotSingle (count : Nat)
  deriving DecidableEq, Repr

namespace Fault

def message : Fault → String
  | invalidLevel tag =>
    "'" ++ tag ++ "' isn't a valid transformer factory type (expected one of: " ++
      ", ".intercalate (Level.listed.map Level.tag) ++ ")"
  | levelMismatch declared requested =>
    "transformer declared for level '" ++ declared.tag ++ "' cannot be built as '" ++
      requested.tag ++ "'"
  | invalidConfig cause => "invalid configuration: " ++ cause.message
  | configValue key cause =>
    "configuration key '" ++ key ++ "' has an unexpected shape: " ++ cause.message
  | syntaxFault cause => cause.message
  | dataFault cause => cause.message
  | rootNotSingle count =>
    "root was replaced by " ++ toString count ++ " nodes; a source unit has exactly one root"

def isLevelFault : Fault → Bool
  | invalidLevel _ | levelMismatch _ _ => true
  | _ => false

end Fault

def Level.ofTag (tag : String) : Except Fault Level :=
  match Level.ofTag? tag with
  | some level => .ok level
  | none => .error (.invalidLevel tag)

end TreeVisit
