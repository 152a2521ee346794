import TreeVisit.Document.Decode

/- Capability levels: how much a visit may ask about besides the node it is called on. A level has a
   tag, by which passes and registrations name it; as a typed value it goes by the name of its variant. -/
namespace TreeVisit

inductive Level where
  | raw
  | config
  | checker
  | compilerOptions
  | program
  deriving DecidableEq, Repr

namespace Level

instance : Inhabited Level := ⟨program⟩

def all : List Level := [raw, config, compilerOptions, checker, program]

/-- Every level in the order in which messages list them. -/
def listed : List Level := [raw, config, checker, compilerOptions, program]

def tag : Level → String
  | raw => "raw"
  | config => "config"
  | checker => "checker"
  | compilerOptions => "compilerOptions"
  | program => "program"

def title : Level → String
  | raw => "Raw"
  | config => "Config"
  | checker => "Checker"
  | compilerOptions => "CompilerOptions"
  | program => "Program"

def ofTag? (tag : String) : Option Level := all.find? (·.tag == tag)

def hasConfig (level : Level) : Bool := level != raw
def hasChecker (level : Level) : Bool := level == checker || level == program
def hasProgram (level : Level) : Bool := level == program

def extraFields : Level → List String
  | raw => []
  | config | compilerOptions => ["config"]
  | checker => ["type_checker", "config"]
  | program => ["program", "type_checker", "config"]

def variant (level : Level) : String := camelCase level.title

instance : Decode Level := ⟨decodeTagged (listed.map fun level => (level.variant, level))⟩

def toDocument (level : Level) : Document := .text level.variant

theorem variant_eq_tag (level : Level) : level.variant = level.tag := by
  cases level <;> decide

theorem ofTag?_eq_some_iff (tag : String) (level : Level) :
    ofTag? tag = some level ↔ tag = level.tag := by
  constructor
  · intro found
    have := List.find?_some found
    simpa using (beq_iff_eq.mp this).symm
  · rintro rfl
    cases level <;> decide

end Level
end TreeVisit
