import TreeVisit.Config

/- What a visit may ask, by level. Every context holds the root of the tree that is walked and the
   options of the host as they were when the walk began; the levels add to that what was bound to
   the pass. -/
namespace TreeVisit

variable {ν ω χ π ο : Type}

structure BaseContext (ν ω : Type) where
  sourceFile : ν
  options : ω

structure ConfigContext (ν ω : Type) extends BaseContext ν ω where
  config : Config

structure CheckerContext (ν ω χ : Type) extends ConfigContext ν ω where
  checker : χ

structure ProgramContext (ν ω χ π : Type) extends CheckerContext ν ω χ where
  program : π

class Checked (π : Type) (χ : outParam Type) where
  checker : π → χ

namespace Level

/-- Bound options are accepted at one level, but its context is that of a configuration alone. -/
def Context (ν ω χ π : Type) : Level → Type
  | raw => BaseContext ν ω
  | config => ConfigContext ν ω
  | checker => CheckerContext ν ω χ
  | compilerOptions => ConfigContext ν ω
  | program => ProgramContext ν ω χ π

namespace Context

def base : {level : Level} → level.Context ν ω χ π → BaseContext ν ω
  | .raw, cx => cx
  | .config, cx => cx.toBaseContext
  | .checker, cx => cx.toBaseContext
  | .compilerOptions, cx => cx.toBaseContext
  | .program, cx => cx.toBaseContext

def config? : {level : Level} → level.Context ν ω χ π → Option Config
  | .raw, _ => none
  | .config, cx => some cx.config
  | .checker, cx => some cx.config
  | .compilerOptions, cx => some cx.config
  | .program, cx => some cx.config

def checker? : {level : Level} → level.Context ν ω χ π → Option χ
  | .raw, _ => none
  | .config, _ => none
  | .checker, cx => some cx.checker
  | .compilerOptions, _ => none
  | .program, cx => some cx.checker

def program? : {level : Level} → level.Context ν ω χ π → Option π
  | .raw, _ => none
  | .config, _ => none
  | .checker, _ => none
  | .compilerOptions, _ => none
  | .program, cx => some cx.program

end Context
end Level

inductive Args (χ π ο : Type) : Level → Type where
  | raw : Args χ π ο .raw
  | config (config : Config) : Args χ π ο .config
  | checker (checker : χ) (config : Config) : Args χ π ο .checker
  | compilerOptions (options : ο) (config : Config) : Args χ π ο .compilerOptions
  | program (program : π) (config : Config) : Args χ π ο .program

/-- The context of a level around its base. A program brings its own checker. -/
def Args.enrich [Checked π χ] : {level : Level} → Args χ π ο level → BaseContext ν ω →
    level.Context ν ω χ π
  | _, .raw, base => base
  | _, .config c, base => { base with config := c }
  | _, .checker checks c, base => { base with config := c, checker := checks }
  | _, .compilerOptions _ c, base => { base with config := c }
  | _, .program p c, base =>
    { base with config := c, checker := Checked.checker p, program := p }

end TreeVisit
