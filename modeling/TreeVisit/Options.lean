import TreeVisit.Fault

/- Options of the compiler that a session of passes runs in. -/
namespace TreeVisit

structure Options where
  target : String
  module? : Option String
  strict : Bool
  removeComments : Bool
  deriving DecidableEq, Repr

namespace Options

instance : Inhabited Options := ⟨⟨"es2020", none, true, false⟩⟩

def recordType : RecordType Options where
  name := "CompilerOptions"
  start := default
  fields := [
    ⟨"target", false, fun d o => do return { o with target := ← decode d }⟩,
    ⟨"module", false, fun d o => do return { o with module? := ← decode d }⟩,
    ⟨"strict", false, fun d o => do return { o with strict := ← decode d }⟩,
    ⟨"removeComments", false, fun d o => do return { o with removeComments := ← decode d }⟩]

instance : Decode Options := ⟨recordType.decode⟩

def toDocument (o : Options) : Document :=
  .ofMembers [
    ("target", .text o.target),
    ("module", match o.module? with | some m => .text m | none => .null),
    ("strict", .flag o.strict),
    ("removeComments", .flag o.removeComments)]

end Options
end TreeVisit
