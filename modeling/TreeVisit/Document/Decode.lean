import TreeVisit.Decimal.Nearest
import TreeVisit.Document.Printer
import TreeVisit.SortedMap
import TreeVisit.Text.Quoted

/- Typed values from documents. Lists and maps stop at their first bad element; a record given by
   members reports the first bad member in key order and then the first missing field in the order
   of declaration, and ignores members that it does not know. -/
namespace TreeVisit

inductive DataError where
  | wrongKind (found expected : String)
  | outOfRange (found expected : String)
  | missingField (name : String)
  | unknownVariant (found : String) (known : List String)
  | wrongLength (length : Nat) (expected : String)
  deriving DecidableEq, Repr

namespace DataError

def ticked (name : String) : String := "`" ++ name ++ "`"

def message : DataError → String
  | wrongKind found expected => "invalid type: " ++ found ++ ", expected " ++ expected
  | outOfRange found expected => "invalid value: " ++ found ++ ", expected " ++ expected
  | missingField name => "missing field " ++ ticked name
  | unknownVariant found known =>
    "unknown variant " ++ ticked found ++ ", expected one of " ++
      ", ".intercalate (known.map ticked)
  | wrongLength length expected =>
    "invalid length " ++ toString length ++ ", expected " ++ expected

end DataError

namespace Document

def found : Document → String
  | null => "null"
  | flag true => "boolean `true`"
  | flag false => "boolean `false`"
  | int n => "integer " ++ DataError.ticked (String.ofList (intChars n))
  | float x => "floating point " ++ DataError.ticked (String.ofList (floatChars x))
  | text s => "string " ++ Text.quoted s
  | list _ => "sequence"
  | record _ => "map"

def mismatch {α : Type} (d : Document) (expected : String) : Except DataError α :=
  .error (.wrongKind d.found expected)

end Document

class Decode (α : Type) where
  decode : Document → Except DataError α

export Decode (decode)

instance : Decode Document := ⟨.ok⟩

instance : Decode Bool where
  decode
    | .flag b => .ok b
    | d => d.mismatch "a boolean"

instance : Decode String where
  decode
    | .text s => .ok s
    | d => d.mismatch "a string"

/-- Whole numbers are accepted as floats; floats never as whole numbers. -/
instance : Decode Float where
  decode
    | .float x => .ok x
    | .int n => .ok (Decimal.floatOfInt n)
    | d => d.mismatch "f64"

instance {α : Type} [Decode α] : Decode (Option α) where
  decode
    | .null => .ok none
    | d => (decode d).map some

instance {α : Type} [Decode α] : Decode (List α) where
  decode
    | .list items => items.mapM decode
    | d => d.mismatch "a sequence"

instance {α : Type} [Decode α] : Decode (SortedMap α) where
  decode
    | .record members => do
      let pairs ← members.mapM fun m => do return (m.1, ← decode m.2)
      return SortedMap.ofPairs pairs
    | d => d.mismatch "a map"

structure IntRange where
  name : String
  least : Int
  greatest : Int

namespace IntRange

def unsigned (bits : Nat) (name : String) : IntRange := ⟨name, 0, Int.pow 2 bits - 1⟩
def signed (bits : Nat) (name : String) : IntRange :=
  ⟨name, -Int.pow 2 (bits - 1), Int.pow 2 (bits - 1) - 1⟩

def u8 : IntRange := unsigned 8 "u8"
def u32 : IntRange := unsigned 32 "u32"
def u64 : IntRange := unsigned 64 "u64"
def usize : IntRange := unsigned 64 "usize"
def i64 : IntRange := signed 64 "i64"

def decode (range : IntRange) : Document → Except DataError Int
  | .int n =>
    if range.least ≤ n ∧ n ≤ range.greatest then .ok n
    else .error (.outOfRange (Document.int n).found range.name)
  | d => d.mismatch range.name

end IntRange

def camelCase (name : String) : String :=
  match name.toList with
  | [] => name
  | c :: rest => String.ofList (c.toLower :: rest)

/-- One of finitely many tagged values, given by its tag or by a record that maps the tag to null. -/
def decodeTagged {α : Type} (variants : List (String × α)) : Document → Except DataError α
  | .text tag => choose tag
  | .record [(tag, content)] => do
    let value ← choose tag
    match content with
    | .null => return value
    | d => d.mismatch "unit"
  | .record _ => .error (.outOfRange "map" "map with a single key")
  | d => d.mismatch "string or map"
where
  choose (tag : String) : Except DataError α :=
    match variants.lookup tag with
    | some value => .ok value
    | none => .error (.unknownVariant tag (variants.map (·.1)))

structure Field (α : Type) where
  name : String
  required : Bool
  set : Document → α → Except DataError α

structure RecordType (α : Type) where
  name : String
  start : α
  fields : List (Field α)

namespace RecordType
variable {α : Type}

def setMember (type : RecordType α) (value : α) (member : String × Document) :
    Except DataError α :=
  match type.fields.find? (·.name == member.1) with
  | some field => field.set member.2 value
  | none => .ok value

def ofMembers (type : RecordType α) (members : Bindings Document) : Except DataError α := do
  let value ← members.foldlM type.setMember type.start
  match type.fields.find? fun field => field.required && (Bindings.get? field.name members).isNone with
  | some field => .error (.missingField field.name)
  | none => return value

def ofItems (type : RecordType α) (items : List Document) : Except DataError α := do
  let value ← (type.fields.zip items).foldlM (fun value p => p.1.set p.2 value) type.start
  if (type.fields.drop items.length).any (·.required) then
    .error (.wrongLength items.length
      ("struct " ++ type.name ++ " with " ++ toString type.fields.length ++ " elements"))
  else if type.fields.length < items.length then
    .error (.wrongLength items.length "fewer elements in array")
  else return value

def decode (type : RecordType α) : Document → Except DataError α
  | .record members => type.ofMembers members
  | .list items => type.ofItems items
  | d => d.mismatch ("struct " ++ type.name)

end RecordType
end TreeVisit
