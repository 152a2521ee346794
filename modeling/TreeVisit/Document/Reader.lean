import TreeVisit.Decimal.Nearest
import TreeVisit.Document.Basic
import TreeVisit.Document.Fault
import TreeVisit.Text.Input

/- Reading a document from its text: one value with layout around it and nothing else. A reader of
   a piece returns what is left; where it refuses, it tells how many bytes are left behind the
   place that it reports, which is either the last byte consumed or the one byte looked at next. -/
namespace TreeVisit.Document

open Text

structure Stop where
  cause : SyntaxCause
  left : Nat
  deriving DecidableEq, Repr

abbrev Reader (α : Type) := (s : List Char) → Except Stop (α × Shorter s)

def stopAt {α : Type} (cause : SyntaxCause) (rest : List Char) : Except Stop α :=
  .error ⟨cause, byteLength rest⟩

def stopNext {α : Type} (cause : SyntaxCause) (rest : List Char) : Except Stop α :=
  .error ⟨cause, byteLength rest - 1⟩

def readWord : List Char → (s : List Char) → Except Stop (NotLonger s)
  | [], s => .ok ⟨s, Nat.le_refl _⟩
  | _ :: _, [] => stopAt .endInValue []
  | expected :: word, c :: rest =>
    if c = expected then do
      let ⟨behind, shorter⟩ ← readWord word rest
      return ⟨behind, by simp only [List.length_cons]; omega⟩
    else stopNext .expectedWord (c :: rest)

def hexValue? (c : Char) : Option Nat :=
  if '0' ≤ c ∧ c ≤ '9' then some (c.toNat - '0'.toNat)
  else if 'a' ≤ c ∧ c ≤ 'f' then some (c.toNat - 'a'.toNat + 10)
  else if 'A' ≤ c ∧ c ≤ 'F' then some (c.toNat - 'A'.toNat + 10)
  else none

/-- Where four digits are due but not present: four bytes are consumed, or all there are. -/
def refuseUnit {α : Type} (s : List Char) : Except Stop α :=
  if byteLength s < 4 then stopAt .endInText []
  else .error ⟨.invalidEscape, byteLength s - 4⟩

def readUnit (s : List Char) : Except Stop (Nat × NotLonger s) :=
  match s with
  | a :: b :: c :: d :: rest =>
    match hexValue? a, hexValue? b, hexValue? c, hexValue? d with
    | some i, some j, some k, some l =>
      .ok (((i * 16 + j) * 16 + k) * 16 + l, ⟨rest, by simp only [List.length_cons]; omega⟩)
    | _, _, _, _ => refuseUnit s
  | _ => refuseUnit s

def isLowSurrogate (unit : Nat) : Bool := 0xDC00 ≤ unit && unit ≤ 0xDFFF
def isHighSurrogate (unit : Nat) : Bool := 0xD800 ≤ unit && unit ≤ 0xDBFF

def readLowSurrogate (high : Nat) (s : List Char) : Except Stop (Char × NotLonger s) :=
  match s with
  | '\\' :: 'u' :: rest => do
    let (low, ⟨behind, shorter⟩) ← readUnit rest
    if isLowSurrogate low then
      return (Char.ofNat (0x10000 + (high - 0xD800) * 0x400 + (low - 0xDC00)),
        ⟨behind, by simp only [List.length_cons]; omega⟩)
    else stopAt .loneSurrogate behind
  | [] | ['\\'] => stopAt .endInText []
  | '\\' :: rest => stopNext .unfinishedSurrogate rest
  | _ => stopNext .unfinishedSurrogate s

def readUnicodeEscape (s : List Char) : Except Stop (Char × NotLonger s) := do
  let (unit, ⟨rest, shorter⟩) ← readUnit s
  if isLowSurrogate unit then stopAt .loneSurrogate rest
  else if isHighSurrogate unit then
    let (c, ⟨behind, shorter'⟩) ← readLowSurrogate unit rest
    return (c, ⟨behind, by omega⟩)
  else return (Char.ofNat unit, ⟨rest, shorter⟩)

def simpleEscape? (c : Char) : Option Char :=
  if c = '"' ∨ c = '\\' ∨ c = '/' then some c
  else if c = 'b' then some (Char.ofNat 0x08)
  else if c = 'f' then some (Char.ofNat 0x0C)
  else if c = 'n' then some '\n'
  else if c = 'r' then some '\r'
  else if c = 't' then some '\t'
  else none

def readEscape (s : List Char) : Except Stop (Char × NotLonger s) :=
  match s with
  | [] => stopAt .endInText []
  | 'u' :: rest => do
    let (c, ⟨behind, shorter⟩) ← readUnicodeEscape rest
    return (c, ⟨behind, by simp only [List.length_cons]; omega⟩)
  | c :: rest =>
    match simpleEscape? c with
    | some meant => .ok (meant, ⟨rest, by simp only [List.length_cons]; omega⟩)
    | none => stopNext .invalidEscape s

def readText (s : List Char) : Except Stop (List Char × Shorter s) :=
  match s with
  | [] => stopAt .endInText []
  | '"' :: rest => .ok ([], ⟨rest, by simp only [List.length_cons]; omega⟩)
  | '\\' :: rest => do
    let (c, ⟨behind, shorter⟩) ← readEscape rest
    let (cs, ⟨behind', shorter'⟩) ← readText behind
    return (c :: cs, ⟨behind', by simp only [List.length_cons]; omega⟩)
  | c :: rest =>
    if c.toNat < 0x20 then stopAt .controlCharacter rest
    else do
      let (cs, ⟨behind, shorter⟩) ← readText rest
      return (c :: cs, ⟨behind, by simp only [List.length_cons]; omega⟩)
termination_by s.length
decreasing_by all_goals simp only [List.length_cons]; omega

def isDigit (c : Char) : Bool := '0' ≤ c && c ≤ '9'

def readDigits (s : List Char) : List Nat × NotLonger s :=
  ((s.takeWhile isDigit).map fun c => c.toNat - '0'.toNat,
    ⟨s.dropWhile isDigit, length_dropWhile_le isDigit s⟩)

def significandLimit : Nat := Nat.pow 2 64 - 1
def exponentLimit : Nat := Nat.pow 2 31 - 1

def signed (negative : Bool) (x : Float) : Float := if negative then -x else x

def makeFloat (negative : Bool) (significand : Nat) (exponent : Int) (rest : List Char) :
    Except Stop Document :=
  match Decimal.floatOf? significand exponent with
  | some x => .ok (.float (signed negative x))
  | none => stopAt .numberOutOfRange rest

def readSign (s : List Char) : Bool × NotLonger s :=
  match s with
  | '+' :: rest => (true, ⟨rest, by simp only [List.length_cons]; omega⟩)
  | '-' :: rest => (false, ⟨rest, by simp only [List.length_cons]; omega⟩)
  | s => (true, ⟨s, Nat.le_refl _⟩)

/-- The exponent behind its letter. One that passes the limit makes the number zero, unless it is
    positive and a digit is not zero; then the refusal stands behind the digit that passes it. -/
def readExponent (negative : Bool) (significand : Nat) (exponent : Int) (s : List Char) :
    Except Stop (Document × NotLonger s) :=
  let (positive, ⟨unread, shorter⟩) := readSign s
  let (digits, ⟨rest, shorter'⟩) := readDigits unread
  if digits.isEmpty then
    if unread.isEmpty then stopAt .endInValue [] else stopNext .invalidNumber unread
  else
    let (power, left) := Decimal.gather exponentLimit 0 digits
    if left.isEmpty then do
      let total := if positive then exponent + power else exponent - power
      return (← makeFloat negative significand total rest, ⟨rest, by omega⟩)
    else if positive && significand != 0 then
      .error ⟨.numberOutOfRange, byteLength rest + (left.length - 1)⟩
    else .ok (.float (signed negative 0), ⟨rest, by omega⟩)

def readPower (negative : Bool) (significand : Nat) (exponent : Int) (s : List Char) :
    Except Stop (Document × NotLonger s) :=
  match s with
  | 'e' :: rest | 'E' :: rest => do
    let (d, ⟨behind, shorter⟩) ← readExponent negative significand exponent rest
    return (d, ⟨behind, by simp only [List.length_cons]; omega⟩)
  | s => do return (← makeFloat negative significand exponent s, ⟨s, Nat.le_refl _⟩)

/-- The digits behind the point. Those that do not fit are left out, as they count for less than
    the last place of the others. -/
def readFraction (negative : Bool) (significand : Nat) (exponent : Int) (s : List Char) :
    Except Stop (Document × NotLonger s) :=
  let (digits, ⟨rest, shorter⟩) := readDigits s
  if digits.isEmpty then
    if s.isEmpty then stopNext .endInValue [] else stopNext .invalidNumber s
  else do
    let (significand, left) := Decimal.gather significandLimit significand digits
    let places := digits.length - left.length
    let (d, ⟨behind, shorter'⟩) ← readPower negative significand (exponent - places) rest
    return (d, ⟨behind, by omega⟩)

/-- A whole number that fits 64 bits, unsigned or signed, is exact; minus zero is a float. -/
def wholeNumber (negative : Bool) (significand : Nat) : Document :=
  if !negative then .int significand
  else if significand = 0 || Nat.pow 2 63 < significand then .float (-Decimal.floatOfNat significand)
  else .int (-significand)

def readNumber (negative : Bool) (s : List Char) : Except Stop (Document × Shorter s) :=
  if none_taken : (s.takeWhile isDigit).isEmpty then
    if s.isEmpty then stopAt .endInValue [] else stopNext .invalidNumber s
  else
    have shorter := length_dropWhile_lt (Bool.not_eq_true _ ▸ none_taken)
    let digits := (readDigits s).1
    if digits.head? = some 0 && digits.length != 1 then stopNext .invalidNumber (s.drop 1)
    else
      let (significand, left) := Decimal.gather significandLimit 0 digits
      match _rest : s.dropWhile isDigit with
      | '.' :: more => do
        let (d, ⟨behind, shorter'⟩) ← readFraction negative significand left.length more
        return (d, ⟨behind, by
          rw [_rest, List.length_cons] at shorter
          omega⟩)
      | rest =>
        if left.isEmpty && !(rest.head? = some 'e' || rest.head? = some 'E') then
          .ok (wholeNumber negative significand, ⟨rest, by rw [← _rest]; exact shorter⟩)
        else do
          let (d, ⟨behind, shorter'⟩) ← readPower negative significand left.length rest
          return (d, ⟨behind, by
            rw [_rest] at shorter
            omega⟩)

def readItems (item : Reader Document) (s : List Char) :
    Except Stop (List Document × Shorter s) := do
  let (d, ⟨rest, shorter⟩) ← item s
  match _next : skipLayout rest with
  | ']' :: behind => return ([d], ⟨behind, by
      have := length_lt_of_skipLayout _next
      omega⟩)
  | ',' :: more =>
    if (skipLayout more).head? = some ']' then stopNext .trailingComma (skipLayout more)
    else
      have := length_lt_of_skipLayout _next
      let (ds, ⟨behind, shorter'⟩) ← readItems item more
      return (d :: ds, ⟨behind, by omega⟩)
  | [] => stopNext .endInList []
  | other => stopNext .expectedListEnd other
termination_by s.length
decreasing_by omega

def readList (item : Reader Document) (s : List Char) :
    Except Stop (List Document × Shorter s) :=
  match _next : skipLayout s with
  | [] => stopNext .endInList []
  | ']' :: rest => .ok ([], ⟨rest, length_lt_of_skipLayout _next⟩)
  | _ => readItems item s

def readMembers (item : Reader Document) (s : List Char) :
    Except Stop (List (String × Document) × Shorter s) := do
  let (key, ⟨rest, shorter⟩) ← readText s
  match _colon : skipLayout rest with
  | ':' :: unread =>
    let (d, ⟨rest', shorter'⟩) ← item unread
    have := length_lt_of_skipLayout _colon
    match _next : skipLayout rest' with
    | '\x7d' :: behind => return ([(String.ofList key, d)], ⟨behind, by
        have := length_lt_of_skipLayout _next
        omega⟩)
    | ',' :: more =>
      match _key : skipLayout more with
      | '"' :: unread' =>
        have := length_lt_of_skipLayout _next
        have := length_lt_of_skipLayout _key
        let (members, ⟨behind, shorter₂⟩) ← readMembers item unread'
        return ((String.ofList key, d) :: members, ⟨behind, by omega⟩)
      | '\x7d' :: behind => stopNext .trailingComma ('\x7d' :: behind)
      | [] => stopNext .endInValue []
      | other => stopNext .keyNotText other
    | [] => stopNext .endInRecord []
    | other => stopNext .expectedRecordEnd other
  | [] => stopNext .endInRecord []
  | other => stopNext .expectedColon other
termination_by s.length
decreasing_by omega

def readRecord (item : Reader Document) (s : List Char) :
    Except Stop (List (String × Document) × Shorter s) :=
  match _next : skipLayout s with
  | [] => stopNext .endInRecord []
  | '\x7d' :: rest => .ok ([], ⟨rest, length_lt_of_skipLayout _next⟩)
  | '"' :: rest => do
    let (members, ⟨behind, shorter⟩) ← readMembers item rest
    return (members, ⟨behind, by
      have := length_lt_of_skipLayout _next
      omega⟩)
  | other => stopNext .keyNotText other

def readValueWith (item? : Option (Reader Document)) : Reader Document := fun s =>
  match _next : skipLayout s with
  | [] => stopNext .endInValue []
  | c :: rest =>
    have shorter := length_lt_of_skipLayout _next
    let named (word : List Char) (d : Document) : Except Stop (Document × Shorter s) := do
      let ⟨behind, shorter'⟩ ← readWord word rest
      return (d, ⟨behind, by omega⟩)
    match c with
    | 'n' => named ['u', 'l', 'l'] .null
    | 't' => named ['r', 'u', 'e'] (.flag true)
    | 'f' => named ['a', 'l', 's', 'e'] (.flag false)
    | '"' => do
      let (cs, ⟨behind, shorter'⟩) ← readText rest
      return (.text (String.ofList cs), ⟨behind, by omega⟩)
    | '-' => do
      let (d, ⟨behind, shorter'⟩) ← readNumber true rest
      return (d, ⟨behind, by omega⟩)
    | '[' =>
      match item? with
      | none => stopNext .tooDeep (c :: rest)
      | some item => do
        let (ds, ⟨behind, shorter'⟩) ← readList item rest
        return (.list ds, ⟨behind, by omega⟩)
    | '\x7b' =>
      match item? with
      | none => stopNext .tooDeep (c :: rest)
      | some item => do
        let (members, ⟨behind, shorter'⟩) ← readRecord item rest
        return (ofMembers members, ⟨behind, by omega⟩)
    | c =>
      if isDigit c then do
        let (d, ⟨behind, shorter'⟩) ← readNumber false (c :: rest)
        return (d, ⟨behind, by
          simp only [List.length_cons] at shorter'
          omega⟩)
      else stopNext .expectedValue (c :: rest)

def readValue : (depth : Nat) → Reader Document
  | 0 => readValueWith none
  | depth + 1 => readValueWith (some (readValue depth))

def readChars (depth : Nat) (s : List Char) : Except Stop Document := do
  let (d, ⟨rest, _⟩) ← readValue depth s
  match skipLayout rest with
  | [] => return d
  | other => stopNext .trailingCharacters other

def position (bytes : List UInt8) : Nat × Nat :=
  let lineFeed : UInt8 := 10
  (bytes.count lineFeed + 1, (bytes.reverse.takeWhile (· != lineFeed)).length)

def Stop.locate (stop : Stop) (input : String) : SyntaxFault :=
  let (line, column) := position (input.toUTF8.toList.take (input.utf8ByteSize - stop.left))
  ⟨stop.cause, line, column⟩

def readWithin (depth : Nat) (input : String) : Except SyntaxFault Document :=
  (readChars depth input.toList).mapError (·.locate input)

def maxDepth : Nat := 127

def read (input : String) : Except SyntaxFault Document := readWithin maxDepth input

end TreeVisit.Document
