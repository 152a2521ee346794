import TreeVisit.Decimal.Shortest
import TreeVisit.Document.Basic

/- The compact text of a document: no white space, members in key order, and of the characters of
   a text only the quote, the backslash and the controls below the space escaped. -/
namespace TreeVisit.Document

/-- Numbers are positional from 0.00001 up to but not including 10^16. -/
def floatStyle : Decimal.FloatStyle := ⟨-4, 16⟩

def floatChars (x : Float) : List Char := floatStyle.chars x

def intChars : Int → List Char
  | .ofNat n => Nat.toDigits 10 n
  | .negSucc n => '-' :: Nat.toDigits 10 (n + 1)

def hexPair (n : Nat) : List Char := [Nat.digitChar (n / 16), Nat.digitChar (n % 16)]

def escapedChar (c : Char) : List Char :=
  if c = '"' then ['\\', '"']
  else if c = '\\' then ['\\', '\\']
  else if c.toNat = 0x08 then ['\\', 'b']
  else if c.toNat = 0x0C then ['\\', 'f']
  else if c = '\n' then ['\\', 'n']
  else if c = '\r' then ['\\', 'r']
  else if c = '\t' then ['\\', 't']
  else if c.toNat < 0x20 then '\\' :: 'u' :: '0' :: '0' :: hexPair c.toNat
  else [c]

def textChars (s : String) : List Char := '"' :: (s.toList.flatMap escapedChar ++ ['"'])

mutual

def chars : Document → List Char
  | null => ['n', 'u', 'l', 'l']
  | flag true => ['t', 'r', 'u', 'e']
  | flag false => ['f', 'a', 'l', 's', 'e']
  | int n => intChars n
  | float x => floatChars x
  | text s => textChars s
  | list [] => ['[', ']']
  | list (d :: rest) => '[' :: (d.chars ++ itemChars rest)
  | record [] => ['\x7b', '\x7d']
  | record ((key, d) :: rest) => '\x7b' :: (textChars key ++ ':' :: (d.chars ++ memberChars rest))

def itemChars : List Document → List Char
  | [] => [']']
  | d :: rest => ',' :: (d.chars ++ itemChars rest)

def memberChars : List (String × Document) → List Char
  | [] => ['\x7d']
  | (key, d) :: rest => ',' :: (textChars key ++ ':' :: (d.chars ++ memberChars rest))

end

def print (d : Document) : String := String.ofList d.chars

end TreeVisit.Document
