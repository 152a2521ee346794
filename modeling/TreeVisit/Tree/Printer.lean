import TreeVisit.Tree.Basic

/- The text of a tree: an atom `kind` or `kind:text` for a node without children, else the atom and
   the children in parentheses, one space before each child. -/
namespace TreeVisit.Node

universe u
variable {μ : Type u}

def atomChars (kind : String) : Option String → List Char
  | none => kind.toList
  | some text => kind.toList ++ ':' :: text.toList

mutual

def chars : Node μ → List Char
  | mk _ k t cs =>
    if cs.isEmpty then atomChars k t
    else '(' :: (atomChars k t ++ (tailChars cs ++ [')']))

def tailChars : List (Node μ) → List Char
  | [] => []
  | c :: rest => ' ' :: (c.chars ++ tailChars rest)

end

def print (n : Node μ) : String := String.ofList n.chars

def label (n : Node μ) : String := String.ofList (atomChars n.kind n.text?)

end TreeVisit.Node
