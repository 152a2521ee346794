import TreeVisit.Program
import TreeVisit.Proofs.SortedMap

/- What a listing of nodes declares. The last node that binds a name decides its type, and does so by
   what the nodes before it declare; so no scan and no map is needed to say what is declared. The
   checker that scans the nodes in order knows just that. -/
namespace TreeVisit

variable {μ : Type}

def Node.bound? (n : Node μ) : Option (String × Node μ) :=
  if n.kind = "let" then
    match n.text?, n.children with
    | some name, value :: _ => some (name, value)
    | _, _ => none
  else none

def Node.typeAmong (known : String → Option Ty) (n : Node μ) : Ty :=
  match n.kind, n.text? with
  | "num", _ => .number
  | "str", _ => .string
  | "bool", _ => .boolean
  | "ident", some name => (known name).getD .unknown
  | _, _ => .unknown

/-- The type at which nodes declare a name. The list has the last of them first. -/
def declared? : List (Node μ) → String → Option Ty
  | [], _ => none
  | n :: before, name =>
    match n.bound? with
    | some (bound, value) =>
      if bound = name then some (value.typeAmong (declared? before)) else declared? before name
    | none => declared? before name

theorem declared?_append {before : List (Node μ)} {name : String}
    (known : (declared? before name).isSome = true) (later : List (Node μ)) :
    (declared? (later ++ before) name).isSome = true := by
  induction later with
  | nil => exact known
  | cons n rest ih =>
    rw [List.cons_append, declared?]
    split
    · split
      · rfl
      · exact ih
    · exact ih

namespace Checker

/-- The checker finds under every name what the nodes declare. -/
def Knows (c : Checker) (before : List (Node μ)) : Prop :=
  ∀ name, c.declaration? name = declared? before name

theorem knows_empty : (∅ : Checker).Knows ([] : List (Node μ)) := by
  intro name
  rfl

theorem typeOf_eq (c : Checker) (n : Node μ) : c.typeOf n = n.typeAmong c.declaration? := by
  unfold typeOf Node.typeAmong
  by_cases num : n.kind = "num"
  · simp [num]
  by_cases str : n.kind = "str"
  · simp [str]
  by_cases bool : n.kind = "bool"
  · simp [bool]
  by_cases ident : n.kind = "ident"
  · cases text : n.text? with
    | none => simp [ident]
    | some name => simp [ident]
  · simp [num, str, bool, ident]

variable {c : Checker} {before : List (Node μ)}

theorem Knows.typeOf (knows : c.Knows before) (n : Node μ) :
    c.typeOf n = n.typeAmong (declared? before) := by
  rw [typeOf_eq, funext knows]

theorem scanNode_eq (c : Checker) (n : Node μ) :
    c.scanNode n = match n.bound? with
      | some (name, value) => ⟨c.declarations.insert name (c.typeOf value)⟩
      | none => c := by
  cases n with
  | mk m k t cs =>
    by_cases isLet : k = "let"
    · cases t <;> cases cs <;> simp [scanNode, Node.isKind, Node.bound?, Node.child?, isLet]
    · simp [scanNode, Node.isKind, Node.bound?, isLet]

theorem Knows.scanNode (knows : c.Knows before) (n : Node μ) : (c.scanNode n).Knows (n :: before) := by
  intro name
  rw [scanNode_eq, declared?]
  cases n.bound? with
  | none => exact knows name
  | some found =>
    obtain ⟨bound, value⟩ := found
    simp only [declaration?, SortedMap.get?_insert, knows.typeOf value]
    rw [← knows name]
    rfl

theorem Knows.foldl (knows : c.Knows before) (ns : List (Node μ)) :
    (ns.foldl Checker.scanNode c).Knows (ns.reverse ++ before) := by
  induction ns generalizing c before with
  | nil => exact knows
  | cons n rest ih =>
    rw [List.foldl_cons, List.reverse_cons, List.append_assoc]
    exact ih (knows.scanNode n)

theorem Knows.scan (knows : c.Knows before) (root : Node μ) :
    (c.scan root).Knows (root.preorder.reverse ++ before) := by
  have listed : root.descendants = root.preorder := by
    rw [Node.descendants, Node.listing_eq_preorders, Node.preorders, Node.preorders, List.append_nil]
  rw [Checker.scan, listed]
  exact knows.foldl root.preorder

end Checker
end TreeVisit
