import TreeVisit.Tree.Basic

/- The nodes of a tree with every node before its descendants and siblings from left to right,
   once by recursion and once by a walk that keeps the nodes still to be listed. -/
namespace TreeVisit.Node

universe u
variable {μ : Type u}

mutual

def preorder : Node μ → List (Node μ)
  | mk m k t cs => mk m k t cs :: preorders cs

def preorders : List (Node μ) → List (Node μ)
  | [] => []
  | c :: rest => c.preorder ++ preorders rest

end

/-- The first pending node is listed; its children come before all others that are pending. -/
def next? : List (Node μ) → Option (Node μ × List (Node μ))
  | [] => none
  | n :: rest => some (n, n.children ++ rest)

theorem sizes_next {pending rest : List (Node μ)} {n : Node μ}
    (step : next? pending = some (n, rest)) : sizes rest < sizes pending := by
  cases pending with
  | nil => nomatch step
  | cons m others =>
    obtain ⟨rfl, rfl⟩ := Prod.mk.inj (Option.some.inj step)
    cases m
    simp only [children_mk, sizes_append, sizes, size]
    omega

def listing (pending : List (Node μ)) : List (Node μ) :=
  match _step : next? pending with
  | none => []
  | some (n, rest) => n :: listing rest
termination_by sizes pending
decreasing_by exact sizes_next _step

def descendants (n : Node μ) : List (Node μ) := listing [n]

theorem preorders_append (as bs : List (Node μ)) :
    preorders (as ++ bs) = preorders as ++ preorders bs := by
  induction as with
  | nil => rfl
  | cons a rest ih => simp [preorders, ih]

theorem listing_eq_preorders (pending : List (Node μ)) : listing pending = preorders pending := by
  fun_induction listing pending with
  | case1 pending done =>
    cases pending with
    | nil => rfl
    | cons n rest => nomatch done
  | case2 pending n rest step ih =>
    cases pending with
    | nil => nomatch step
    | cons m others =>
      obtain ⟨rfl, rfl⟩ := Prod.mk.inj (Option.some.inj step)
      cases m
      rw [ih, preorders_append]
      simp [preorders, preorder]

mutual

/-- Depth, kind and text of every node, in pre-order. -/
def outline (depth : Nat) : Node μ → List (Nat × String × Option String)
  | mk _ k t cs => (depth, k, t) :: outlines (depth + 1) cs

def outlines (depth : Nat) : List (Node μ) → List (Nat × String × Option String)
  | [] => []
  | c :: rest => c.outline depth ++ outlines depth rest

end

end TreeVisit.Node
