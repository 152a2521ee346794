/- Syntax trees. A node has a kind, perhaps a text, and ordered children; it also carries a mark,
   by which two nodes of one structure are told apart. A shape is a tree without marks. -/
namespace TreeVisit

universe u v

inductive Node (μ : Type u) where
  | mk (mark : μ) (kind : String) (text? : Option String) (children : List (Node μ))

abbrev Shape := Node Unit

namespace Node
variable {μ : Type u} {ν : Type v}

def mark : Node μ → μ
  | mk m _ _ _ => m

def kind : Node μ → String
  | mk _ k _ _ => k

def text? : Node μ → Option String
  | mk _ _ t _ => t

def children : Node μ → List (Node μ)
  | mk _ _ _ cs => cs

instance [Inhabited μ] : Inhabited (Node μ) := ⟨mk default "" none []⟩

def isLeaf (n : Node μ) : Bool := n.children.isEmpty
def isKind (n : Node μ) (kind : String) : Bool := n.kind == kind
def child? (n : Node μ) (i : Nat) : Option (Node μ) := n.children[i]?

def withChildren (n : Node μ) (mark : μ) (children : List (Node μ)) : Node μ :=
  mk mark n.kind n.text? children

@[simp] theorem mark_mk (m : μ) (k t cs) : (mk m k t cs).mark = m := rfl
@[simp] theorem kind_mk (m : μ) (k t cs) : (mk m k t cs).kind = k := rfl
@[simp] theorem text?_mk (m : μ) (k t cs) : (mk m k t cs).text? = t := rfl
@[simp] theorem children_mk (m : μ) (k t cs) : (mk m k t cs).children = cs := rfl

theorem eta (n : Node μ) : mk n.mark n.kind n.text? n.children = n := by cases n; rfl

mutual

def size : Node μ → Nat
  | mk _ _ _ cs => 1 + sizes cs

def sizes : List (Node μ) → Nat
  | [] => 0
  | c :: rest => c.size + sizes rest

end

mutual

def mapMarks (f : μ → ν) : Node μ → Node ν
  | mk m k t cs => mk (f m) k t (mapMarksAll f cs)

def mapMarksAll (f : μ → ν) : List (Node μ) → List (Node ν)
  | [] => []
  | c :: rest => c.mapMarks f :: mapMarksAll f rest

end

def isEmpty (n : Node μ) : Bool := n.size == 0

/-- The structure of a tree; trees are structurally equal when their shapes are equal. -/
def shape (n : Node μ) : Shape := n.mapMarks fun _ => ()

mutual

def decEq [DecidableEq μ] : (a b : Node μ) → Decidable (a = b)
  | mk m k t cs, mk m' k' t' cs' =>
    if hm : m = m' then
      if hk : k = k' then
        if ht : t = t' then
          match decEqAll cs cs' with
          | isTrue h => isTrue (by rw [hm, hk, ht, h])
          | isFalse h => isFalse fun same => h (by injection same)
        else isFalse fun same => ht (by injection same)
      else isFalse fun same => hk (by injection same)
    else isFalse fun same => hm (by injection same)

def decEqAll [DecidableEq μ] : (as bs : List (Node μ)) → Decidable (as = bs)
  | [], [] => isTrue rfl
  | [], _ :: _ => isFalse nofun
  | _ :: _, [] => isFalse nofun
  | a :: as, b :: bs =>
    match decEq a b with
    | isFalse h => isFalse fun same => h (by injection same)
    | isTrue h =>
      match decEqAll as bs with
      | isTrue h' => isTrue (by rw [h, h'])
      | isFalse h' => isFalse fun same => h' (by injection same)

end

instance [DecidableEq μ] : DecidableEq (Node μ) := decEq

theorem size_pos (n : Node μ) : 0 < n.size := by
  cases n
  simp only [size]
  omega

theorem size_le_sizes {c : Node μ} {cs : List (Node μ)} (member : c ∈ cs) : c.size ≤ sizes cs := by
  induction cs with
  | nil => nomatch member
  | cons d rest ih =>
    simp only [sizes]
    rcases List.mem_cons.mp member with rfl | later
    · omega
    · have := ih later
      omega

theorem size_lt_of_mem_children {n c : Node μ} (member : c ∈ n.children) : c.size < n.size := by
  cases n
  have := size_le_sizes member
  simp only [size, children_mk] at this ⊢
  omega

theorem length_le_sizes (cs : List (Node μ)) : cs.length ≤ sizes cs := by
  induction cs with
  | nil => exact Nat.le_refl 0
  | cons c rest ih =>
    have := c.size_pos
    simp only [sizes, List.length_cons]
    omega

theorem sizes_append (as bs : List (Node μ)) : sizes (as ++ bs) = sizes as + sizes bs := by
  induction as with
  | nil => simp [sizes]
  | cons a rest ih =>
    simp only [List.cons_append, sizes, ih]
    omega

theorem mapMarksAll_eq_map (f : μ → ν) (cs : List (Node μ)) :
    mapMarksAll f cs = cs.map (mapMarks f) := by
  induction cs with
  | nil => rfl
  | cons c rest ih => simp [mapMarksAll, ih]

end Node
end TreeVisit
