import TreeVisit.Proofs.Walk.Order

/- The places of a tree. A node that is shared stands at several places, so what happens to it at one
   of them is said of the place: places are numbered in pre-order, and each knows those above it. The
   listings of a tree can be read off its places. -/
namespace TreeVisit

universe u

structure Place (μ : Type u) where
  number : Nat
  node : Node μ

/-- A place with the places of its ancestors, the nearest first. -/
structure Spot (μ : Type u) extends Place μ where
  above : List (Place μ)

namespace Spot
variable {μ : Type u}

def depth (s : Spot μ) : Nat := s.above.length

def entry (s : Spot μ) : Nat × String × Option String := (s.depth, s.node.kind, s.node.text?)

end Spot

namespace Node
variable {μ : Type u}

mutual

def spotsFrom (above : List (Place μ)) (number : Nat) : Node μ → List (Spot μ)
  | mk m k t cs =>
    ⟨⟨number, mk m k t cs⟩, above⟩ :: spotsAll (⟨number, mk m k t cs⟩ :: above) (number + 1) cs

def spotsAll (above : List (Place μ)) (number : Nat) : List (Node μ) → List (Spot μ)
  | [] => []
  | c :: rest => c.spotsFrom above number ++ spotsAll above (number + c.size) rest

end

def spots (n : Node μ) : List (Spot μ) := n.spotsFrom [] 0

/-- What holds of the children of a tree and of the trees behind it holds of them all. -/
@[elab_as_elim]
theorem forest_induction {motive : List (Node μ) → Prop} (nil : motive [])
    (cons : ∀ n rest, motive n.children → motive rest → motive (n :: rest)) (ns : List (Node μ)) :
    motive ns := by
  induction size : sizes ns using Nat.strongRecOn generalizing ns with
  | ind bound smaller =>
    cases ns with
    | nil => exact nil
    | cons n rest =>
      have positive := n.size_pos
      cases n with
      | mk m k t cs =>
        simp only [sizes, Node.size] at size positive
        apply cons
        · exact smaller (sizes cs) (by omega) cs rfl
        · exact smaller (sizes rest) (by omega) rest rfl

theorem size_eq (n : Node μ) : n.size = 1 + sizes n.children := by
  cases n
  rfl

theorem spotsFrom_eq (above : List (Place μ)) (number : Nat) (n : Node μ) :
    n.spotsFrom above number =
      ⟨⟨number, n⟩, above⟩ :: spotsAll (⟨number, n⟩ :: above) (number + 1) n.children := by
  cases n
  rfl

@[simp] theorem spotsAll_nil (above : List (Place μ)) (number : Nat) :
    spotsAll above number ([] : List (Node μ)) = [] := rfl

theorem spotsAll_cons (above : List (Place μ)) (number : Nat) (n : Node μ) (rest : List (Node μ)) :
    spotsAll above number (n :: rest) =
      n.spotsFrom above number ++ spotsAll above (number + n.size) rest := rfl

theorem spots_eq_spotsAll (n : Node μ) : n.spots = spotsAll [] 0 [n] := by
  simp [spots, spotsAll]

@[simp] theorem outlines_nil (depth : Nat) : outlines depth ([] : List (Node μ)) = [] := rfl

theorem outlines_cons (depth : Nat) (n : Node μ) (rest : List (Node μ)) :
    outlines depth (n :: rest) =
      (depth, n.kind, n.text?) :: (outlines (depth + 1) n.children ++ outlines depth rest) := by
  cases n
  rfl

theorem outlines_append (depth : Nat) (ns ms : List (Node μ)) :
    outlines depth (ns ++ ms) = outlines depth ns ++ outlines depth ms := by
  induction ns with
  | nil => rfl
  | cons n rest ih => simp [outlines, ih]

theorem outline_eq_outlines (depth : Nat) (n : Node μ) : n.outline depth = outlines depth [n] := by
  simp [outlines]

theorem spotsAll_nodes (above : List (Place μ)) (number : Nat) (ns : List (Node μ)) :
    (spotsAll above number ns).map (·.node) = preorders ns := by
  induction ns using forest_induction generalizing above number with
  | nil => rfl
  | cons n rest below later =>
    simp [spotsAll_cons, spotsFrom_eq, preorders, preorder_eq_cons, below, later]

theorem spotsAll_entries (above : List (Place μ)) (number : Nat) (ns : List (Node μ)) :
    (spotsAll above number ns).map Spot.entry = outlines above.length ns := by
  induction ns using forest_induction generalizing above number with
  | nil => rfl
  | cons n rest below later =>
    simp [spotsAll_cons, spotsFrom_eq, outlines_cons, Spot.entry, Spot.depth, below, later]

theorem spots_entries (n : Node μ) : n.spots.map Spot.entry = n.outline 0 := by
  rw [spots_eq_spotsAll, spotsAll_entries, outline_eq_outlines]
  rfl

theorem outlines_atoms (depth : Nat) (ns : List (Node μ)) :
    (outlines depth ns).map (·.2) = (preorders ns).map fun n => (n.kind, n.text?) := by
  induction ns using forest_induction generalizing depth with
  | nil => rfl
  | cons n rest below later => simp [outlines_cons, preorders, preorder_eq_cons, below, later]

theorem length_preorders (ns : List (Node μ)) : (preorders ns).length = sizes ns := by
  induction ns using forest_induction with
  | nil => rfl
  | cons n rest below later =>
    simp only [preorders, preorder_eq_cons, sizes, List.length_append, List.length_cons, below, later,
      size_eq]
    omega

theorem length_descendants (n : Node μ) : n.descendants.length = n.size := by
  rw [descendants, listing_eq_preorders, length_preorders, sizes, sizes, Nat.add_zero]

theorem spotsAll_above (above : List (Place μ)) (number : Nat) (ns : List (Node μ)) :
    ∀ s ∈ spotsAll above number ns, above ⊆ s.above := by
  induction ns using forest_induction generalizing above number with
  | nil => simp
  | cons n rest below later =>
    simp only [spotsAll_cons, spotsFrom_eq, List.forall_mem_append, List.forall_mem_cons]
    refine ⟨⟨List.Subset.refl above, ?_⟩, later above _⟩
    intro s member
    exact List.subset_of_cons_subset (below _ _ s member)

theorem spotsAll_numbers (above : List (Place μ)) (number : Nat) (ns : List (Node μ)) :
    (spotsAll above number ns).map (·.number) = List.range' number (sizes ns) := by
  induction ns using forest_induction generalizing above number with
  | nil => rfl
  | cons n rest below later =>
    have split : sizes (n :: rest) = (1 + sizes n.children) + sizes rest := by
      simp only [sizes, size_eq]
    have first : number + n.size = number + 1 + sizes n.children := by
      rw [size_eq]
      omega
    simp only [spotsAll_cons, spotsFrom_eq, List.map_append, List.map_cons, below, later, split]
    rw [first, ← List.range'_append_1, ← List.range'_append_1]
    simp [List.range'_one, Nat.add_assoc]

theorem spotsAll_above_lt {above : List (Place μ)} {number : Nat}
    (earlier : ∀ a ∈ above, a.number < number) (ns : List (Node μ)) :
    ∀ s ∈ spotsAll above number ns, ∀ a ∈ s.above, a.number < s.number := by
  induction ns using forest_induction generalizing above number with
  | nil => simp
  | cons n rest below later =>
    have onwards : ∀ bound, number < bound → ∀ a ∈ above, a.number < bound := by
      intro bound further a member
      exact Nat.lt_trans (earlier a member) further
    simp only [spotsAll_cons, spotsFrom_eq, List.forall_mem_append, List.forall_mem_cons]
    refine ⟨⟨earlier, below ?_⟩, later (onwards _ (Nat.lt_add_of_pos_right n.size_pos))⟩
    exact List.forall_mem_cons.mpr ⟨Nat.lt_succ_self number, onwards _ (Nat.lt_succ_self number)⟩

end Node
end TreeVisit
