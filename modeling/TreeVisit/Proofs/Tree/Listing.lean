import TreeVisit.Proofs.Tree.Spots

/- The iterator over the nodes of a tree. At any time the trees that it has pending are a forest whose
   listing is still to come, so it gives the pre-order of the tree and ends when as many nodes are
   given as the tree has. A way is the numbers of the children that lead from the root to a place; the
   iterator goes through all ways in lexicographic order and gives what stands at the end of each. -/
namespace TreeVisit.Node

universe u
variable {μ : Type u}

/-- The iterator gives these nodes one after another and is left with these trees pending. -/
inductive Yields : List (Node μ) → List (Node μ) → List (Node μ) → Prop
  | nothing {pending} : Yields pending [] pending
  | next {pending n rest items later} (step : next? pending = some (n, rest))
      (onwards : Yields rest items later) : Yields pending (n :: items) later

variable {n : Node μ} {pending rest items later : List (Node μ)}

theorem preorders_eq_flatMap (ns : List (Node μ)) : preorders ns = ns.flatMap descendants := by
  induction ns with
  | nil => rfl
  | cons n rest ih => rw [preorders, ih, ← descendants_eq_preorder, List.flatMap_cons]

theorem next?_eq_none_iff : next? pending = none ↔ pending = [] := by
  cases pending <;> simp [next?]

theorem preorders_next (step : next? pending = some (n, rest)) :
    preorders pending = n :: preorders rest := by
  cases pending with
  | nil => nomatch step
  | cons m others =>
    obtain ⟨rfl, rfl⟩ := Prod.mk.inj (Option.some.inj step)
    rw [preorders, preorder_eq_cons, preorders_append, List.cons_append]

theorem Yields.preorders_eq (yields : Yields pending items later) :
    preorders pending = items ++ preorders later := by
  induction yields with
  | nothing => rfl
  | next step _ ih => rw [preorders_next step, ih, List.cons_append]

theorem exists_yields (split : preorders pending = items ++ rest) :
    ∃ later, Yields pending items later := by
  induction items generalizing pending with
  | nil => exact ⟨pending, .nothing⟩
  | cons n items ih =>
    cases step : next? pending with
    | none =>
      rw [next?_eq_none_iff.mp step] at split
      nomatch split
    | some given =>
      obtain ⟨m, others⟩ := given
      rw [preorders_next step, List.cons_append] at split
      obtain ⟨rfl, behind⟩ := List.cons.inj split
      obtain ⟨later, onwards⟩ := ih behind
      exact ⟨later, .next step onwards⟩

theorem exists_yields_iff : (∃ later, Yields [n] items later) ↔ items <+: n.descendants := by
  have alone : preorders [n] = n.descendants := by
    rw [preorders_eq_flatMap, List.flatMap_singleton]
  constructor
  · rintro ⟨later, yields⟩
    exact ⟨preorders later, by rw [← alone, yields.preorders_eq]⟩
  · rintro ⟨rest, split⟩
    exact exists_yields (alone.trans split.symm)

theorem Yields.ends_iff (yields : Yields [n] items later) :
    next? later = none ↔ items.length = n.size := by
  have counted := congrArg List.length yields.preorders_eq
  rw [List.length_append, length_preorders, length_preorders, sizes, sizes, Nat.add_zero] at counted
  rw [next?_eq_none_iff]
  constructor
  · rintro rfl
    simpa [sizes] using counted.symm
  · intro all
    cases later with
    | nil => rfl
    | cons m others =>
      have positive := m.size_pos
      rw [sizes] at counted
      omega

theorem descendants_eq_cons (n : Node μ) : n.descendants = n :: n.children.flatMap descendants := by
  rw [descendants_eq_preorder, preorder_eq_cons, preorders_eq_flatMap]

def at? (n : Node μ) : List Nat → Option (Node μ)
  | [] => some n
  | i :: way => n.children[i]?.bind fun c => c.at? way

def among? (ns : List (Node μ)) : List Nat → Option (Node μ)
  | [] => none
  | i :: way => ns[i]?.bind fun c => c.at? way

mutual

/-- The ways to all places of a tree, a way before those that go on from its end. -/
def ways : Node μ → List (List Nat)
  | mk _ _ _ cs => [] :: waysFrom 0 cs

def waysFrom (i : Nat) : List (Node μ) → List (List Nat)
  | [] => []
  | c :: rest => c.ways.map (i :: ·) ++ waysFrom (i + 1) rest

end

theorem ways_eq (n : Node μ) : n.ways = [] :: waysFrom 0 n.children := by
  cases n
  rfl

theorem waysFrom_cons (i : Nat) (n : Node μ) (rest : List (Node μ)) :
    waysFrom i (n :: rest) = n.ways.map (i :: ·) ++ waysFrom (i + 1) rest := rfl

theorem exists_of_mem_waysFrom {i : Nat} {ns : List (Node μ)} {way : List Nat}
    (member : way ∈ waysFrom i ns) : ∃ j onwards, way = j :: onwards ∧ i ≤ j := by
  induction ns generalizing i with
  | nil => nomatch member
  | cons n rest ih =>
    rcases List.mem_append.mp member with here | behind
    · obtain ⟨onwards, _, rfl⟩ := List.mem_map.mp here
      exact ⟨i, onwards, rfl, Nat.le_refl i⟩
    · obtain ⟨j, onwards, rfl, after⟩ := ih behind
      exact ⟨j, onwards, rfl, Nat.le_of_succ_le after⟩

theorem map_at?_ways (n : Node μ)
    (below : (waysFrom 0 n.children).map (among? n.children) = (preorders n.children).map some) :
    n.ways.map n.at? = n.preorder.map some := by
  have entered : (waysFrom 0 n.children).map n.at? = (waysFrom 0 n.children).map (among? n.children) := by
    apply List.map_congr_left
    intro way member
    obtain ⟨i, onwards, rfl, _⟩ := exists_of_mem_waysFrom member
    rfl
  rw [ways_eq, List.map_cons, entered, below, preorder_eq_cons, List.map_cons]
  rfl

theorem among?_skip (before rest : List (Node μ)) (n : Node μ) (way : List Nat) :
    among? (before ++ n :: rest) (before.length :: way) = n.at? way := by
  simp [among?]

theorem map_among?_waysFrom (before ns : List (Node μ)) :
    (waysFrom before.length ns).map (among? (before ++ ns)) = (preorders ns).map some := by
  induction ns using forest_induction generalizing before with
  | nil => rfl
  | cons n rest below later =>
    have first : (n.ways.map (before.length :: ·)).map (among? (before ++ n :: rest)) =
        n.preorder.map some := by
      rw [List.map_map, ← map_at?_ways n (below [])]
      exact List.map_congr_left fun way _ => among?_skip before rest n way
    have others := later (before ++ [n])
    rw [List.length_append, List.append_assoc] at others
    rw [waysFrom_cons, List.map_append, first, preorders, List.map_append]
    exact congrArg _ others

theorem map_ways (n : Node μ) : n.ways.map n.at? = n.descendants.map some := by
  rw [descendants_eq_preorder]
  exact map_at?_ways n (map_among?_waysFrom [] n.children)

theorem mem_waysFrom {i j : Nat} {ns : List (Node μ)} {way : List Nat} (found : ns[j]? = some n)
    (member : way ∈ n.ways) : (i + j) :: way ∈ waysFrom i ns := by
  induction ns generalizing i j with
  | nil => nomatch found
  | cons m rest ih =>
    rw [waysFrom_cons, List.mem_append]
    cases j with
    | zero =>
      cases found
      exact .inl (List.mem_map_of_mem member)
    | succ j =>
      have behind := ih (i := i + 1) found
      rw [Nat.add_right_comm] at behind
      exact .inr behind

theorem mem_ways_iff {way : List Nat} : way ∈ n.ways ↔ (n.at? way).isSome = true := by
  constructor
  · intro member
    have listed : n.at? way ∈ n.descendants.map some := map_ways n ▸ List.mem_map_of_mem member
    obtain ⟨m, _, found⟩ := List.mem_map.mp listed
    rw [← found]
    rfl
  · intro leads
    induction way generalizing n with
    | nil => exact ways_eq n ▸ List.mem_cons_self
    | cons i way ih =>
      obtain ⟨m, found⟩ := Option.isSome_iff_exists.mp leads
      obtain ⟨c, child, onwards⟩ := Option.bind_eq_some_iff.mp found
      have below := mem_waysFrom (i := 0) child (ih (Option.isSome_iff_exists.mpr ⟨m, onwards⟩))
      rw [Nat.zero_add] at below
      exact ways_eq n ▸ List.mem_cons_of_mem _ below

theorem ascending_ways_of (below : (waysFrom 0 n.children).Pairwise (· < ·)) :
    n.ways.Pairwise (· < ·) := by
  rw [ways_eq]
  refine List.pairwise_cons.mpr ⟨?_, below⟩
  intro way member
  obtain ⟨i, onwards, rfl, _⟩ := exists_of_mem_waysFrom member
  exact List.Lex.nil

theorem ascending_waysFrom (i : Nat) (ns : List (Node μ)) : (waysFrom i ns).Pairwise (· < ·) := by
  induction ns using forest_induction generalizing i with
  | nil => exact List.Pairwise.nil
  | cons n rest below later =>
    have inside : n.ways.Pairwise (· < ·) := ascending_ways_of (below 0)
    rw [waysFrom_cons, List.pairwise_append, List.pairwise_map]
    refine ⟨inside.imp List.Lex.cons, later (i + 1), ?_⟩
    intro way member way' member'
    obtain ⟨onwards, _, rfl⟩ := List.mem_map.mp member
    obtain ⟨j, onwards', rfl, after⟩ := exists_of_mem_waysFrom member'
    exact List.Lex.rel after

theorem ascending_ways (n : Node μ) : n.ways.Pairwise (· < ·) :=
  ascending_ways_of (ascending_waysFrom 0 n.children)

theorem count_descendants [DecidableEq μ] (n m : Node μ) :
    n.descendants.count m = n.ways.countP fun way => n.at? way = some m := by
  have stands : (n.ways.countP fun way => n.at? way = some m) =
      (n.ways.map n.at?).countP fun found => found = some m := by
    rw [List.countP_map]
    rfl
  rw [stands, map_ways, List.countP_map, List.count]
  apply List.countP_congr
  intro listed _
  simp

/-- What the iterator has given at any time, together with the listings of the trees that it has
    pending, is the pre-order of the tree: the node itself, then the listing of each child. The iterator
    can always go on to the end of it, which is reached with as many nodes as the tree has. Along the
    ways in lexicographic order each place is listed once, whatever stands there, and so a node that is
    shared is listed once for each of its places. -/
theorem descendants_list_each_place (n : Node μ) :
    n.descendants = n :: n.children.flatMap descendants ∧
    n.descendants.length = n.size ∧
    (∀ items, (∃ later, Yields [n] items later) ↔ items <+: n.descendants) ∧
    (∀ items later, Yields [n] items later →
      n.descendants = items ++ later.flatMap descendants ∧
      (next? later = none ↔ items.length = n.size)) ∧
    n.ways.map n.at? = n.descendants.map some ∧
    (∀ way, way ∈ n.ways ↔ (n.at? way).isSome = true) ∧
    n.ways.Pairwise (· < ·) ∧
    ∀ [DecidableEq μ] (m : Node μ),
      n.descendants.count m = n.ways.countP fun way => n.at? way = some m := by
  refine ⟨descendants_eq_cons n, length_descendants n, ?_, ?_, map_ways n, ?_, ascending_ways n, ?_⟩
  · intro items
    exact exists_yields_iff
  · intro items later yields
    have split := yields.preorders_eq
    rw [preorders_eq_flatMap, preorders_eq_flatMap, List.flatMap_singleton] at split
    exact ⟨split, yields.ends_iff⟩
  · intro way
    exact mem_ways_iff
  · intro _ m
    exact count_descendants n m

theorem shared_leaf_comes_again :
    let leaf : Node Nat := mk 1 "x" none []
    let inner : Node Nat := mk 2 "g" none [leaf]
    let root : Node Nat := mk 0 "f" none [leaf, inner]
    Yields [root] [root, leaf] [inner] ∧ root.descendants = [root, leaf] ++ [inner].flatMap descendants ∧
      root.descendants.count leaf = 2 ∧ next? [inner] ≠ none := by
  intro leaf inner root
  have yields : Yields [root] [root, leaf] [inner] := .next rfl (.next rfl .nothing)
  obtain ⟨_, _, _, run, _, _, _, places⟩ := descendants_list_each_place root
  obtain ⟨split, ends⟩ := run _ _ yields
  refine ⟨yields, split, ?_, ?_⟩
  · rw [places leaf]
    decide
  · rw [Ne, ends]
    decide

end TreeVisit.Node
