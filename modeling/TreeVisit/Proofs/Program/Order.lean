import TreeVisit.Proofs.Program.Additions

/- Units that keep out of each other's way. A listing of nodes reads what came before it only where it
   takes the type of an identifier, so units of which none declares what another one declares or takes
   a type from declare together just what each declares alone, in whatever order they come. -/
namespace TreeVisit

section
variable {μ : Type}

def boundNames (ns : List (Node μ)) : List String :=
  ns.filterMap fun n => n.bound?.map (·.1)

/-- The names of the identifiers that the nodes declare something at the type of. -/
def borrowedNames (ns : List (Node μ)) : List String :=
  ns.filterMap fun n => n.bound?.bind fun binding =>
    if binding.2.kind = "ident" then binding.2.text? else none

theorem mem_borrowedNames {ns : List (Node μ)} {name : String} :
    name ∈ borrowedNames ns ↔ ∃ n ∈ ns, ∃ bound value, n.bound? = some (bound, value) ∧
      value.kind = "ident" ∧ value.text? = some name := by
  simp [borrowedNames, Option.bind_eq_some_iff]

theorem declared?_isSome_iff {ns : List (Node μ)} {name : String} :
    (declared? ns name).isSome = true ↔ name ∈ boundNames ns := by
  induction ns with
  | nil => simp [declared?, boundNames]
  | cons n before ih =>
    unfold boundNames at ih ⊢
    rw [declared?, List.filterMap_cons]
    cases n.bound? with
    | none => exact ih
    | some binding =>
      obtain ⟨bound, value⟩ := binding
      by_cases here : bound = name
      · simp [here]
      · have apart : ¬name = bound := fun same => here same.symm
        simpa [here, apart] using ih

theorem Node.typeAmong_congr {known known' : String → Option Ty} (n : Node μ)
    (same : ∀ name, n.kind = "ident" → n.text? = some name → known name = known' name) :
    n.typeAmong known = n.typeAmong known' := by
  unfold Node.typeAmong
  split
  · rfl
  · rfl
  · rfl
  next ident text => rw [same _ ident text]
  · rfl

theorem declared?_apart {later before : List (Node μ)}
    (apart : ∀ name ∈ borrowedNames later, name ∉ boundNames before) (name : String) :
    declared? (later ++ before) name = (declared? later name).or (declared? before name) := by
  induction later generalizing name with
  | nil => rfl
  | cons n rest ih =>
    have below : ∀ other ∈ borrowedNames rest, other ∉ boundNames before := by
      intro other borrowed
      obtain ⟨m, member, binding⟩ := mem_borrowedNames.mp borrowed
      exact apart other (mem_borrowedNames.mpr ⟨m, List.mem_cons_of_mem n member, binding⟩)
    rw [List.cons_append, declared?, declared?]
    cases found : n.bound? with
    | none => exact ih below name
    | some binding =>
      obtain ⟨bound, value⟩ := binding
      have alone : value.typeAmong (declared? (rest ++ before)) = value.typeAmong (declared? rest) := by
        apply value.typeAmong_congr
        intro other ident text
        have borrowed : other ∈ borrowedNames (n :: rest) :=
          mem_borrowedNames.mpr ⟨n, List.mem_cons_self, bound, value, found, ident, text⟩
        have unknown := apart other borrowed
        rw [← declared?_isSome_iff, Option.not_isSome_iff_eq_none] at unknown
        rw [ih below other, unknown, Option.or_none]
      by_cases here : bound = name
      · simp [here, alone]
      · simp [here, ih below name]

end

/-- No unit declares a name that another unit declares or takes a type from. -/
def Independent (units : List NamedUnit) : Prop :=
  ∀ unit ∈ units, ∀ other ∈ units, unit.1 ≠ other.1 → ∀ name ∈ boundNames unit.2.preorder,
    name ∉ boundNames other.2.preorder ∧ name ∉ borrowedNames other.2.preorder

instance (units : List NamedUnit) : Decidable (Independent units) := by
  unfold Independent
  infer_instance

theorem mem_boundNames_backwards {units : List NamedUnit} {name : String} :
    name ∈ boundNames (backwards units) ↔ ∃ unit ∈ units, name ∈ boundNames unit.2.preorder := by
  simp only [boundNames, backwards, List.filterMap_reverse, List.mem_reverse, List.filterMap_flatMap,
    List.mem_flatMap]

theorem mem_borrowedNames_backwards {units : List NamedUnit} {name : String} :
    name ∈ borrowedNames (backwards units) ↔ ∃ unit ∈ units, name ∈ borrowedNames unit.2.preorder := by
  simp only [borrowedNames, backwards, List.filterMap_reverse, List.mem_reverse, List.filterMap_flatMap,
    List.mem_flatMap]

theorem Independent.declared_iff {units : List NamedUnit} (independent : Independent units)
    (distinct : (units.map (·.1)).Nodup) (name : String) (ty : Ty) :
    declared? (backwards units) name = some ty ↔
      ∃ unit ∈ units, declared? (backwards [unit]) name = some ty := by
  induction units with
  | nil => simp [backwards, declared?]
  | cons unit rest ih =>
    obtain ⟨fresh, distinct'⟩ := List.nodup_cons.mp distinct
    have independent' : Independent rest := by
      intro u member v member'
      exact independent u (List.mem_cons_of_mem unit member) v (List.mem_cons_of_mem unit member')
    have apart : ∀ other ∈ boundNames (backwards [unit]),
        other ∉ boundNames (backwards rest) ∧ other ∉ borrowedNames (backwards rest) := by
      intro other bound
      obtain ⟨_, here, bound⟩ := mem_boundNames_backwards.mp bound
      cases List.mem_singleton.mp here
      have kept_out {later : NamedUnit} (member : later ∈ rest) := by
        refine independent unit List.mem_cons_self later (List.mem_cons_of_mem unit member) ?_ other bound
        intro same
        apply fresh
        change unit.1 ∈ rest.map (·.1)
        rw [same]
        exact List.mem_map_of_mem member
      constructor
      · intro bound'
        obtain ⟨later, member, inside⟩ := mem_boundNames_backwards.mp bound'
        exact (kept_out member).1 inside
      · intro borrowed
        obtain ⟨later, member, inside⟩ := mem_borrowedNames_backwards.mp borrowed
        exact (kept_out member).2 inside
    have split : declared? (backwards (unit :: rest)) name =
        (declared? (backwards rest) name).or (declared? (backwards [unit]) name) := by
      rw [← List.singleton_append, backwards_append]
      apply declared?_apart
      intro other borrowed bound
      exact (apart other bound).2 borrowed
    rw [split, Option.or_eq_some_iff, ih independent' distinct']
    simp only [List.mem_cons, exists_eq_or_imp]
    constructor
    · rintro (later | ⟨_, first⟩)
      · exact Or.inr later
      · exact Or.inl first
    · rintro (first | later)
      · have bound : name ∈ boundNames (backwards [unit]) := by
          rw [← declared?_isSome_iff, first]
          rfl
        have unbound := (apart name bound).1
        rw [← declared?_isSome_iff, Option.not_isSome_iff_eq_none] at unbound
        exact Or.inr ⟨unbound, first⟩
      · exact Or.inl later

namespace Program

theorem Holds.accepted_eq {p : Program} {held units : List NamedUnit} (holds : p.Holds held)
    (distinct : ((held ++ units).map (·.1)).Nodup) : accepted units (p.addAll units).2 = units := by
  induction units generalizing p held with
  | nil => simp [accepted]
  | cons unit rest ih =>
    obtain ⟨name, root⟩ := unit
    have fresh : name ∉ held.map (·.1) := by
      intro taken
      rw [List.map_append, List.nodup_append] at distinct
      exact distinct.2.2 name taken name List.mem_cons_self rfl
    obtain ⟨event, next, added, grown⟩ := holds.accepts fresh root
    rw [List.append_cons] at distinct
    rw [Program.addAll, added]
    simp only [accepted, ih grown distinct]

theorem kept_eq {units : List NamedUnit} (distinct : (units.map (·.1)).Nodup) : kept units = units :=
  holds_empty.accepted_eq distinct

theorem holds_of_distinct {units : List NamedUnit} (distinct : (units.map (·.1)).Nodup) :
    ((∅ : Program).addAll units).1.Holds units := by
  have holds := holds_kept units
  rwa [kept_eq distinct] at holds

theorem Holds.unique {p p' : Program} {held held' : List NamedUnit} (holds : p.Holds held)
    (holds' : p'.Holds held') (reordered : held'.Perm held) (distinct : (held.map (·.1)).Nodup)
    (independent : Independent held) : p' = p := by
  have distinct' : (held'.map (·.1)).Nodup := ((reordered.map _).nodup_iff).mpr distinct
  have independent' : Independent held' := by
    intro unit member other member'
    exact independent unit (reordered.mem_iff.mp member) other (reordered.mem_iff.mp member')
  have units : p'.units = p.units := by
    apply SortedMap.ext_of_perm
    exact holds'.units.trans (reordered.trans holds.units.symm)
  have declarations : p'.checker.declarations = p.checker.declarations := by
    apply SortedMap.ext
    intro name
    apply Option.ext
    intro ty
    change p'.checker.declaration? name = some ty ↔ p.checker.declaration? name = some ty
    rw [holds.checker name, holds'.checker name, independent.declared_iff distinct,
      independent'.declared_iff distinct']
    constructor
    · rintro ⟨unit, member, alone⟩
      exact ⟨unit, reordered.mem_iff.mp member, alone⟩
    · rintro ⟨unit, member, alone⟩
      exact ⟨unit, reordered.mem_iff.mpr member, alone⟩
  obtain ⟨_, ⟨_⟩⟩ := p
  obtain ⟨_, ⟨_⟩⟩ := p'
  cases units
  cases declarations
  rfl

/-- Units under names of their own of which none declares what another one declares or takes a type
    from are all accepted and make the same program in every order: it has the same units and types all
    nodes alike. Each name has in it the type that some unit alone gives to it. -/
theorem order_leaves_no_trace (units others : List NamedUnit) (distinct : (units.map (·.1)).Nodup)
    (independent : Independent units) (reordered : others.Perm units) :
    let p := ((∅ : Program).addAll units).1
    let p' := ((∅ : Program).addAll others).1
    kept units = units ∧ kept others = others ∧ p' = p ∧
    p'.units.bindings = p.units.bindings ∧
    (∀ name, p'.checker.declaration? name = p.checker.declaration? name) ∧
    (∀ n : Tree, p'.checker.typeOf n = p.checker.typeOf n) ∧
    (∀ name root, p.units.get? name = some root ↔ (name, root) ∈ units) ∧
    ∀ name ty, p.checker.declaration? name = some ty ↔
      ∃ unit ∈ units, ((∅ : Program).addAll [unit]).1.checker.declaration? name = some ty := by
  intro p p'
  have distinct' : (others.map (·.1)).Nodup := ((reordered.map _).nodup_iff).mpr distinct
  have holds : p.Holds units := holds_of_distinct distinct
  have same : p' = p := holds.unique (holds_of_distinct distinct') reordered distinct independent
  refine ⟨kept_eq distinct, kept_eq distinct', same, ?_, ?_, ?_, ?_, ?_⟩
  · rw [same]
  · intro name
    rw [same]
  · intro n
    rw [same]
  · intro name root
    rw [← holds.units.mem_iff]
    exact Bindings.get?_eq_some_iff p.units.ascending
  · intro name ty
    rw [holds.checker name, independent.declared_iff distinct]
    have alone (unit : NamedUnit) :
        ((∅ : Program).addAll [unit]).1.checker.declaration? name = declared? (backwards [unit]) name :=
      (@holds_of_distinct [unit] (List.nodup_singleton unit.1)).checker name
    simp only [alone]

theorem aliased_units_in_both_orders :
    let declare (name : String) (value : Tree) : Tree := .mk (.given 0) "let" (some name) [value]
    let ident (name : String) : Tree := .mk (.given 1) "ident" (some name) []
    let main : NamedUnit := ("main", .mk (.given 2) "module" none
      [declare "x" (.mk (.given 3) "num" (some "1") []), declare "y" (ident "x")])
    let other : NamedUnit := ("other", .mk (.given 4) "module" none
      [declare "s" (ident "missing"), declare "s" (.mk (.given 5) "str" (some "a") [])])
    ([main, other].map (·.1)).Nodup ∧ Independent [main, other] ∧ [other, main].Perm [main, other] ∧
    ((∅ : Program).addAll [other, main]).1 = ((∅ : Program).addAll [main, other]).1 ∧
    ((∅ : Program).addAll [other, main]).1.checker.declaration? "y" = some .number := by
  intro declare ident main other
  have distinct : ([main, other].map (·.1)).Nodup := by decide
  have independent : Independent [main, other] := by decide +kernel
  have reordered : [other, main].Perm [main, other] := List.Perm.swap main other []
  have settled := order_leaves_no_trace [main, other] [other, main] distinct independent reordered
  obtain ⟨_, _, same, _, _, _, _, declared⟩ := settled
  refine ⟨distinct, independent, reordered, same, ?_⟩
  rw [same, declared]
  exact ⟨main, List.mem_cons_self, by decide +kernel⟩

example :
    let declare (name : String) (value : Tree) : Tree := .mk (.given 0) "let" (some name) [value]
    let lender : NamedUnit := ("lender", declare "x" (.mk (.given 1) "num" (some "1") []))
    let borrower : NamedUnit := ("borrower", declare "y" (.mk (.given 2) "ident" (some "x") []))
    ¬Independent [lender, borrower] ∧
    ((∅ : Program).addAll [lender, borrower]).1.checker.declaration? "y" = some .number ∧
    ((∅ : Program).addAll [borrower, lender]).1.checker.declaration? "y" = some .unknown := by
  decide +kernel

end Program
end TreeVisit
