import TreeVisit.Proofs.Program.Declarations

/- Units that are added one after another. A unit is refused just when its name is taken, and then
   nothing changes; what the program holds at last is settled by the units that were accepted, its
   units by their names and its checker by the order in which they came. -/
namespace TreeVisit

abbrev NamedUnit := String × Tree

namespace Program

def receive (p : Program) (unit : NamedUnit) : Except DuplicateUnit Event × Program :=
  match add unit.1 unit.2 p with
  | .ok event next => (.ok event, next)
  | .error fault next => (.error fault, next)

def addAll (p : Program) : List NamedUnit → Program × List (Except DuplicateUnit Event)
  | [] => (p, [])
  | unit :: rest =>
    let (reply, next) := p.receive unit
    let (last, replies) := next.addAll rest
    (last, reply :: replies)

end Program

/-- The units that were not refused, in the order in which they were added. -/
def accepted : List NamedUnit → List (Except DuplicateUnit Event) → List NamedUnit
  | unit :: units, .ok _ :: replies => unit :: accepted units replies
  | _ :: units, .error _ :: replies => accepted units replies
  | _, _ => []

def backwards (units : List NamedUnit) : List (Node Mark) :=
  (units.flatMap fun unit => unit.2.preorder).reverse

theorem backwards_append (units others : List NamedUnit) :
    backwards (units ++ others) = backwards others ++ backwards units := by
  rw [backwards, List.flatMap_append, List.reverse_append]
  rfl

namespace Program

theorem add_eq (p : Program) (name : String) (root : Tree) :
    add name root p =
      if p.units.contains name = true then .error ⟨name⟩ p
      else .ok (.unitAdded name (p.checker.scan root).size)
        ⟨p.units.insert name root, p.checker.scan root⟩ := by
  unfold add
  change (if p.units.contains name = true then _ else _ : EStateM DuplicateUnit Program Event) p = _
  by_cases taken : p.units.contains name = true
  · rw [if_pos taken, if_pos taken]
    rfl
  · rw [if_neg taken, if_neg taken]
    rfl

variable {p : Program} {held : List NamedUnit}

/-- The program holds these units, and its checker knows what they declare in their order. -/
structure Holds (p : Program) (held : List NamedUnit) : Prop where
  units : p.units.bindings.Perm held
  checker : p.checker.Knows (backwards held)

theorem holds_empty : (∅ : Program).Holds [] where
  units := List.Perm.nil
  checker := Checker.knows_empty

theorem Holds.contains_iff (holds : p.Holds held) (name : String) :
    p.units.contains name = true ↔ name ∈ held.map (·.1) := by
  rw [SortedMap.contains_iff]
  exact (holds.units.map (·.1)).mem_iff

theorem Holds.refuses (holds : p.Holds held) {name : String} (taken : name ∈ held.map (·.1))
    (root : Tree) : p.receive (name, root) = (.error ⟨name⟩, p) := by
  rw [receive, add_eq, if_pos ((holds.contains_iff name).mpr taken)]

theorem Holds.accepts (holds : p.Holds held) {name : String} (fresh : name ∉ held.map (·.1))
    (root : Tree) :
    ∃ event next, p.receive (name, root) = (.ok event, next) ∧ next.Holds (held ++ [(name, root)]) := by
  have vacant : ¬ p.units.contains name = true := (holds.contains_iff name).not.mpr fresh
  refine ⟨.unitAdded name (p.checker.scan root).size,
    ⟨p.units.insert name root, p.checker.scan root⟩, ?_, ?_, ?_⟩
  · rw [receive, add_eq, if_neg vacant]
  · have absent : Bindings.get? name p.units.bindings = none := Option.not_isSome_iff_eq_none.mp vacant
    have inserted := (Bindings.insert_perm absent).trans (holds.units.cons (name, root))
    exact inserted.trans (List.perm_append_singleton _ _).symm
  · have scanned := holds.checker.scan root
    rw [backwards_append]
    simpa [backwards] using scanned

theorem Holds.addAll (holds : p.Holds held) (units : List NamedUnit) :
    (p.addAll units).1.Holds (held ++ accepted units (p.addAll units).2) := by
  induction units generalizing p held with
  | nil =>
    have none : accepted [] (p.addAll []).2 = [] := by simp [accepted]
    rw [none, List.append_nil]
    exact holds
  | cons unit rest ih =>
    obtain ⟨name, root⟩ := unit
    by_cases taken : name ∈ held.map (·.1)
    · rw [Program.addAll, holds.refuses taken root]
      exact ih holds
    · obtain ⟨event, next, added, grown⟩ := holds.accepts taken root
      have others := ih grown
      rw [List.append_assoc] at others
      rw [Program.addAll, added]
      exact others

theorem addAll_append (p : Program) (before after : List NamedUnit) :
    p.addAll (before ++ after) =
      (((p.addAll before).1.addAll after).1,
        (p.addAll before).2 ++ ((p.addAll before).1.addAll after).2) := by
  induction before generalizing p with
  | nil => rfl
  | cons unit rest ih => simp only [List.cons_append, addAll, ih]

theorem length_addAll (p : Program) (units : List NamedUnit) :
    (p.addAll units).2.length = units.length := by
  induction units generalizing p with
  | nil => rfl
  | cons unit rest ih => simp only [addAll, List.length_cons, ih]

theorem reply_addAll (p : Program) (before after : List NamedUnit) (unit : NamedUnit) :
    (p.addAll (before ++ unit :: after)).2[before.length]? =
      some ((p.addAll before).1.receive unit).1 := by
  rw [addAll_append, ← length_addAll p before, List.getElem?_append_right (Nat.le_refl _), Nat.sub_self]
  rfl

def kept (units : List NamedUnit) : List NamedUnit := accepted units ((∅ : Program).addAll units).2

theorem holds_kept (units : List NamedUnit) : ((∅ : Program).addAll units).1.Holds (kept units) :=
  holds_empty.addAll units

/-- Let units be added to a new program. One is refused, under its own name, exactly if one of this
    name was accepted before it, and a unit that is refused might as well not have been added. The
    program holds the accepted units in ascending order of their names; its checker knows what their
    nodes declare, unit by unit as they were accepted and each in pre-order, and goes by that in the
    types it gives. No later unit takes a declared name away. -/
theorem additions_follow_the_accepted :
    (∀ (before : List NamedUnit) (name : String) (root : Tree) (after : List NamedUnit),
      let reply := ((∅ : Program).addAll (before ++ (name, root) :: after)).2[before.length]?
      (reply = some (.error ⟨name⟩) ↔ name ∈ (kept before).map (·.1)) ∧
      ((∃ event, reply = some (.ok event)) ↔ name ∉ (kept before).map (·.1)) ∧
      (name ∈ (kept before).map (·.1) →
        ((∅ : Program).addAll (before ++ [(name, root)])).1 = ((∅ : Program).addAll before).1 ∧
        ((∅ : Program).addAll (before ++ (name, root) :: after)).1 =
          ((∅ : Program).addAll (before ++ after)).1)) ∧
    ∀ units : List NamedUnit,
      let p := ((∅ : Program).addAll units).1
      p.units.bindings.Perm (kept units) ∧
      p.units.bindings.Pairwise (fun a b => a.1 < b.1) ∧
      (∀ name, p.checker.declaration? name = declared? (backwards (kept units)) name) ∧
      (∀ n : Tree, p.checker.typeOf n = n.typeAmong (declared? (backwards (kept units)))) ∧
      ∀ name later, (p.checker.declaration? name).isSome = true →
        (((∅ : Program).addAll (units ++ later)).1.checker.declaration? name).isSome = true := by
  refine ⟨?_, ?_⟩
  · intro before name root after reply
    have held := holds_kept before
    have arrives : reply = some (((∅ : Program).addAll before).1.receive (name, root)).1 :=
      reply_addAll ∅ before after (name, root)
    by_cases taken : name ∈ (kept before).map (·.1)
    · have refused := held.refuses taken root
      rw [refused] at arrives
      refine ⟨iff_of_true arrives taken, iff_of_false ?_ (not_not_intro taken), fun _ => ?_⟩
      · rintro ⟨event, answered⟩
        cases arrives.symm.trans answered
      · have onwards (rest) : ((∅ : Program).addAll (before ++ (name, root) :: rest)).1 =
            ((∅ : Program).addAll (before ++ rest)).1 := by
          simp only [addAll_append, addAll]
          rw [refused]
        refine ⟨?_, onwards after⟩
        rw [onwards [], List.append_nil]
    · obtain ⟨event, next, added, _⟩ := held.accepts taken root
      rw [added] at arrives
      refine ⟨iff_of_false ?_ taken, iff_of_true ⟨event, arrives⟩ taken, fun again => absurd again taken⟩
      intro refused
      cases arrives.symm.trans refused
  · intro units p
    have held := holds_kept units
    refine ⟨held.units, p.units.ascending, held.checker, held.checker.typeOf, ?_⟩
    intro name later declared
    have more := (held.addAll later).checker name
    rw [backwards_append] at more
    rw [held.checker name] at declared
    rw [addAll_append]
    exact more ▸ declared?_append declared _

end Program
end TreeVisit
