import TreeVisit.SortedMap

/- Finite maps from strings whose bindings stand in an order that nothing may rely on. What is found
   under a key does not depend on it; whoever shows the keys has to sort them first. -/
namespace TreeVisit

universe u

namespace Bindings
variable {α : Type u}

def Distinct (es : Bindings α) : Prop := es.Pairwise fun a b => a.1 ≠ b.1

def put (key : String) (value : α) : Bindings α → Bindings α
  | [] => [(key, value)]
  | (k, v) :: rest => if k = key then (key, value) :: rest else (k, v) :: put key value rest

theorem get?_put (key other : String) (value : α) (es : Bindings α) :
    get? other (put key value es) = if key = other then some value else get? other es := by
  induction es with
  | nil => rfl
  | cons e rest ih =>
    obtain ⟨k, v⟩ := e
    by_cases here : k = key
    · subst here
      by_cases found : k = other <;> simp [put, get?, found]
    · by_cases found : k = other
      · subst found
        have apart : ¬ key = k := fun same => here same.symm
        simp [put, here, apart, get?]
      · simp [put, here, get?, found, ih]

theorem mem_put {key : String} {value : α} {es : Bindings α} {e : String × α}
    (member : e ∈ put key value es) : e = (key, value) ∨ e ∈ es := by
  induction es with
  | nil => simpa [put] using member
  | cons head rest ih =>
    simp only [put] at member
    split at member <;> simp only [List.mem_cons] at member ⊢ <;> grind

theorem Distinct.put {es : Bindings α} (distinct : Distinct es) (key : String) (value : α) :
    Distinct (put key value es) := by
  induction es with
  | nil => exact List.pairwise_singleton _ _
  | cons head rest ih =>
    obtain ⟨first, tail⟩ := List.pairwise_cons.mp distinct
    simp only [Bindings.put]
    split
    next same => exact List.pairwise_cons.mpr ⟨fun e member => same ▸ first e member, tail⟩
    next apart =>
      refine List.pairwise_cons.mpr ⟨fun e member => ?_, ih tail⟩
      rcases mem_put member with rfl | later
      · exact apart
      · exact first e later

theorem Distinct.erase {es : Bindings α} (distinct : Distinct es) (key : String) :
    Distinct (erase key es) := by
  rw [erase_eq_filter]
  exact List.Pairwise.filter _ distinct

end Bindings

structure Table (α : Type u) where
  bindings : Bindings α
  distinct : bindings.Distinct

namespace Table
variable {α : Type u}

instance : EmptyCollection (Table α) := ⟨⟨[], List.Pairwise.nil⟩⟩

def get? (t : Table α) (key : String) : Option α := Bindings.get? key t.bindings
def contains (t : Table α) (key : String) : Bool := (t.get? key).isSome
def size (t : Table α) : Nat := t.bindings.length
def isEmpty (t : Table α) : Bool := t.bindings.isEmpty
def keys (t : Table α) : List String := t.bindings.map (·.1)

def insert (t : Table α) (key : String) (value : α) : Table α :=
  ⟨Bindings.put key value t.bindings, t.distinct.put key value⟩

def erase (t : Table α) (key : String) : Table α :=
  ⟨Bindings.erase key t.bindings, t.distinct.erase key⟩

theorem get?_insert (t : Table α) (key other : String) (value : α) :
    (t.insert key value).get? other = if key = other then some value else t.get? other :=
  Bindings.get?_put key other value t.bindings

theorem get?_erase (t : Table α) (key other : String) :
    (t.erase key).get? other = if key = other then none else t.get? other :=
  Bindings.get?_erase key other t.bindings

theorem nodup_keys (t : Table α) : t.keys.Nodup := List.pairwise_map.mpr t.distinct

end Table
end TreeVisit
