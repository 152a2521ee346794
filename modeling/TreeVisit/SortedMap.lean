/- Finite maps from strings, kept as bindings whose keys strictly ascend.
   A map is determined by its look-ups, so the order of insertion leaves no trace in it;
   strings are compared by code point, which is also the order of their UTF-8 bytes. -/
namespace TreeVisit

universe u

abbrev Bindings (α : Type u) := List (String × α)

namespace Bindings
variable {α : Type u}

def Ascending (es : Bindings α) : Prop := es.Pairwise fun a b => a.1 < b.1

instance (es : Bindings α) : Decidable (Ascending es) :=
  inferInstanceAs (Decidable (es.Pairwise fun a b => a.1 < b.1))

def get? (key : String) : Bindings α → Option α
  | [] => none
  | (k, v) :: rest => if k = key then some v else get? key rest

def insert (key : String) (value : α) : Bindings α → Bindings α
  | [] => [(key, value)]
  | (k, v) :: rest =>
    if key < k then (key, value) :: (k, v) :: rest
    else if key = k then (key, value) :: rest
    else (k, v) :: insert key value rest

def erase (key : String) : Bindings α → Bindings α
  | [] => []
  | (k, v) :: rest => if k = key then erase key rest else (k, v) :: erase key rest

/-- Of several pairs with one key the last wins. -/
def ofPairs (pairs : List (String × α)) : Bindings α :=
  pairs.foldl (fun es p => insert p.1 p.2 es) []

@[simp] theorem get?_nil (key : String) : get? key ([] : Bindings α) = none := rfl

theorem get?_insert (key other : String) (value : α) (es : Bindings α) :
    get? other (insert key value es) = if key = other then some value else get? other es := by
  induction es with
  | nil => simp [insert, get?]
  | cons e rest ih =>
    obtain ⟨k, v⟩ := e
    by_cases before : key < k
    · simp [insert, before, get?]
    · by_cases same : key = k
      · subst same
        by_cases found : key = other <;> simp [insert, get?, found]
      · by_cases found : k = other
        · subst found
          simp [insert, before, same, get?]
        · simp [insert, before, same, get?, found, ih]

theorem get?_erase (key other : String) (es : Bindings α) :
    get? other (erase key es) = if key = other then none else get? other es := by
  induction es with
  | nil => simp [erase]
  | cons e rest ih =>
    obtain ⟨k, v⟩ := e
    by_cases here : k = key
    · subst here
      by_cases found : k = other
      · subst found
        simp [erase, ih]
      · simp [erase, get?, ih, found]
    · by_cases found : k = other
      · subst found
        have apart : ¬ key = k := fun h => here h.symm
        simp [erase, here, apart, get?]
      · simp [erase, here, get?, ih, found]

theorem mem_insert {key : String} {value : α} {es : Bindings α} {e : String × α}
    (member : e ∈ insert key value es) : e = (key, value) ∨ e ∈ es := by
  induction es with
  | nil => simpa [insert] using member
  | cons head rest ih =>
    obtain ⟨k, v⟩ := head
    simp only [insert] at member
    split at member
    · simpa using member
    · split at member <;> simp only [List.mem_cons] at member ⊢ <;> grind

theorem erase_eq_filter (key : String) (es : Bindings α) :
    erase key es = es.filter fun e => e.1 ≠ key := by
  induction es with
  | nil => rfl
  | cons e rest ih =>
    obtain ⟨k, v⟩ := e
    by_cases here : k = key
    · simp [erase, here, ih]
    · simp [erase, here, ih]

theorem Ascending.insert {es : Bindings α} (ordered : Ascending es) (key : String) (value : α) :
    Ascending (insert key value es) := by
  induction es with
  | nil => simp [Bindings.insert, Ascending]
  | cons head rest ih =>
    obtain ⟨k, v⟩ := head
    obtain ⟨first, tail⟩ := List.pairwise_cons.mp ordered
    simp only [Bindings.insert]
    split
    next before =>
      refine List.pairwise_cons.mpr ⟨fun e member => ?_, ordered⟩
      rcases List.mem_cons.mp member with here | later
      · exact here ▸ before
      · exact String.lt_trans before (first e later)
    next after =>
      split
      next same => exact List.pairwise_cons.mpr ⟨fun e member => same ▸ first e member, tail⟩
      next apart =>
        refine List.pairwise_cons.mpr ⟨fun e member => ?_, ih tail⟩
        rcases mem_insert member with here | later
        · subst here
          exact Decidable.byContradiction fun h => apart
            (String.le_antisymm (String.not_lt.mp h) (String.not_lt.mp after))
        · exact first e later

theorem Ascending.erase {es : Bindings α} (ordered : Ascending es) (key : String) :
    Ascending (erase key es) := by
  rw [erase_eq_filter]
  exact List.Pairwise.filter _ ordered

theorem ascending_ofPairs (pairs : List (String × α)) : Ascending (ofPairs pairs) := by
  suffices ∀ es : Bindings α, Ascending es →
      Ascending (pairs.foldl (fun es p => insert p.1 p.2 es) es) from this [] List.Pairwise.nil
  induction pairs with
  | nil => exact fun _ ordered => ordered
  | cons p rest ih => exact fun es ordered => ih _ (ordered.insert p.1 p.2)

end Bindings

structure SortedMap (α : Type u) where
  bindings : Bindings α
  ascending : bindings.Ascending

namespace SortedMap
variable {α : Type u}

instance : EmptyCollection (SortedMap α) := ⟨⟨[], List.Pairwise.nil⟩⟩
instance : Inhabited (SortedMap α) := ⟨∅⟩

instance [BEq α] : BEq (SortedMap α) := ⟨fun m n => m.bindings == n.bindings⟩

def get? (m : SortedMap α) (key : String) : Option α := Bindings.get? key m.bindings
def contains (m : SortedMap α) (key : String) : Bool := (m.get? key).isSome
def size (m : SortedMap α) : Nat := m.bindings.length
def isEmpty (m : SortedMap α) : Bool := m.bindings.isEmpty
def keys (m : SortedMap α) : List String := m.bindings.map (·.1)
def values (m : SortedMap α) : List α := m.bindings.map (·.2)

def insert (m : SortedMap α) (key : String) (value : α) : SortedMap α :=
  ⟨Bindings.insert key value m.bindings, m.ascending.insert key value⟩

def erase (m : SortedMap α) (key : String) : SortedMap α :=
  ⟨Bindings.erase key m.bindings, m.ascending.erase key⟩

def ofPairs (pairs : List (String × α)) : SortedMap α :=
  ⟨Bindings.ofPairs pairs, Bindings.ascending_ofPairs pairs⟩

@[simp] theorem get?_empty (key : String) : (∅ : SortedMap α).get? key = none := rfl

theorem get?_insert (m : SortedMap α) (key other : String) (value : α) :
    (m.insert key value).get? other = if key = other then some value else m.get? other :=
  Bindings.get?_insert key other value m.bindings

theorem get?_erase (m : SortedMap α) (key other : String) :
    (m.erase key).get? other = if key = other then none else m.get? other :=
  Bindings.get?_erase key other m.bindings

end SortedMap
end TreeVisit
