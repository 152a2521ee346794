import Mathlib.Data.List.Sort
import TreeVisit.SortedMap

/- A map by its look-ups. What is found under a key is what the map binds it to, no key is bound
   twice, and two maps in which the same is found under every key are the same map. -/
namespace TreeVisit

universe u

namespace Bindings
variable {α : Type u} {es es' : Bindings α} {key : String} {value : α}

theorem get?_isSome_iff : (get? key es).isSome = true ↔ key ∈ es.map (·.1) := by
  induction es with
  | nil => simp
  | cons e rest ih =>
    obtain ⟨k, v⟩ := e
    by_cases here : k = key
    · simp [get?, here]
    · have apart : ¬ key = k := fun same => here same.symm
      simp [get?, here, apart, ih]

theorem isEmpty_iff : es.isEmpty = true ↔ ∀ key, get? key es = none := by
  cases es with
  | nil => simp
  | cons e rest =>
    have found : get? e.1 (e :: rest) = some e.2 := if_pos rfl
    constructor
    · intro empty
      cases empty
    · intro vacant
      cases (vacant e.1).symm.trans found

theorem get?_eq_some_iff (ordered : Ascending es) :
    get? key es = some value ↔ (key, value) ∈ es := by
  induction es with
  | nil => simp
  | cons e rest ih =>
    obtain ⟨k, v⟩ := e
    obtain ⟨first, tail⟩ := List.pairwise_cons.mp ordered
    by_cases here : k = key
    · subst here
      have once : (k, value) ∉ rest := by
        intro member
        exact String.lt_irrefl k (first _ member)
      simp [get?, once, eq_comm]
    · have apart : ¬ key = k := fun same => here same.symm
      simp [get?, here, apart, ih tail]

theorem ascending_keys (ordered : Ascending es) : (es.map (·.1)).Pairwise (· < ·) :=
  List.pairwise_map.mpr ordered

theorem Ascending.ext (ordered : Ascending es) (ordered' : Ascending es')
    (same : ∀ key, get? key es = get? key es') : es = es' := by
  have irreflexive : Std.Irrefl fun a b : String × α => a.1 < b.1 := ⟨fun _ => String.lt_irrefl _⟩
  have antisymmetric : Std.Antisymm fun a b : String × α => a.1 < b.1 :=
    ⟨fun _ _ before after => absurd after (String.lt_asymm before)⟩
  apply ordered.eq_of_mem_iff ordered'
  rintro ⟨key, value⟩
  rw [← get?_eq_some_iff ordered, ← get?_eq_some_iff ordered', same key]

theorem insert_perm (fresh : get? key es = none) :
    (insert key value es).Perm ((key, value) :: es) := by
  induction es with
  | nil => exact List.Perm.refl _
  | cons e rest ih =>
    obtain ⟨k, v⟩ := e
    have apart : ¬ k = key := by
      intro same
      simp [get?, same] at fresh
    rw [get?, if_neg apart] at fresh
    unfold insert
    split
    next => exact List.Perm.refl _
    next =>
      rw [if_neg fun same => apart same.symm]
      exact ((ih fresh).cons (k, v)).trans (List.Perm.swap ..)

theorem insert_eq_append (last : ∀ e ∈ es, e.1 < key) :
    insert key value es = es ++ [(key, value)] := by
  induction es with
  | nil => rfl
  | cons e rest ih =>
    obtain ⟨k, v⟩ := e
    obtain ⟨first, others⟩ := List.forall_mem_cons.mp last
    have apart : ¬ key = k := by
      rintro rfl
      exact String.lt_irrefl key first
    rw [insert, if_neg (String.lt_asymm first), if_neg apart, ih others, List.cons_append]

theorem ofPairs_eq_self (ordered : Ascending es) : ofPairs es = es := by
  suffices ∀ done : Bindings α, Ascending (done ++ es) →
      es.foldl (fun found e => insert e.1 e.2 found) done = done ++ es from this [] ordered
  clear ordered
  induction es with
  | nil => exact fun done _ => (List.append_nil done).symm
  | cons e rest ih =>
    intro done ordered
    have last : ∀ d ∈ done, d.1 < e.1 := by
      intro d member
      exact (List.pairwise_append.mp ordered).2.2 d member e List.mem_cons_self
    rw [List.append_cons] at ordered ⊢
    rw [List.foldl_cons, insert_eq_append last]
    exact ih _ ordered

end Bindings

namespace SortedMap
variable {α : Type u} {key : String}

theorem contains_iff (m : SortedMap α) : m.contains key = true ↔ key ∈ m.keys :=
  Bindings.get?_isSome_iff

theorem get?_foldl_insert {pairs : List (String × α)} (fresh : key ∉ pairs.map (·.1))
    (m : SortedMap α) : (pairs.foldl (fun m p => m.insert p.1 p.2) m).get? key = m.get? key := by
  induction pairs generalizing m with
  | nil => rfl
  | cons p rest ih =>
    obtain ⟨apart, later⟩ := not_or.mp (List.mem_cons.not.mp fresh)
    rw [List.foldl_cons, ih later, get?_insert, if_neg (Ne.symm apart)]

theorem get?_foldl_erase (keys : List String) (m : SortedMap α) :
    (keys.foldl erase m).get? key = if key ∈ keys then none else m.get? key := by
  induction keys generalizing m with
  | nil => simp
  | cons other rest ih =>
    rw [List.foldl_cons, ih, get?_erase]
    by_cases here : other = key
    · simp [here]
    · simp [here, Ne.symm here]

theorem bindings_erase (m : SortedMap α) (key : String) :
    (m.erase key).bindings = m.bindings.filter fun e => e.1 ≠ key :=
  Bindings.erase_eq_filter key m.bindings

theorem bindings_foldl_erase (keys : List String) (m : SortedMap α) :
    (keys.foldl erase m).bindings = m.bindings.filter fun e => e.1 ∉ keys := by
  induction keys generalizing m with
  | nil => simp
  | cons key rest ih =>
    rw [List.foldl_cons, ih, bindings_erase, List.filter_filter]
    apply List.filter_congr
    intro e member
    simp [Bool.and_comm]

theorem ascending_keys (m : SortedMap α) : m.keys.Pairwise (· < ·) :=
  Bindings.ascending_keys m.ascending

theorem size_eq_length_keys (m : SortedMap α) : m.size = m.keys.length :=
  (List.length_map _).symm

theorem bindings_inj {m m' : SortedMap α} (same : m.bindings = m'.bindings) : m = m' := by
  cases m
  cases m'
  cases same
  rfl

theorem ext {m m' : SortedMap α} (same : ∀ key, m.get? key = m'.get? key) : m = m' :=
  bindings_inj (m.ascending.ext m'.ascending same)

theorem ext_of_perm {m m' : SortedMap α} (perm : m.bindings.Perm m'.bindings) : m = m' := by
  apply ext
  intro key
  apply Option.ext
  intro value
  unfold get?
  rw [Bindings.get?_eq_some_iff m.ascending, Bindings.get?_eq_some_iff m'.ascending]
  exact perm.mem_iff

theorem ofPairs_bindings (m : SortedMap α) : ofPairs m.bindings = m :=
  bindings_inj (Bindings.ofPairs_eq_self m.ascending)

end SortedMap
end TreeVisit
