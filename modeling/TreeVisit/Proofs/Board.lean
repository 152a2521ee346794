import TreeVisit.Board
import TreeVisit.Proofs.SortedMap

/- A board against the map that it stands for: from keys to values, each with the type at which it was
   stored. Rules say what each operation answers at such a map and what map it leaves; whatever is
   asked of a board that started empty, it answers by the rules, and the rules allow no other answer
   except that keys may be listed in any order. A board shows them sorted, so its order is not seen. -/
namespace TreeVisit

variable {τ : Type} [Storable τ]

abbrev Contents (τ : Type) [Storable τ] := String → Option (Stored τ)

namespace Contents

def put (m : Contents τ) (key : String) (stored? : Option (Stored τ)) : Contents τ :=
  fun other => if key = other then stored? else m other

theorem put_same (m : Contents τ) (key : String) (stored? : Option (Stored τ)) :
    m.put key stored? key = stored? := if_pos rfl

def tally (m : Contents τ) (key : String) : Count :=
  match m key with
  | some ⟨.count, n⟩ => n
  | _ => 0

def Lacks (m : Contents τ) (key : String) (slot : Slot τ) : Prop := ∀ value, m key ≠ some ⟨slot, value⟩

/-- The keys are those under which something is stored, each listed once, in any order. -/
structure Lists (m : Contents τ) (keys : List String) : Prop where
  distinct : keys.Nodup
  bound : ∀ key, key ∈ keys ↔ (m key).isSome = true

variable {m : Contents τ} {keys keys' : List String}

theorem Lists.perm (lists : m.Lists keys) (lists' : m.Lists keys') : keys.Perm keys' := by
  rw [List.perm_ext_iff_of_nodup lists.distinct lists'.distinct]
  intro key
  rw [lists.bound, lists'.bound]

theorem Lists.of_perm (lists : m.Lists keys) (perm : keys.Perm keys') : m.Lists keys' where
  distinct := perm.nodup_iff.mp lists.distinct
  bound key := perm.mem_iff.symm.trans (lists.bound key)

end Contents

/-- What can be asked of a board. To write through a reference that was given is to modify. -/
inductive Operation (τ : Type) [Storable τ] where
  | insert (key : String) (slot : Slot τ) (value : slot.Value)
  | get (key : String) (slot : Slot τ)
  | modify (key : String) (slot : Slot τ) (change : slot.Value → slot.Value)
  | getOrInsert (key : String) (slot : Slot τ) (default : Unit → slot.Value)
  | remove (key : String) (slot : Slot τ)
  | increment (key : String)
  | contains (key : String)
  | size
  | isEmpty
  | keys

inductive Answer (τ : Type) [Storable τ] where
  | flag (b : Bool)
  | found (slot : Slot τ) (value? : Option slot.Value)
  | count (n : Count)
  | number (n : Nat)
  | keys (keys : List String)

/-- The same answer, but that keys may be listed in another order. -/
inductive Answer.Agree : Answer τ → Answer τ → Prop
  | same {answer} : Agree answer answer
  | keys {keys keys'} (perm : keys.Perm keys') : Agree (.keys keys) (.keys keys')

theorem Answer.Agree.of_eq {answer answer' : Answer τ} (same : answer = answer') :
    answer.Agree answer' := same ▸ .same

/-- The answer to an operation at some contents, and the contents that it leaves. -/
inductive Does : Contents τ → Operation τ → Answer τ → Contents τ → Prop
  | insert {m key slot value} :
    Does m (.insert key slot value) (.flag (m key).isSome) (m.put key (some ⟨slot, value⟩))
  | get {m key slot value} (held : m key = some ⟨slot, value⟩) :
    Does m (.get key slot) (.found slot (some value)) m
  | get_other {m key slot} (lacks : m.Lacks key slot) : Does m (.get key slot) (.found slot none) m
  | modify {m key slot value change} (held : m key = some ⟨slot, value⟩) :
    Does m (.modify key slot change) (.found slot (some (change value)))
      (m.put key (some ⟨slot, change value⟩))
  | modify_other {m key slot change} (lacks : m.Lacks key slot) :
    Does m (.modify key slot change) (.found slot none) m
  | getOrInsert_vacant {m key slot default} (vacant : m key = none) :
    Does m (.getOrInsert key slot default) (.found slot (some (default ())))
      (m.put key (some ⟨slot, default ()⟩))
  | getOrInsert {m key slot value default} (held : m key = some ⟨slot, value⟩) :
    Does m (.getOrInsert key slot default) (.found slot (some value)) m
  | getOrInsert_other {m key slot default} (occupied : m key ≠ none) (lacks : m.Lacks key slot) :
    Does m (.getOrInsert key slot default) (.found slot none) m
  | remove {m key slot value} (held : m key = some ⟨slot, value⟩) :
    Does m (.remove key slot) (.found slot (some value)) (m.put key none)
  | remove_other {m key slot} (lacks : m.Lacks key slot) :
    Does m (.remove key slot) (.found slot none) m
  | increment {m key} :
    Does m (.increment key) (.count (m.tally key + 1)) (m.put key (some ⟨.count, m.tally key + 1⟩))
  | contains {m key} : Does m (.contains key) (.flag (m key).isSome) m
  | size {m keys} (lists : m.Lists keys) : Does m .size (.number keys.length) m
  | isEmpty {m b} (vacant : b = true ↔ ∀ key, m key = none) : Does m .isEmpty (.flag b) m
  | keys {m keys} (lists : m.Lists keys) : Does m .keys (.keys keys) m

inductive Runs : Contents τ → List (Operation τ) → List (Answer τ) → Contents τ → Prop
  | nil {m} : Runs m [] [] m
  | cons {m m' m'' op answer ops answers} (first : Does m op answer m')
      (rest : Runs m' ops answers m'') : Runs m (op :: ops) (answer :: answers) m''

theorem Contents.tally_held {m : Contents τ} {key : String} {n : Count}
    (held : m key = some ⟨.count, n⟩) : m.tally key = n := by
  rw [tally, held]

theorem Contents.tally_other {m : Contents τ} {key : String} (lacks : m.Lacks key .count) :
    m.tally key = 0 := by
  cases held : m key with
  | none => rw [tally, held]
  | some stored =>
    obtain ⟨slot, value⟩ := stored
    cases slot with
    | count => exact absurd held (lacks value)
    | of type => rw [tally, held]

theorem Contents.value_unique {m : Contents τ} {key : String} {slot : Slot τ}
    {value value' : slot.Value} (held : m key = some ⟨slot, value⟩)
    (held' : m key = some ⟨slot, value'⟩) : value = value' := by
  cases held.symm.trans held'
  rfl

theorem Does.unique {m m' m'' : Contents τ} {op : Operation τ} {answer answer' : Answer τ}
    (does : Does m op answer m') (does' : Does m op answer' m'') :
    answer.Agree answer' ∧ m' = m'' := by
  cases does with
  | insert | increment | contains =>
    cases does'
    exact ⟨.same, rfl⟩
  | get held =>
    cases does' with
    | get held' => exact ⟨.of_eq (by rw [Contents.value_unique held held']), rfl⟩
    | get_other lacks => exact absurd held (lacks _)
  | get_other lacks =>
    cases does' with
    | get held => exact absurd held (lacks _)
    | get_other => exact ⟨.same, rfl⟩
  | modify held =>
    cases does' with
    | modify held' => rw [Contents.value_unique held held']; exact ⟨.same, rfl⟩
    | modify_other lacks => exact absurd held (lacks _)
  | modify_other lacks =>
    cases does' with
    | modify held => exact absurd held (lacks _)
    | modify_other => exact ⟨.same, rfl⟩
  | getOrInsert_vacant vacant =>
    cases does' with
    | getOrInsert_vacant => exact ⟨.same, rfl⟩
    | getOrInsert held => cases vacant.symm.trans held
    | getOrInsert_other occupied => exact absurd vacant occupied
  | getOrInsert held =>
    cases does' with
    | getOrInsert_vacant vacant => cases vacant.symm.trans held
    | getOrInsert held' => exact ⟨.of_eq (by rw [Contents.value_unique held held']), rfl⟩
    | getOrInsert_other _ lacks => exact absurd held (lacks _)
  | getOrInsert_other occupied lacks =>
    cases does' with
    | getOrInsert_vacant vacant => exact absurd vacant occupied
    | getOrInsert held => exact absurd held (lacks _)
    | getOrInsert_other => exact ⟨.same, rfl⟩
  | remove held =>
    cases does' with
    | remove held' => exact ⟨.of_eq (by rw [Contents.value_unique held held']), rfl⟩
    | remove_other lacks => exact absurd held (lacks _)
  | remove_other lacks =>
    cases does' with
    | remove held => exact absurd held (lacks _)
    | remove_other => exact ⟨.same, rfl⟩
  | size lists =>
    cases does' with
    | size lists' => exact ⟨.of_eq (by rw [(lists.perm lists').length_eq]), rfl⟩
  | isEmpty vacant =>
    cases does' with
    | isEmpty vacant' =>
      exact ⟨.of_eq (by rw [Bool.eq_iff_iff.mpr (vacant.trans vacant'.symm)]), rfl⟩
  | keys lists =>
    cases does' with
    | keys lists' => exact ⟨.keys (lists.perm lists'), rfl⟩

theorem Does.agree {m m' : Contents τ} {op : Operation τ} {answer answer' : Answer τ}
    (does : Does m op answer m') (agree : answer.Agree answer') : Does m op answer' m' := by
  cases agree with
  | same => exact does
  | keys perm =>
    cases does with
    | keys lists => exact Does.keys (lists.of_perm perm)

theorem Runs.unique {m m' m'' : Contents τ} {ops : List (Operation τ)}
    {answers answers' : List (Answer τ)} (runs : Runs m ops answers m')
    (runs' : Runs m ops answers' m'') : List.Forall₂ Answer.Agree answers answers' ∧ m' = m'' := by
  induction runs generalizing answers' with
  | nil =>
    cases runs'
    exact ⟨.nil, rfl⟩
  | cons first _ ih =>
    cases runs' with
    | cons first' rest' =>
      obtain ⟨agree, rfl⟩ := first.unique first'
      obtain ⟨later, rfl⟩ := ih rest'
      exact ⟨.cons agree later, rfl⟩

theorem Runs.agree {m m' : Contents τ} {ops : List (Operation τ)} {answers answers' : List (Answer τ)}
    (runs : Runs m ops answers m') (agree : List.Forall₂ Answer.Agree answers answers') :
    Runs m ops answers' m' := by
  induction runs generalizing answers' with
  | nil =>
    cases agree
    exact Runs.nil
  | cons first _ ih =>
    cases agree with
    | cons here later => exact Runs.cons (first.agree here) (ih later)

namespace Board

def contents (b : Board τ) : Contents τ := b.entries.get?

theorem contents_set (b : Board τ) (key : String) (slot : Slot τ) (value : slot.Value) :
    (b.set key slot value).contents = b.contents.put key (some ⟨slot, value⟩) := by
  funext other
  exact b.entries.get?_insert key other ⟨slot, value⟩

theorem lists_listing (b : Board τ) : b.contents.Lists b.listing where
  distinct := b.entries.nodup_keys
  bound _ := Bindings.get?_isSome_iff.symm

theorem keys_perm (b : Board τ) : b.keys.Perm b.listing := List.mergeSort_perm _ _

theorem lists_keys (b : Board τ) : b.contents.Lists b.keys :=
  b.lists_listing.of_perm b.keys_perm.symm

theorem ascending_keys (b : Board τ) : b.keys.Pairwise (· < ·) := by
  have sorted : b.keys.Pairwise fun key key' => decide (key ≤ key') = true := by
    apply List.pairwise_mergeSort
    · intro key key' key'' before after
      simp only [decide_eq_true_eq] at before after ⊢
      exact String.le_trans before after
    · intro key key'
      simpa using String.le_total key key'
  apply (sorted.and b.lists_keys.distinct).imp
  intro key key' ⟨ordered, apart⟩
  have before := of_decide_eq_true ordered
  by_contra after
  exact apart (String.le_antisymm before (String.not_lt.mp after))

variable [DecidableEq τ]

theorem as?_eq_some_iff {stored : Stored τ} {slot : Slot τ} {value : slot.Value} :
    stored.as? slot = some value ↔ stored = ⟨slot, value⟩ := by
  obtain ⟨slot', value'⟩ := stored
  by_cases same : slot' = slot
  · subst same
    simp [Stored.as?]
  · simp [Stored.as?, same]

variable {b : Board τ} {key : String} {slot : Slot τ}

theorem get?_eq_some_iff {value : slot.Value} :
    b.get? key slot = some value ↔ b.contents key = some ⟨slot, value⟩ := by
  unfold get? contents
  cases b.entries.get? key with
  | none => simp
  | some stored => simp [as?_eq_some_iff]

theorem get?_eq_none_iff : b.get? key slot = none ↔ b.contents.Lacks key slot := by
  rw [Option.eq_none_iff_forall_ne_some]
  exact forall_congr' fun value => get?_eq_some_iff.not

theorem held_or_lacks (b : Board τ) (key : String) (slot : Slot τ) :
    (∃ value, b.contents key = some ⟨slot, value⟩) ∨ b.contents.Lacks key slot := by
  cases found : b.get? key slot with
  | none => exact .inr (get?_eq_none_iff.mp found)
  | some value => exact .inl ⟨value, get?_eq_some_iff.mp found⟩

theorem count_eq_tally (b : Board τ) (key : String) : b.count key = b.contents.tally key := by
  rcases b.held_or_lacks key .count with ⟨n, held⟩ | lacks
  · rw [count, get?_eq_some_iff.mpr held, Contents.tally_held held]
    rfl
  · rw [count, get?_eq_none_iff.mpr lacks, Contents.tally_other lacks]
    rfl

theorem getOrInsert_vacant (vacant : b.contents key = none) (default : Unit → slot.Value) :
    b.getOrInsert key slot default = (some (default ()), b.set key slot (default ())) := by
  have free : ¬ b.contains key = true := Option.not_isSome_iff_eq_none.mpr vacant
  rw [getOrInsert, if_neg free]

theorem getOrInsert_occupied (occupied : b.contents key ≠ none) (default : Unit → slot.Value) :
    b.getOrInsert key slot default = (b.get? key slot, b) := by
  have taken : b.contains key = true := Option.isSome_iff_ne_none.mpr occupied
  rw [getOrInsert, if_pos taken]

theorem getOrInsert_other (occupied : b.contents key ≠ none) (lacks : b.contents.Lacks key slot)
    (default : Unit → slot.Value) : b.getOrInsert key slot default = (none, b) := by
  rw [getOrInsert_occupied occupied, get?_eq_none_iff.mpr lacks]

theorem remove_other (lacks : b.contents.Lacks key slot) : b.remove key slot = (none, b) := by
  rw [remove, get?_eq_none_iff.mpr lacks]

theorem contents_increment (b : Board τ) (key : String) :
    (b.increment key).2.contents key = some ⟨.count, (b.increment key).1⟩ := by
  have written := b.contents_set key .count (b.increment key).1
  exact (congrFun written key).trans (Contents.put_same _ _ _)

theorem count_increment (b : Board τ) (key : String) :
    (b.increment key).2.count key = (b.increment key).1 := by
  rw [count_eq_tally, Contents.tally_held (b.contents_increment key)]

theorem toNat_increment (below : (b.count key : Nat) < Count.greatest) :
    ((b.increment key).1 : Nat) = b.count key + 1 := by
  have top := Count.toNat_greatest
  change ((b.count key + 1 : Count) : Nat) = _
  rw [UInt64.toNat_add, UInt64.toNat_one]
  omega

theorem increment_greatest (full : b.count key = Count.greatest) : (b.increment key).1 = 0 := by
  change b.count key + 1 = 0
  rw [full]
  rfl

end Board
end TreeVisit
