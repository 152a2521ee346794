import Mathlib.Data.List.Dedup
import TreeVisit.Proofs.Document.RoundTrip
import TreeVisit.Proofs.Text.Order

/- A configuration by what was written to it. Under each key it holds what was written there last, each
   key is listed once and keys are in the order of their bytes, and a typed look-up goes by the document
   under its key alone: an absent key has no value, and one that is there is converted or refused. -/
namespace TreeVisit

def lastWritten {α : Type} (key : String) (history : List (String × α)) : Option α :=
  history.reverse.lookup key

section
variable {α : Type} {key : String}

@[simp] theorem lastWritten_nil : lastWritten key ([] : List (String × α)) = none := rfl

theorem lastWritten_cons (p : String × α) (history : List (String × α)) :
    lastWritten key (p :: history) =
      (lastWritten key history).or (if p.1 = key then some p.2 else none) := by
  obtain ⟨k, value⟩ := p
  rw [lastWritten, lastWritten, List.reverse_cons, List.lookup_append, List.lookup_cons]
  by_cases same : k = key
  · rw [if_pos same, beq_iff_eq.mpr same.symm]
  · rw [if_neg same, beq_eq_false_iff_ne.mpr (Ne.symm same), List.lookup_nil]

theorem lastWritten_append (earlier later : List (String × α)) :
    lastWritten key (earlier ++ later) = (lastWritten key later).or (lastWritten key earlier) := by
  rw [lastWritten, List.reverse_append, List.lookup_append]
  rfl

theorem lastWritten_isSome_iff {history : List (String × α)} :
    (lastWritten key history).isSome = true ↔ key ∈ history.map (·.1) := by
  induction history with
  | nil => simp
  | cons p history ih =>
    rw [lastWritten_cons, List.map_cons, List.mem_cons, ← ih]
    by_cases same : p.1 = key
    · simp [same]
    · simp [same, Ne.symm same]

theorem SortedMap.ofPairs_eq_foldl (pairs : List (String × α)) :
    ofPairs pairs = pairs.foldl (fun m p => m.insert p.1 p.2) ∅ := by
  apply bindings_inj
  change pairs.foldl (fun es p => Bindings.insert p.1 p.2 es) (bindings ∅) = _
  exact List.foldl_hom bindings fun _ _ => rfl

theorem SortedMap.get?_foldl_insert_last (m : SortedMap α) (pairs : List (String × α)) :
    (pairs.foldl (fun m p => m.insert p.1 p.2) m).get? key =
      (lastWritten key pairs).or (m.get? key) := by
  induction pairs generalizing m with
  | nil => rfl
  | cons p rest ih =>
    rw [List.foldl_cons, ih, get?_insert, lastWritten_cons, Option.or_assoc]
    by_cases same : p.1 = key
    · simp [same]
    · simp [same]

theorem SortedMap.get?_ofPairs (pairs : List (String × α)) :
    (ofPairs pairs).get? key = lastWritten key pairs := by
  rw [ofPairs_eq_foldl, get?_foldl_insert_last]
  exact Option.or_none

theorem SortedMap.lastWritten_bindings (m : SortedMap α) :
    lastWritten key m.bindings = m.get? key := by
  rw [← get?_ofPairs, ofPairs_bindings]

end

namespace Config

inductive Write where
  | set (key : String) (value : Document)
  | insert (key : String) (value : Document)

def Write.pair : Write → String × Document
  | set key value | insert key value => (key, value)

/-- What the write gives back after these pairs were written: only an insertion gives back anything,
    namely what it displaces. -/
def Write.displaces (history : List (String × Document)) : Write → Option (Option Document)
  | set _ _ => none
  | insert key _ => some (lastWritten key history)

def write (c : Config) : Write → Option (Option Document) × Config
  | .set key value => (none, c.set key value)
  | .insert key value =>
    let (old, next) := c.insert key value
    (some old, next)

def writeAll (c : Config) : List Write → List (Option (Option Document)) × Config
  | [] => ([], c)
  | w :: rest =>
    let (reply, next) := c.write w
    let (replies, last) := next.writeAll rest
    (reply :: replies, last)

/-- The configuration holds, under each key, what was written there last, and nothing else. -/
structure Holds (c : Config) (history : List (String × Document)) : Prop where
  last : ∀ key, c.get? key = lastWritten key history
  contained : ∀ key, c.contains key = true ↔ key ∈ history.map (·.1)
  size : c.size = (history.map (·.1)).dedup.length
  listed : ∀ key d, (key, d) ∈ c.values.bindings ↔ lastWritten key history = some d
  ascending : (c.values.bindings.map fun m => Text.bytes m.1).Pairwise (· < ·)
  again : ofDocument c.toDocument = .ok c

theorem values_write (c : Config) (w : Write) :
    (c.write w).2.values = c.values.insert w.pair.1 w.pair.2 := by
  cases w <;> rfl

theorem values_writeAll (c : Config) (writes : List Write) :
    (c.writeAll writes).2.values =
      (writes.map Write.pair).foldl (fun m p => m.insert p.1 p.2) c.values := by
  induction writes generalizing c with
  | nil => rfl
  | cons w rest ih =>
    change ((c.write w).2.writeAll rest).2.values = _
    rw [ih, values_write, List.map_cons, List.foldl_cons]

theorem ofDocument_ofMembers (pairs : List (String × Document)) :
    ofDocument (.ofMembers pairs) = .ok ⟨.ofPairs pairs⟩ := by
  change Except.ok (Config.mk (.ofPairs (SortedMap.ofPairs pairs).bindings)) = _
  rw [SortedMap.ofPairs_bindings]

theorem holds_of_last {c : Config} {history : List (String × Document)}
    (last : ∀ key, c.get? key = lastWritten key history) : Holds c history where
  last := last
  contained key := by
    rw [← lastWritten_isSome_iff, ← last key]
    rfl
  size := by
    have members : ∀ key, key ∈ c.values.keys ↔ key ∈ (history.map (·.1)).dedup := by
      intro key
      rw [← SortedMap.contains_iff, List.mem_dedup, ← lastWritten_isSome_iff, ← last key]
      rfl
    have once : c.values.keys.Nodup := by
      apply c.values.ascending_keys.imp
      rintro key _ less rfl
      exact String.lt_irrefl key less
    have same := (List.perm_ext_iff_of_nodup once (List.nodup_dedup _)).mpr members
    exact c.values.size_eq_length_keys.trans same.length_eq
  listed key d := by
    rw [← last key]
    exact (Bindings.get?_eq_some_iff c.values.ascending).symm
  ascending := List.pairwise_map.mpr (c.values.ascending.imp Text.lt_iff_bytes_lt.mp)
  again := ofDocument_toDocument c

theorem get?_writeAll {c : Config} {history : List (String × Document)}
    (last : ∀ key, c.get? key = lastWritten key history) (writes : List Write) (key : String) :
    (c.writeAll writes).2.get? key = lastWritten key (history ++ writes.map Write.pair) := by
  rw [get?, values_writeAll, SortedMap.get?_foldl_insert_last, lastWritten_append]
  exact congrArg (Option.or _) (last key)

theorem write_reply {c : Config} {history : List (String × Document)}
    (last : ∀ key, c.get? key = lastWritten key history) (w : Write) :
    (c.write w).1 = w.displaces history := by
  cases w with
  | set key value => rfl
  | insert key value => exact congrArg some (last key)

theorem writeAll_reply {c : Config} {history : List (String × Document)}
    (last : ∀ key, c.get? key = lastWritten key history) (before : List Write) (w : Write)
    (after : List Write) :
    (c.writeAll (before ++ w :: after)).1[before.length]? =
      some (w.displaces (history ++ before.map Write.pair)) := by
  induction before generalizing c history with
  | nil =>
    rw [List.map_nil, List.append_nil]
    exact congrArg some (write_reply last w)
  | cons first before ih =>
    have next : ∀ key, (c.write first).2.get? key = lastWritten key (history ++ [first.pair]) :=
      fun key => get?_writeAll last [first] key
    rw [List.map_cons, List.append_cons history]
    exact ih next

/-- A look-up of this type goes by the document under its key, in whatever configuration. -/
structure GoesByKey (α : Type) [Decode α] (key : String) : Prop where
  alone : ∃ read : Option Document → Except Fault (Option α),
    ∀ c : Config, c.find key = read (c.get? key)
  absent : ∀ c : Config, (c.find key : Except Fault (Option α)) = .ok none ↔ c.get? key = none
  found : ∀ (c : Config) (a : α), c.find key = .ok (some a) ↔
    ∃ d, c.get? key = some d ∧ decode d = .ok a
  refused : ∀ (c : Config) (fault : Fault), (c.find key : Except Fault (Option α)) = .error fault ↔
    ∃ d cause, c.get? key = some d ∧ (decode d : Except DataError α) = .error cause ∧
      fault = .configValue key cause
  defaulted : ∀ (c : Config) (default a : α), c.findD key default = .ok a ↔
    c.get? key = none ∧ a = default ∨ ∃ d, c.get? key = some d ∧ decode d = .ok a
  unhidden : ∀ (c : Config) (default : α) (fault : Fault), c.findD key default = .error fault ↔
    (c.find key : Except Fault (Option α)) = .error fault

theorem find_cases (α : Type) [Decode α] (c : Config) (key : String) :
    (c.get? key = none ∧ (c.find key : Except Fault (Option α)) = .ok none) ∨
      (∃ d, c.get? key = some d ∧ ∃ a : α, decode d = .ok a ∧ c.find key = .ok (some a)) ∨
      ∃ d, c.get? key = some d ∧ ∃ cause, (decode d : Except DataError α) = .error cause ∧
        (c.find key : Except Fault (Option α)) = .error (.configValue key cause) := by
  unfold find
  cases c.get? key with
  | none => exact .inl ⟨rfl, rfl⟩
  | some d =>
    right
    dsimp only
    cases outcome : (decode d : Except DataError α) with
    | ok a => exact .inl ⟨d, rfl, a, outcome, rfl⟩
    | error cause => exact .inr ⟨d, rfl, cause, outcome, rfl⟩

theorem goesByKey (α : Type) [Decode α] (key : String) : GoesByKey α key where
  alone := by
    refine ⟨fun there => there.elim (.ok none) fun d =>
      ((decode d).map some).mapError (Fault.configValue key), fun c => ?_⟩
    unfold find
    cases c.get? key <;> rfl
  absent c := by
    obtain ⟨there, reply⟩ | ⟨d, there, a, converted, reply⟩ | ⟨d, there, cause, refused, reply⟩ :=
      find_cases α c key <;> simp [reply, there]
  found c a := by
    obtain ⟨there, reply⟩ | ⟨d, there, b, converted, reply⟩ | ⟨d, there, cause, refused, reply⟩ :=
      find_cases α c key
    · simp [reply, there]
    · simp [reply, there, converted]
    · simp [reply, there, refused]
  refused c fault := by
    obtain ⟨there, reply⟩ | ⟨d, there, b, converted, reply⟩ | ⟨d, there, cause, refused, reply⟩ :=
      find_cases α c key
    · simp [reply, there]
    · simp [reply, there, converted]
    · simp [reply, there, refused, eq_comm]
  defaulted c default a := by
    have passed : c.findD key default = (c.find key).map (·.getD default) := rfl
    obtain ⟨there, reply⟩ | ⟨d, there, b, converted, reply⟩ | ⟨d, there, cause, refused, reply⟩ :=
      find_cases α c key
    · simp [passed, reply, there, Except.map, eq_comm]
    · simp [passed, reply, there, converted, Except.map]
    · simp [passed, reply, there, refused, Except.map]
  unhidden c default fault := by
    change (c.find key).map (·.getD default) = .error fault ↔ _
    cases (c.find key : Except Fault (Option α)) <;> simp [Except.map]

/-- A configuration made of a record and then written to holds what was written last under each key,
    the record's members counted as written before all else; each write gives back what it displaces.
    A null instead of a record is an empty one. -/
theorem holds_what_was_written_last :
    ofDocument .null = ofDocument (.record []) ∧
      (∀ members, ∃ start, ofDocument (.record members) = .ok start ∧
        (∀ writes, Holds (start.writeAll writes).2 (members ++ writes.map Write.pair)) ∧
        ∀ before w after, (start.writeAll (before ++ w :: after)).1[before.length]? =
          some (w.displaces (members ++ before.map Write.pair))) ∧
      ∀ (α : Type) [Decode α] (key : String), GoesByKey α key := by
  refine ⟨rfl, ?_, fun α _ key => goesByKey α key⟩
  intro members
  have start : ∀ key, (SortedMap.ofPairs members).get? key = lastWritten key members :=
    fun key => SortedMap.get?_ofPairs members
  refine ⟨⟨SortedMap.ofPairs members⟩, rfl, ?_, ?_⟩
  · exact fun writes => holds_of_last (get?_writeAll start writes)
  · exact writeAll_reply start

end Config
end TreeVisit
