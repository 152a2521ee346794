import TreeVisit.Table
import TreeVisit.Text.Quoted

/- Scratch storage of one traversal: values of several types under string keys. A value is given
   back only to one who asks for the type it was stored at; every board can hold counters. The keys
   are listed in no particular order, and sorted before they are shown. -/
namespace TreeVisit

/-- Counters are words: what is counted past the greatest of them starts again from zero. -/
abbrev Count := UInt64

instance : Coe Count Nat := ⟨UInt64.toNat⟩

def Count.greatest : Count := 18446744073709551615

theorem Count.toNat_greatest : (greatest : Nat) = 18446744073709551615 := rfl

theorem Count.le_greatest (c : Count) : (c : Nat) ≤ greatest := Nat.le_pred_of_lt c.toNat_lt

class Storable (τ : Type) where
  Value : τ → Type

instance : Storable Empty := ⟨nofun⟩

inductive Slot (τ : Type) where
  | count
  | of (type : τ)
  deriving DecidableEq

variable {τ : Type} [Storable τ]

def Slot.Value : Slot τ → Type
  | count => Count
  | of type => Storable.Value type

/-- Values of this slot are read and written as numbers. -/
instance : CoeOut (Slot.Value (.count : Slot τ)) Nat := ⟨UInt64.toNat⟩
instance : Coe Nat (Slot.Value (.count : Slot τ)) := ⟨UInt64.ofNat⟩

structure Stored (τ : Type) [Storable τ] where
  slot : Slot τ
  value : slot.Value

def Stored.as? [DecidableEq τ] (stored : Stored τ) (slot : Slot τ) : Option slot.Value :=
  if same : stored.slot = slot then some (same ▸ stored.value) else none

structure Board (τ : Type) [Storable τ] where
  entries : Table (Stored τ)

namespace Board

instance : EmptyCollection (Board τ) := ⟨⟨∅⟩⟩
instance : Inhabited (Board τ) := ⟨∅⟩

def contains (b : Board τ) (key : String) : Bool := b.entries.contains key
def size (b : Board τ) : Nat := b.entries.size
def isEmpty (b : Board τ) : Bool := b.entries.isEmpty

/-- The keys as they are stored, in no particular order. -/
def listing (b : Board τ) : List String := b.entries.keys

def keys (b : Board τ) : List String := b.listing.mergeSort fun key key' => decide (key ≤ key')

theorem size_eq_length_keys (b : Board τ) : b.size = b.keys.length := by
  rw [keys, List.length_mergeSort]
  exact (List.length_map _).symm

def set (b : Board τ) (key : String) (slot : Slot τ) (value : slot.Value) : Board τ :=
  ⟨b.entries.insert key ⟨slot, value⟩⟩

def insert (b : Board τ) (key : String) (slot : Slot τ) (value : slot.Value) : Bool × Board τ :=
  (b.contains key, b.set key slot value)

variable [DecidableEq τ]

def get? (b : Board τ) (key : String) (slot : Slot τ) : Option slot.Value :=
  (b.entries.get? key).bind (·.as? slot)

/-- Changes a value in place and gives back the new one; a value of another type stays. -/
def modify? (b : Board τ) (key : String) (slot : Slot τ) (change : slot.Value → slot.Value) :
    Option slot.Value × Board τ :=
  match b.get? key slot with
  | some value => (some (change value), b.set key slot (change value))
  | none => (none, b)

def getOrInsert (b : Board τ) (key : String) (slot : Slot τ) (default : Unit → slot.Value) :
    Option slot.Value × Board τ :=
  if b.contains key then (b.get? key slot, b)
  else
    let value := default ()
    (some value, b.set key slot value)

def remove (b : Board τ) (key : String) (slot : Slot τ) : Option slot.Value × Board τ :=
  match b.get? key slot with
  | some value => (some value, ⟨b.entries.erase key⟩)
  | none => (none, b)

def count (b : Board τ) (key : String) : Count := (b.get? key .count).getD (0 : Count)

/-- A value of another type is overwritten by a counter at one. -/
def increment (b : Board τ) (key : String) : Count × Board τ :=
  let next := b.count key + 1
  (next, b.set key .count next)

def describe (b : Board τ) : String :=
  "Blackboard \x7b keys: [" ++ ", ".intercalate (b.keys.map Text.quoted) ++ "] \x7d"

end Board
end TreeVisit
