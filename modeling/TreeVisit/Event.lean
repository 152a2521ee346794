import TreeVisit.Level

/- What is reported about the work that was done: one event for each walk and one for each unit
   that a program takes in. -/
namespace TreeVisit

structure Tally where
  visited : Nat
  recursed : Nat
  replaced : Nat
  removed : Nat
  deriving DecidableEq, Repr

instance : EmptyCollection Tally := ⟨⟨0, 0, 0, 0⟩⟩

inductive Event where
  | completed (level : Level) (tally : Tally) (boardEntries : Nat)
  | aborted (level : Level) (visited : Nat)
  | unitAdded (unit : String) (declarations : Nat)
  deriving DecidableEq, Repr

namespace Event

def message : Event → String
  | completed .. => "transform complete"
  | aborted .. => "transform aborted by visitor error"
  | unitAdded .. => "added source unit"

def level? : Event → Option Level
  | completed level _ _ | aborted level _ => some level
  | unitAdded _ _ => none

end Event
end TreeVisit
