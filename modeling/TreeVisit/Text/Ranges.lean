/- Character classes given as inclusive ranges of code points, in ascending order. -/
namespace TreeVisit.Text

abbrev Ranges := List (Nat × Nat)

namespace Ranges

def covers (n : Nat) : Ranges → Bool
  | [] => false
  | (lo, hi) :: rest => !(n < lo) && (n ≤ hi || covers n rest)

def OrderedFrom (least : Nat) : Ranges → Prop
  | [] => True
  | (lo, hi) :: rest => least ≤ lo ∧ lo ≤ hi ∧ OrderedFrom (hi + 1) rest

instance decideOrdered : (least : Nat) → (table : Ranges) → Decidable (OrderedFrom least table)
  | _, [] => isTrue trivial
  | least, (lo, hi) :: rest =>
    have := decideOrdered (hi + 1) rest
    inferInstanceAs (Decidable (least ≤ lo ∧ lo ≤ hi ∧ OrderedFrom (hi + 1) rest))

theorem OrderedFrom.le {least : Nat} {table : Ranges} (ordered : OrderedFrom least table)
    {r : Nat × Nat} (member : r ∈ table) : least ≤ r.1 := by
  induction table generalizing least with
  | nil => nomatch member
  | cons first rest ih =>
    obtain ⟨low, nonempty, tail⟩ := ordered
    rcases List.mem_cons.mp member with rfl | later
    · exact low
    · have := ih tail later
      omega

theorem covers_iff {least : Nat} {table : Ranges} (ordered : OrderedFrom least table) (n : Nat) :
    covers n table = true ↔ ∃ r ∈ table, r.1 ≤ n ∧ n ≤ r.2 := by
  induction table generalizing least with
  | nil => simp [covers]
  | cons first rest ih =>
    obtain ⟨lo, hi⟩ := first
    obtain ⟨_, _, tail⟩ := ordered
    simp only [covers, Bool.and_eq_true, Bool.not_eq_true', decide_eq_false_iff_not, Nat.not_lt,
      Bool.or_eq_true, decide_eq_true_eq, ih tail, List.mem_cons]
    constructor
    · rintro ⟨low, high | ⟨r, member, bounds⟩⟩
      · exact ⟨_, Or.inl rfl, low, high⟩
      · exact ⟨r, Or.inr member, bounds⟩
    · rintro ⟨r, rfl | member, low, high⟩
      · exact ⟨low, Or.inl high⟩
      · have := tail.le member
        exact ⟨by omega, Or.inr ⟨r, member, low, high⟩⟩

end Ranges
end TreeVisit.Text
