/- Reading decimals as binary floats. The digits are first gathered into one 64-bit number, as many
   as fit; the float next to that number is then multiplied or divided by a power of ten, so a long
   or extreme decimal may miss the nearest float by its last place. -/
namespace TreeVisit.Decimal

/-- The float nearest to a whole number, a tie going to the even neighbour. -/
def floatOfNat (n : Nat) : Float := Float.ofScientific n false 0

def floatOfInt (n : Int) : Float :=
  if n < 0 then -floatOfNat n.natAbs else floatOfNat n.natAbs

def maxPower : Nat := 308

def powerOfTen (n : Nat) : Float := Float.ofScientific 1 false n

def shrink (x : Float) (power : Nat) : Float :=
  if maxPower < power then
    if x == 0 then x else shrink (x / powerOfTen maxPower) (power - maxPower)
  else x / powerOfTen power
termination_by power
decreasing_by simp only [maxPower] at *; omega

def floatOf? (significand : Nat) (exponent : Int) : Option Float :=
  let x := floatOfNat significand
  match exponent with
  | .ofNat power =>
    if maxPower < power then
      if x == 0 then some x else none
    else
      let scaled := x * powerOfTen power
      if scaled.isInf then none else some scaled
  | .negSucc power => some (shrink x (power + 1))

/-- Appends digits to a number as long as it stays within a limit; the digits left out follow. -/
def gather (limit : Nat) : Nat → List Nat → Nat × List Nat
  | n, [] => (n, [])
  | n, d :: rest => if limit < n * 10 + d then (n, d :: rest) else gather limit (n * 10 + d) rest

end TreeVisit.Decimal
