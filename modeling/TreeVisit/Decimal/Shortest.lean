/- The shortest decimal that reads back as a given binary float, in exact arithmetic.
   A float m · 2^e stands for every real that rounds to it: an interval whose ends are half way to
   its neighbours and belong to it when m is even. Grids of powers of ten are tried from coarse to
   fine, and on the first that meets the interval the point nearest to the float is taken. -/
namespace TreeVisit.Decimal

/-- The positive number `mantissa · 2^exponent`; the gap below it is half the gap above it when
    `narrow` holds, as at the powers of two. -/
structure Binary where
  mantissa : Nat
  exponent : Int
  narrow : Bool
  deriving DecidableEq, Repr

structure Scientific where
  coefficient : Nat
  exponent : Int
  deriving DecidableEq, Repr

namespace Binary

def ratio (base : Nat) (exponent : Int) : Nat × Nat :=
  (base.pow exponent.toNat, base.pow (-exponent).toNat)

/-- Four times the mantissa, so that both ends of the interval are whole numbers of that unit. -/
def centre (b : Binary) : Nat := 4 * b.mantissa
def low (b : Binary) : Nat := if b.narrow then b.centre - 1 else b.centre - 2
def high (b : Binary) : Nat := b.centre + 2

def scale (b : Binary) (place : Int) : Nat × Nat :=
  let two := ratio 2 (b.exponent - 2)
  let ten := ratio 10 place
  (two.1 * ten.2, two.2 * ten.1)

def rounds (b : Binary) (place : Int) (coefficient : Nat) : Bool :=
  let (num, den) := b.scale place
  let point := coefficient * den
  if b.mantissa % 2 = 0 then b.low * num ≤ point && point ≤ b.high * num
  else b.low * num < point && point < b.high * num

def nearest? (b : Binary) (place : Int) : Option Nat :=
  let (num, den) := b.scale place
  let value := b.centre * num
  let below := value / den
  let above := below + 1
  let toBelow := value - below * den
  let toAbove := above * den - value
  let belowFirst := toBelow < toAbove || (toBelow == toAbove && below % 2 == 0)
  let (first, second) := if belowFirst then (below, above) else (above, below)
  if b.rounds place first then some first
  else if b.rounds place second then some second
  else none

def search (b : Binary) (place : Int) : (tries : Nat) → Option Scientific
  | 0 => none
  | tries + 1 =>
    match b.nearest? place with
    | some coefficient => some ⟨coefficient, place⟩
    | none => b.search (place - 1) tries

def topPlace (b : Binary) : Int :=
  (Int.ofNat (Nat.log2 b.mantissa) + b.exponent + 1) * 30103 / 100000 + 1

/-- Seventeen digits always suffice, so the search ends in the first case. -/
def shortest (b : Binary) : Scientific :=
  (b.search b.topPlace 21).getD ⟨b.mantissa, b.exponent⟩

end Binary

def Binary.ofFloat (x : Float) : Binary :=
  let bits := x.toBits.toNat % Nat.pow 2 63
  let fraction := bits % Nat.pow 2 52
  let biased : Nat := bits / Nat.pow 2 52
  if biased = 0 then ⟨fraction, -1074, false⟩
  else ⟨Nat.pow 2 52 + fraction, Int.ofNat biased - 1075, fraction == 0 && 1 < biased⟩

def isNegative (x : Float) : Bool := x.toBits.toNat / Nat.pow 2 63 == 1

/-- How a number is laid out: positional while the decimal point falls behind at least `pointMin`
    and at most `pointMax` digits, counted from the first digit that is not zero. -/
structure FloatStyle where
  pointMin : Int
  pointMax : Int

def FloatStyle.layOut (style : FloatStyle) (s : Scientific) : List Char :=
  let digits := Nat.toDigits 10 s.coefficient
  let point := (digits.length : Int) + s.exponent
  if style.pointMin ≤ point && point ≤ style.pointMax then
    if 0 ≤ s.exponent then digits ++ List.replicate s.exponent.toNat '0' ++ ['.', '0']
    else if 0 < point then digits.take point.toNat ++ '.' :: digits.drop point.toNat
    else '0' :: '.' :: (List.replicate (-point).toNat '0' ++ digits)
  else
    let fraction := if digits.length ≤ 1 then [] else '.' :: digits.drop 1
    let power := point - 1
    digits.take 1 ++ fraction ++
      'e' :: (if power < 0 then '-' else '+') :: Nat.toDigits 10 power.natAbs

def FloatStyle.chars (style : FloatStyle) (x : Float) : List Char :=
  let magnitude :=
    if x == 0 then ['0', '.', '0'] else style.layOut (Binary.ofFloat x).shortest
  if isNegative x then '-' :: magnitude else magnitude

end TreeVisit.Decimal
