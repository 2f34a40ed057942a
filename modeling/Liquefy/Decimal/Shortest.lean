/-!
# The shortest decimal of a binary floating point number

A finite binary64 number is `mantissa * 2 ^ exponent`. Of the decimals that round to it, the
shortest is the one with the fewest digits, and among those the nearest; a tie goes to the even
digit. The search tries one digit, two digits and so on: for each count it looks at the two
neighbours of the number on the grid of decimals with that many digits, in exact arithmetic.
-/

namespace Liquefy

/-- The decimal `digits * 10 ^ exponent`. -/
structure Decimal where
  digits : Nat
  exponent : Int
  deriving DecidableEq, Repr

namespace Decimal

/-- The magnitude of a finite binary64 number. -/
structure Binary where
  mantissa : Nat
  exponent : Int
  /-- The next smaller number is only half as far away as the next larger one. -/
  tight : Bool

/-- The magnitude that the low 63 bits of a finite number stand for. -/
def Binary.ofBits (bits : UInt64) : Binary :=
  let hidden := Nat.pow 2 52
  let fraction := bits.toNat % hidden
  let scale := bits.toNat / hidden % 2048
  if scale = 0 then ⟨fraction, -1074, false⟩
  else ⟨hidden + fraction, (scale : Int) - 1075, fraction = 0 && scale != 1⟩

/-- A number with the numbers that round to it, as fractions over one denominator. -/
structure Interval where
  low : Nat
  value : Nat
  high : Nat
  denominator : Nat
  /-- The ends themselves round to the number. -/
  closed : Bool

/-- The numbers that round to `b`: half way to its neighbours on both sides. -/
def Binary.interval (b : Binary) : Interval :=
  let unit := Nat.pow 2 (b.exponent - 2).toNat
  let value := 4 * b.mantissa * unit
  { low := value - (if b.tight then unit else 2 * unit)
    value
    high := value + 2 * unit
    denominator := Nat.pow 2 (2 - b.exponent).toNat
    closed := b.mantissa % 2 = 0 }

/-- The least `z` from `z₀` on, within the given number of steps, with `10 ^ z * n ≥ d`. -/
def firstReaching (n d : Nat) : (steps z : Nat) → Nat
  | 0, z => z
  | steps + 1, z => if Nat.pow 10 z * n ≥ d then z else firstReaching n d steps (z + 1)

/-- The `p` with `10 ^ (p - 1) ≤ value < 10 ^ p`, for a positive value. -/
def Interval.magnitude (i : Interval) : Int :=
  if i.value ≥ i.denominator then (Nat.toDigits 10 (i.value / i.denominator)).length
  else 1 - (firstReaching i.value i.denominator 400 1 : Int)

/-- The best decimal `digits * 10 ^ exponent` inside the interval, if there is one. -/
def Interval.onGrid (i : Interval) (exponent : Int) : Option Decimal :=
  let up := Nat.pow 10 (-exponent).toNat
  let step := i.denominator * Nat.pow 10 exponent.toNat
  let value := i.value * up
  let inside (n : Nat) : Bool :=
    if i.closed then i.low * up ≤ n * step && n * step ≤ i.high * up
    else i.low * up < n * step && n * step < i.high * up
  let below := value / step
  let above := below + 1
  match inside below, inside above with
  | false, false => none
  | true, false => some ⟨below, exponent⟩
  | false, true => some ⟨above, exponent⟩
  | true, true =>
      let fromBelow := value - below * step
      let fromAbove := above * step - value
      if fromBelow < fromAbove || (fromBelow == fromAbove && below % 2 == 0) then
        some ⟨below, exponent⟩
      else some ⟨above, exponent⟩

/-- A power of ten reached from just below has two digits on the grid of one digit. -/
def carried (d : Decimal) : Decimal :=
  if d.digits = 10 then ⟨1, d.exponent + 1⟩ else d

/-- The shortest decimal that rounds to a positive number. Seventeen digits always suffice. -/
def Binary.shortest (b : Binary) : Decimal :=
  let i := b.interval
  let found := (List.range 17).findSome? fun n => i.onGrid (i.magnitude - (n + 1 : Nat))
  (found.getD ⟨b.mantissa, 0⟩).carried

end Decimal

end Liquefy
