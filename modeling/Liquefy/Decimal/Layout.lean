import Liquefy.Decimal.Shortest

/-!
# Writing floating point numbers

Numbers from `10 ^ -5` up to `10 ^ 16` are written positionally and always keep a decimal point;
outside that range one digit stands before the point and the exponent carries its sign.
-/

namespace Liquefy.Decimal

/-- The decimal digits of a number. -/
def digitsOf (n : Nat) : List Char := Nat.toDigits 10 n

/-- `digits * 10 ^ exponent` in its written form. -/
def shown (d : Decimal) : List Char :=
  let digits := digitsOf d.digits
  let point := digits.length + d.exponent
  if 0 ≤ d.exponent ∧ point ≤ 16 then
    digits ++ List.replicate d.exponent.toNat '0' ++ ['.', '0']
  else if 0 < point ∧ point ≤ 16 then
    digits.take point.toNat ++ ['.'] ++ digits.drop point.toNat
  else if -5 < point ∧ point ≤ 0 then
    ['0', '.'] ++ List.replicate (-point).toNat '0' ++ digits
  else
    let lead := digits.take 1 ++ (if digits.length = 1 then [] else '.' :: digits.drop 1)
    let scale := point - 1
    lead ++ ['e', if scale < 0 then '-' else '+'] ++ digitsOf scale.natAbs

/-- The shortest text of the finite number with these bits. -/
def shownBits (bits : UInt64) : String :=
  let sign := if bits.toNat ≥ Nat.pow 2 63 then ['-'] else []
  let b := Binary.ofBits bits
  String.ofList (sign ++ (if b.mantissa = 0 then ['0', '.', '0'] else b.shortest.shown))

end Liquefy.Decimal
