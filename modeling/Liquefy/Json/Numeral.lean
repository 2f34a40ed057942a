import Liquefy.Json.Reader

/-!
# JSON numbers

A whole number that fits 64 bits is kept exactly. Any other number becomes a binary64 number: its
leading digits, as many as fit 64 unsigned bits, are scaled by one power of ten. A number too
large for binary64 is refused. Skimming passes over a number whose value nobody asks for.
-/

namespace Liquefy.Json

/-- The value of a JSON number. -/
inductive Numeral where
  | integer (n : Int)
  /-- A number that is not whole, or too large to be kept whole, by its binary64 bits. -/
  | float (bits : UInt64)
  deriving DecidableEq, Repr

/-- The number as something found in a wrong place. -/
def Numeral.found : Numeral → Found
  | .integer n => .integer n
  | .float bits => .float bits

/-! ### Digits -/

/-- A decimal digit. -/
def isDigit (c : Char) : Bool := '0' ≤ c && c ≤ '9'

/-- The value of a decimal digit. -/
def digitValue (c : Char) : Nat := c.toNat - '0'.toNat

/-- The largest significand. -/
def maxSignificand : Nat := 18446744073709551615

/-- Append digits to a significand while it fits; the second part counts the digits left over. -/
def absorb (significand : Nat) : List Char → Nat × Nat
  | [] => (significand, 0)
  | c :: cs =>
      let next := significand * 10 + digitValue c
      if next ≤ maxSignificand then absorb next cs else (significand, (c :: cs).length)

/-- The value of a run of digits. -/
def digitsValue (digits : List Char) : Nat :=
  digits.foldl (fun n c => n * 10 + digitValue c) 0

/-! ### Binary64 values -/

/-- Scale by a power of ten. A large negative power is applied in portions; a result beyond
binary64 gives nothing. -/
def scale (x : Float) (exponent : Int) : Option Float :=
  if exponent.natAbs ≤ 308 then
    let power := Float.ofScientific 1 false exponent.natAbs
    if 0 ≤ exponent then
      let y := x * power
      if y.isInf then none else some y
    else some (x / power)
  else if x == 0 then some x
  else if 0 ≤ exponent then none
  else scale (x / 1e308) (exponent + 308)
termination_by exponent.natAbs
decreasing_by omega

/-- The binary64 number for a significand, a power of ten and a sign. -/
def floatOf (negative : Bool) (significand : Nat) (exponent : Int) : Except Fault Numeral :=
  match scale significand.toUInt64.toFloat exponent with
  | none => .error (.malformed .numberOutOfRange)
  | some x => .ok (.float (if negative then -x else x).toBits)

/-- The largest magnitude of a negative number that is kept whole. -/
def maxMagnitude : Nat := 9223372036854775808

/-- A number without fraction and exponent. A negative zero, and a number that does not fit 64
bits, are not kept whole. -/
def wholeOf (negative : Bool) (significand leftOver : Nat) : Except Fault Numeral :=
  if leftOver ≠ 0 then floatOf negative significand leftOver
  else if negative then
    if significand ≠ 0 ∧ significand ≤ maxMagnitude then .ok (.integer (-significand))
    else floatOf true significand 0
  else .ok (.integer significand)

/-! ### Spelling -/

/-- The written parts of a number, its sign apart. -/
structure Spelling where
  whole : List Char
  /-- The digits after the point; a number without a point has none. -/
  fraction : List Char
  /-- The exponent with the flag of a minus sign. -/
  exponent : Option (Bool × List Char)

/-- The whole part; a leading zero stands alone. -/
def scanWhole (cs : List Char) : Result (List Char) :=
  match cs with
  | [] => .error (.truncated .value)
  | c :: rest =>
      if c = '0' then
        if rest.head?.any isDigit then .error (.malformed .invalidNumber) else .ok ([c], rest)
      else if isDigit c then .ok (cs.takeWhile isDigit, cs.dropWhile isDigit)
      else .error (.malformed .invalidNumber)

/-- One digit or more. -/
def scanDigits (cs : List Char) : Result (List Char) :=
  match cs with
  | [] => .error (.truncated .value)
  | c :: _ =>
      if isDigit c then .ok (cs.takeWhile isDigit, cs.dropWhile isDigit)
      else .error (.malformed .invalidNumber)

/-- The fraction, if a point follows. -/
def scanFraction (cs : List Char) : Result (List Char) :=
  match cs with
  | '.' :: rest => scanDigits rest
  | _ => .ok ([], cs)

/-- The sign of an exponent, as the flag of a minus sign. -/
def scanSign (cs : List Char) : Bool × List Char :=
  match cs with
  | '+' :: rest => (false, rest)
  | '-' :: rest => (true, rest)
  | _ => (false, cs)

/-- The exponent, if its mark follows. -/
def scanExponent (cs : List Char) : Result (Option (Bool × List Char)) :=
  match cs with
  | [] => .ok (none, [])
  | c :: rest =>
      if c = 'e' ∨ c = 'E' then
        match scanDigits (scanSign rest).2 with
        | .error fault => .error fault
        | .ok (digits, rest') => .ok (some ((scanSign rest).1, digits), rest')
      else .ok (none, cs)

/-- The parts of a number after its sign. -/
def scanNumeral (cs : List Char) : Result Spelling :=
  match scanWhole cs with
  | .error fault => .error fault
  | .ok (whole, rest) =>
      match scanFraction rest with
      | .error fault => .error fault
      | .ok (fraction, rest') =>
          match scanExponent rest' with
          | .error fault => .error fault
          | .ok (exponent, rest'') => .ok (⟨whole, fraction, exponent⟩, rest'')

/-- The power of ten that the exponent stands for. -/
def Spelling.shift (spelling : Spelling) : Int :=
  match spelling.exponent with
  | none => 0
  | some (negative, digits) => if negative then -digitsValue digits else digitsValue digits

/-- The value of a number. -/
def Spelling.value (spelling : Spelling) (negative : Bool) : Except Fault Numeral :=
  let (significand, leftOver) := absorb 0 spelling.whole
  if spelling.fraction = [] ∧ spelling.exponent = none then wholeOf negative significand leftOver
  else
    let (significand, unused) := absorb significand spelling.fraction
    let places := spelling.fraction.length - unused
    floatOf negative significand ((leftOver : Int) - places + spelling.shift)

/-- A number after its sign. -/
def numeral (negative : Bool) (cs : List Char) : Result Numeral :=
  match scanNumeral cs with
  | .error fault => .error fault
  | .ok (spelling, rest) =>
      match spelling.value negative with
      | .error fault => .error fault
      | .ok x => .ok (x, rest)

/-- The text after a number that nobody asks for, from after its sign. Here a number that ends too
early is malformed as any other. -/
def skimNumeral (cs : List Char) : Except Fault (List Char) :=
  match scanNumeral cs with
  | .error _ => .error (.malformed .invalidNumber)
  | .ok (_, rest) => .ok rest

/-! ### Reading shortens the text -/

theorem length_dropWhile_isDigit_lt {c : Char} {cs : List Char} (h : isDigit c = true) :
    ((c :: cs).dropWhile isDigit).length < (c :: cs).length := by
  rw [List.dropWhile_cons_of_pos h]
  exact Nat.lt_succ_of_le (List.dropWhile_suffix isDigit).length_le

theorem length_lt_of_scanWhole {cs whole rest : List Char}
    (h : scanWhole cs = .ok (whole, rest)) : rest.length < cs.length := by
  cases cs with
  | nil => simp [scanWhole] at h
  | cons c cs =>
      simp only [scanWhole] at h
      split at h
      · split at h
        · simp at h
        · cases h; simp
      · split at h
        · rename_i digit
          cases h; exact length_dropWhile_isDigit_lt digit
        · simp at h

theorem length_lt_of_scanDigits {cs digits rest : List Char}
    (h : scanDigits cs = .ok (digits, rest)) : rest.length < cs.length := by
  cases cs with
  | nil => simp [scanDigits] at h
  | cons c cs =>
      simp only [scanDigits] at h
      split at h
      · rename_i digit
        cases h; exact length_dropWhile_isDigit_lt digit
      · simp at h

theorem length_le_of_scanFraction {cs fraction rest : List Char}
    (h : scanFraction cs = .ok (fraction, rest)) : rest.length ≤ cs.length := by
  rw [scanFraction.eq_def] at h
  split at h
  · have := length_lt_of_scanDigits h
    simp only [List.length_cons]; omega
  · cases h; exact Nat.le_refl _

theorem length_scanSign_le (cs : List Char) : (scanSign cs).2.length ≤ cs.length := by
  rw [scanSign.eq_def]
  split <;> simp

theorem length_le_of_scanExponent {cs rest : List Char} {exponent : Option (Bool × List Char)}
    (h : scanExponent cs = .ok (exponent, rest)) : rest.length ≤ cs.length := by
  cases cs with
  | nil => simp [scanExponent] at h; simp [h.2]
  | cons c cs =>
      simp only [scanExponent] at h
      split at h
      · split at h
        · simp at h
        · rename_i digits rest' scanned
          have := length_lt_of_scanDigits scanned
          have := length_scanSign_le cs
          cases h
          simp only [List.length_cons]; omega
      · cases h; exact Nat.le_refl _

theorem length_lt_of_scanNumeral {cs rest : List Char} {spelling : Spelling}
    (h : scanNumeral cs = .ok (spelling, rest)) : rest.length < cs.length := by
  rw [scanNumeral] at h
  split at h
  · simp at h
  · rename_i whole rest₁ scannedWhole
    split at h
    · simp at h
    · rename_i fraction rest₂ scannedFraction
      split at h
      · simp at h
      · rename_i exponent rest₃ scannedExponent
        have := length_lt_of_scanWhole scannedWhole
        have := length_le_of_scanFraction scannedFraction
        have := length_le_of_scanExponent scannedExponent
        cases h
        omega

theorem length_lt_of_numeral {negative : Bool} {cs rest : List Char} {x : Numeral}
    (h : numeral negative cs = .ok (x, rest)) : rest.length < cs.length := by
  rw [numeral] at h
  split at h
  · simp at h
  · rename_i spelling rest' scanned
    split at h
    · simp at h
    · cases h
      exact length_lt_of_scanNumeral scanned

theorem length_lt_of_skimNumeral {cs rest : List Char} (h : skimNumeral cs = .ok rest) :
    rest.length < cs.length := by
  rw [skimNumeral] at h
  split at h
  · simp at h
  · rename_i spelling rest' scanned
    cases h
    exact length_lt_of_scanNumeral scanned

end Liquefy.Json
