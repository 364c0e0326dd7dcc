import ScimDirectory.Json.Basic
import ScimDirectory.Number.Digits

/-!
# Numbers in JSON texts

A number without fraction and exponent that fits in a 64-bit word, signed or not, is an integer.
Every other number is a binary number, and so is minus zero, which no integer is. Its digits are
gathered in a significand of 64 bits, which is rounded to a binary number and then multiplied or
divided by a rounded power of ten. Since each step rounds, the result can miss the nearest binary
number in its last places. A result beyond the range of binary numbers is refused.
-/

namespace ScimDirectory.Json

/-- The digits of a number as far as they fit in a 64-bit word, and the power of ten that
scales them. -/
structure Numeral where
  /-- The number that the digits make up. -/
  significand : Nat
  /-- The power of ten. -/
  exponent : Int

namespace Numeral

/-- A significand with one digit more, if it still fits. -/
def extended? (significand : Nat) (digit : Char) : Option Nat :=
  let next := 10 * significand + Digits.value [digit]
  if next < Nat.pow 2 64 then some next else none

/-- The digits before the point, after those already in a significand. From the first one that
does not fit on they only count as places. -/
def ofWhole (significand : Nat) : List Char → Numeral
  | [] => ⟨significand, 0⟩
  | digit :: rest =>
    match extended? significand digit with
    | some next => ofWhole next rest
    | none => ⟨significand, Int.ofNat rest.length + 1⟩

/-- Adds the digits after the point. From the first one that does not fit on they are dropped. -/
def withFraction (n : Numeral) : List Char → Numeral
  | [] => n
  | digit :: rest =>
    match extended? n.significand digit with
    | some next => withFraction ⟨next, n.exponent - 1⟩ rest
    | none => n

/-- Adds a power of ten. -/
def shifted (n : Numeral) (exponent : Int) : Numeral := { n with exponent := n.exponent + exponent }

/-- The exponent of the greatest power of ten in the range of binary numbers. -/
def greatestPower : Nat := 308

/-- The magnitude nearest to a power of ten. -/
def powerOfTen (exponent : Nat) : Nat := Binary64.nearestMagnitude (Nat.pow 10 exponent) 1

/-- A magnitude times a power of ten, unless it is beyond the range. -/
def raised? (magnitude exponent : Nat) : Option Nat :=
  if magnitude = 0 then some 0
  else if greatestPower < exponent then none
  else
    let product := Binary64.productMagnitude magnitude (powerOfTen exponent)
    if product < Binary64.infiniteMagnitude then some product else none

/-- A magnitude divided by a power of ten, by the greatest one first where that is less. -/
def lowered (magnitude exponent : Nat) : Nat :=
  if magnitude = 0 then 0
  else if greatestPower < exponent then
    lowered (Binary64.quotientMagnitude magnitude (powerOfTen greatestPower))
      (exponent - greatestPower)
  else Binary64.quotientMagnitude magnitude (powerOfTen exponent)
termination_by exponent
decreasing_by simp only [greatestPower] at *; omega

/-- The magnitude that a numeral stands for, unless it is beyond the range. -/
def magnitude? (n : Numeral) : Option Nat :=
  let magnitude := if n.significand = 0 then 0 else Binary64.nearestMagnitude n.significand 1
  match n.exponent with
  | .ofNat exponent => raised? magnitude exponent
  | .negSucc exponent => some (lowered magnitude (exponent + 1))

/-- The digits, point and exponent of a number. A zero comes first only by itself before the
point, and no point stands without a digit after it. -/
def ofText? (text : List Char) : Option Numeral :=
  let whole := text.takeWhile Char.isDigit
  if whole.isEmpty ∨ (whole.head? = some '0' ∧ 1 < whole.length) then none
  else
    match text.dropWhile Char.isDigit with
    | '.' :: rest =>
      let fraction := rest.takeWhile Char.isDigit
      if fraction.isEmpty then none
      else
        (Binary64.exponent? (rest.dropWhile Char.isDigit)).map
          ((ofWhole 0 whole).withFraction fraction).shifted
    | rest => (Binary64.exponent? rest).map (ofWhole 0 whole).shifted

end Numeral

/-- The integer of a sign and digits, if it fits in a 64-bit word. -/
def integer? (negative : Bool) (digits : List Char) : Option Json :=
  let n := Digits.value digits
  if negative then (if 0 < n ∧ n ≤ Nat.pow 2 63 then some (.integer (-Int.ofNat n)) else none)
  else if n < Nat.pow 2 64 then some (.integer (Int.ofNat n))
  else none

/-- The number that a sign, digits, a point and an exponent stand for. -/
def numberOf? (text : List Char) : Option Json := do
  let negative := text.head? == some '-'
  let unsigned := if negative then text.drop 1 else text
  let numeral ← Numeral.ofText? unsigned
  match if unsigned.all Char.isDigit then integer? negative unsigned else none with
  | some json => some json
  | none => numeral.magnitude?.map fun magnitude => .real (.ofMagnitude negative magnitude)

end ScimDirectory.Json
