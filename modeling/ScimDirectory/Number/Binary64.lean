import ScimDirectory.Number.Digits

/-!
# Binary floating-point numbers of 64 bits

A number is its IEEE 754 word, and everything about it is computed on natural numbers: the
exact value of a finite word, the word nearest to a product, a quotient or a decimal, and the
shortest decimal that leads back to a word.
-/

namespace ScimDirectory

/-- An IEEE 754 binary64 word: sign, 11 bits of exponent, 52 bits of fraction. -/
structure Binary64 where
  /-- The word itself. -/
  bits : UInt64
  deriving DecidableEq

namespace Binary64

/-- The word less its sign. -/
def magnitude (x : Binary64) : Nat := x.bits.toNat % Nat.pow 2 63

/-- Whether the sign bit is set, also on a zero. -/
def isNegative (x : Binary64) : Bool := Nat.pow 2 63 ≤ x.bits.toNat

/-- The magnitude of both infinities; above it stand words that are no number. -/
def infiniteMagnitude : Nat := 0x7FF0000000000000

/-- The significand of a finite magnitude. -/
def significand (magnitude : Nat) : Nat :=
  if magnitude < Nat.pow 2 52 then magnitude else Nat.pow 2 52 + magnitude % Nat.pow 2 52

/-- The power of two that scales the significand of a finite magnitude. -/
def scale (magnitude : Nat) : Int :=
  if magnitude < Nat.pow 2 52 then -1074 else Int.ofNat (magnitude / Nat.pow 2 52) - 1075

/-- The word of a sign and a magnitude. -/
def ofMagnitude (negative : Bool) (magnitude : Nat) : Binary64 :=
  ⟨UInt64.ofNat (if negative then Nat.pow 2 63 + magnitude else magnitude)⟩

/-- The integer nearest to a quotient, the even one of two that are equally near. -/
def roundQuotient (num den : Nat) : Nat :=
  let below := num / den
  let twice := 2 * (num % den)
  if twice < den ∨ (twice = den ∧ below % 2 = 0) then below else below + 1

/-- The numerator and denominator of `num / den · base ^ exponent`. -/
def scaled (num den base : Nat) (exponent : Int) : Nat × Nat :=
  match exponent with
  | .ofNat e => (num * Nat.pow base e, den)
  | .negSucc e => (num, den * Nat.pow base (e + 1))

/-- The largest `e` with `2 ^ e ≤ num / den`, for a positive quotient. -/
def binaryExponent (num den : Nat) : Int :=
  let guess := Int.ofNat num.log2 - Int.ofNat den.log2
  let (n, d) := scaled num den 2 (-guess)
  if d ≤ n then guess else guess - 1

/-- The magnitude nearest to a positive quotient. Rounding up past the largest significand
moves to the next exponent, and past the largest exponent to infinity. -/
def nearestMagnitude (num den : Nat) : Nat :=
  let exponent := max (binaryExponent num den - 52) (-1074)
  let (n, d) := scaled num den 2 (-exponent)
  min ((exponent + 1074).toNat * Nat.pow 2 52 + roundQuotient n d) infiniteMagnitude

/-- The magnitude nearest to the product of two finite magnitudes. -/
def productMagnitude (a b : Nat) : Nat :=
  if a = 0 ∨ b = 0 then 0
  else
    let (num, den) := scaled (significand a * significand b) 1 2 (scale a + scale b)
    nearestMagnitude num den

/-- The magnitude nearest to the quotient of a finite magnitude by a positive one. -/
def quotientMagnitude (a b : Nat) : Nat :=
  if a = 0 then 0
  else
    let (num, den) := scaled (significand a) (significand b) 2 (scale a - scale b)
    nearestMagnitude num den

/-- The word nearest to `digits · 10 ^ exponent`. Far beyond either end of the range the
power of ten is not worked out. -/
def ofDecimal (negative : Bool) (digits : Nat) (exponent : Int) : Binary64 :=
  ofMagnitude negative <|
    if digits = 0 ∨ exponent + Int.ofNat digits.log2 < -400 then 0
    else if 400 < exponent then infiniteMagnitude
    else
      let (num, den) := scaled digits 1 10 exponent
      nearestMagnitude num den

/-- The sign that a decimal starts with, and what follows it. -/
def splitSign : List Char → Bool × List Char
  | '-' :: rest => (true, rest)
  | '+' :: rest => (false, rest)
  | text => (false, text)

/-- The exponent after the digits of a decimal: nothing, or `e` and a signed integer. -/
def exponent? : List Char → Option Int
  | [] => some 0
  | c :: rest =>
    if c = 'e' ∨ c = 'E' then
      let (negative, digits) := splitSign rest
      if digits.isEmpty ∨ !digits.all Char.isDigit then none
      else
        let n := Int.ofNat (Digits.value digits)
        some (if negative then -n else n)
    else none

/-- Reads a decimal: a sign, digits with or without a point among or beside them, and an
exponent. At least one digit stands before the exponent. -/
def ofText? (text : List Char) : Option Binary64 :=
  let (negative, unsigned) := splitSign text
  let whole := unsigned.takeWhile Char.isDigit
  let rest := unsigned.dropWhile Char.isDigit
  let (fraction, rest) := match rest with
    | '.' :: rest => (rest.takeWhile Char.isDigit, rest.dropWhile Char.isDigit)
    | _ => ([], rest)
  if whole.isEmpty ∧ fraction.isEmpty then none
  else (exponent? rest).map fun exponent =>
    ofDecimal negative (Digits.value (whole ++ fraction)) (exponent - Int.ofNat fraction.length)

/-- The reals that round to a finite magnitude, in quarters of its last place: the value, both
ends, and whether the ends belong. -/
structure Rounding where
  /-- The value. -/
  value : Nat
  /-- The lower end. -/
  low : Nat
  /-- The upper end. -/
  high : Nat
  /-- The common denominator. -/
  unit : Nat
  /-- Ends round to the even neighbour, so they belong when the significand is even. -/
  closed : Bool

/-- The reals that round to a finite positive magnitude. Below a power of two the places are
half as wide. -/
def Rounding.ofMagnitude (magnitude : Nat) : Rounding :=
  let m := significand magnitude
  let down := if m = Nat.pow 2 52 ∧ -1074 < scale magnitude then 1 else 2
  let (factor, unit) := scaled 1 1 2 (scale magnitude - 2)
  ⟨4 * m * factor, (4 * m - down) * factor, (4 * m + 2) * factor, unit, m % 2 = 0⟩

/-- Whether `digits · 10 ^ exponent` rounds to the value. -/
def Rounding.admits (r : Rounding) (digits : Nat) (exponent : Int) : Bool :=
  let (num, den) := scaled digits 1 10 exponent
  let (low, point, high) := (r.low * den, num * r.unit, r.high * den)
  if r.closed then low ≤ point && point ≤ high else low < point && point < high

/-- The multiple of `10 ^ exponent` that rounds to the value and is nearest to it, the greater
of two that are equally near. Only the two neighbours of the value can be. -/
def Rounding.onGrid? (r : Rounding) (exponent : Int) : Option Nat :=
  let (num, den) := scaled r.value r.unit 10 (-exponent)
  let below := num / den
  let nearBelow := 2 * (num % den) < den
  match r.admits below exponent, r.admits (below + 1) exponent with
  | true, true => some (if nearBelow then below else below + 1)
  | true, false => some below
  | false, true => some (below + 1)
  | false, false => none

/-- The number of places before the point, which is zero or negative for a value below one
tenth. -/
def Rounding.places (r : Rounding) : Int :=
  let guess := (binaryExponent r.value r.unit * 30103) / 100000
  let below (k : Int) : Bool :=
    let (num, den) := scaled r.value r.unit 10 (-k)
    num < den
  ([guess - 1, guess, guess + 1, guess + 2].find? below).getD (guess + 2)

/-- The shortest decimal that rounds to the value, as digits and a power of ten. Seventeen
digits always suffice. -/
def Rounding.shortest (r : Rounding) : Nat × Int :=
  let places := r.places
  let candidate (count : Nat) : Option (Nat × Int) :=
    let exponent := places - Int.ofNat count
    (r.onGrid? exponent).map fun digits => (digits, exponent)
  (((List.range 17).map (· + 1)).findSome? candidate).getD (0, 0)

/-- A decimal without an exponent part and without a point that nothing follows. -/
def positional (digits : Nat) : Int → List Char
  | .ofNat e => Nat.toDigits 10 digits ++ List.replicate e '0'
  | .negSucc e =>
    let places := e + 1
    let ds := Nat.toDigits 10 digits
    let padded := List.replicate (places + 1 - ds.length) '0' ++ ds
    let whole := padded.take (padded.length - places)
    let fraction := ((padded.drop (padded.length - places)).reverse.dropWhile (· == '0')).reverse
    if fraction.isEmpty then whole else whole ++ '.' :: fraction

/-- The text of a number: the shortest decimal that leads back to it, always positional. -/
def toText (x : Binary64) : String :=
  let magnitude := x.magnitude
  if infiniteMagnitude < magnitude then "NaN"
  else
    let unsigned :=
      if magnitude = infiniteMagnitude then ['i', 'n', 'f']
      else if magnitude = 0 then ['0']
      else
        let (digits, exponent) := (Rounding.ofMagnitude magnitude).shortest
        positional digits exponent
    String.ofList (if x.isNegative then '-' :: unsigned else unsigned)

end Binary64
end ScimDirectory
