/-!
# Finite doubles

Finite binary64 numbers as exact triples (sign, mantissa, power of two), with rounding to the
nearest double and the shortest decimal digits that read back. All arithmetic is on whole numbers,
so every function can be evaluated inside the logic.
-/

namespace RosterPanel.Json

/-- The double `± mantissa · 2^exponent`. Numbers built here have `mantissa < 2^53` and
`-1074 ≤ exponent ≤ 971`, and `2^52 ≤ mantissa` unless the exponent is `-1074`. -/
structure Binary64 where
  negative : Bool
  mantissa : Nat
  exponent : Int
deriving DecidableEq, Repr

namespace Binary64

/-- The mantissas of normal doubles start at `2^52` and stay below twice that. -/
def leastNormal : Nat := 0x10000000000000

def zero (negative : Bool) : Binary64 := ⟨negative, 0, -1074⟩

def isZero (x : Binary64) : Bool := x.mantissa == 0

/-- `x · 2^k` as a quotient of whole numbers, for `x = numer / denom`. -/
def shift (numer denom : Nat) (k : Int) : Nat × Nat :=
  if 0 ≤ k then (numer * Nat.pow 2 k.toNat, denom) else (numer, denom * Nat.pow 2 (-k).toNat)

/-- The whole number nearest to `numer / denom`; a tie goes to the even one. -/
def roundQuotient (numer denom : Nat) : Nat :=
  let q := numer / denom
  let r := numer % denom
  if 2 * r < denom || (2 * r == denom && q % 2 == 0) then q else q + 1

/-- The largest `k` with `2^k ≤ numer / denom`, for positive `numer` and `denom`. -/
def floorLog2 (numer denom : Nat) : Int :=
  let k : Int := (numer.log2 : Int) - denom.log2
  let (n, d) := shift numer denom (-k)
  if d ≤ n then k else k - 1

/-- The double nearest to `± numer / denom`, ties to the even mantissa; none when that is
infinite. -/
def ofRatio? (negative : Bool) (numer denom : Nat) : Option Binary64 :=
  if numer = 0 then some (zero negative)
  else
    let e := max (floorLog2 numer denom - 52) (-1074)
    let (n, d) := shift numer denom (-e)
    let q := roundQuotient n d
    let (m, e) := if q = 2 * leastNormal then (leastNormal, e + 1) else (q, e)
    if 971 < e then none else some ⟨negative, m, e⟩

/-- The magnitude of a double as a quotient of whole numbers. -/
def ratio (x : Binary64) : Nat × Nat := shift x.mantissa 1 x.exponent

def mul? (x y : Binary64) : Option Binary64 :=
  ofRatio? (x.negative != y.negative) (x.ratio.1 * y.ratio.1) (x.ratio.2 * y.ratio.2)

/-- The quotient of two doubles, the second not zero. -/
def div? (x y : Binary64) : Option Binary64 :=
  ofRatio? (x.negative != y.negative) (x.ratio.1 * y.ratio.2) (x.ratio.2 * y.ratio.1)

/-- The double nearest to `10^k`, for `k ≤ 308`. -/
def powerOfTen (k : Nat) : Binary64 := (ofRatio? false (Nat.pow 10 k) 1).getD (zero false)

/-! ## From a decimal -/

/-- Divides by `10 ^ k`, at most 308 places a step, rounding after each step, as `f64_from_parts` of
`serde_json` does. -/
def scaleDown (x : Binary64) (k : Nat) : Option Binary64 :=
  if k ≤ 308 then x.div? (powerOfTen k)
  else if x.isZero then some x
  else do scaleDown (← x.div? (powerOfTen 308)) (k - 308)
termination_by k
decreasing_by omega

/-- Multiplies by `10^k` with one rounding; none when the product is out of range. -/
def scaleUp (x : Binary64) (k : Nat) : Option Binary64 :=
  if k ≤ 308 then x.mul? (powerOfTen k)
  else if x.isZero then some x
  else none

/-- Reads `± significand · 10^exponent`: the significand is rounded to a double first and then
scaled, each step with its own rounding. None when the number is out of range. -/
def ofDecimal? (negative : Bool) (significand : Nat) (exponent : Int) : Option Binary64 := do
  let x ← ofRatio? negative significand 1
  if 0 ≤ exponent then x.scaleUp exponent.toNat else x.scaleDown (-exponent).toNat

/-! ## Shortest digits -/

/-- How many decimal digits a whole number is written with. -/
def digitCount (n : Nat) : Nat := (Nat.toDigits 10 n).length

/-- The largest `k` with `10^k ≤ numer / denom`, for positive `numer` and `denom`. -/
def floorLog10 (numer denom : Nat) : Int :=
  if denom ≤ numer then (digitCount (numer / denom) : Int) - 1
  else -(digitCount ((denom - 1) / numer) : Int)

/-- A whole number without its trailing zeros, and how many they were. -/
def stripZeros (n : Nat) : Nat × Nat :=
  if n ≠ 0 ∧ n % 10 = 0 then
    let (m, k) := stripZeros (n / 10)
    (m, k + 1)
  else (n, 0)
termination_by n
decreasing_by omega

/-- A quarter of a double's last binary place in units of `10^place`, as a quotient of whole
numbers. -/
def quarter (x : Binary64) (place : Int) : Nat × Nat :=
  let (unit, denom) := shift 1 1 (x.exponent - 2)
  if 0 ≤ place then (unit, denom * Nat.pow 10 place.toNat)
  else (unit * Nat.pow 10 (-place).toNat, denom)

/-- How many quarters of its last place a double reaches down: half way to its neighbour. -/
def reach (x : Binary64) : Nat := if x.mantissa = leastNormal ∧ -1074 < x.exponent then 1 else 2

/-- Whether `c · 10^place` rounds to the magnitude of a double. The numbers that do reach half way
to its neighbours, the ends included when the mantissa is even. -/
def inReach (x : Binary64) (place : Int) (c : Nat) : Bool :=
  let (unit, denom) := x.quarter place
  let least := (4 * x.mantissa - x.reach) * unit
  let greatest := (4 * x.mantissa + 2) * unit
  if x.mantissa % 2 = 0 then least ≤ c * denom && c * denom ≤ greatest
  else least < c * denom && c * denom < greatest

/-- The multiple `c` of `10^place` that is nearest to the magnitude among those that round to it,
if there is one. -/
def nearestOnGrid? (x : Binary64) (place : Int) : Option Nat :=
  let (unit, denom) := x.quarter place
  let centre := 4 * x.mantissa * unit
  let below := centre / denom
  let above := below + 1
  let gapBelow := centre - below * denom
  let gapAbove := above * denom - centre
  match x.inReach place below, x.inReach place above with
  | true, true =>
    some (if gapBelow < gapAbove || (gapBelow == gapAbove && below % 2 == 0) then below else above)
  | true, false => some below
  | false, true => some above
  | false, false => none

/-- The shortest decimal that reads back as the magnitude of a double that is not zero, as `ryu`
finds it: its digits as a whole number without trailing zeros, and the place of the last one. Of two
equally short decimals it is the nearer. -/
def shortest (x : Binary64) : Nat × Int :=
  let (n, d) := x.ratio
  let top := floorLog10 n d
  let places : List Int := (List.range 17).map fun (i : Nat) => top - (i : Int)
  match places.findSome? fun p => (x.nearestOnGrid? p).map fun c => (c, p) with
  | some (c, p) =>
    let (c, k) := stripZeros c
    (c, p + k)
  | none => (x.mantissa, x.exponent)

/-! ## Text -/

/-- Decimal exponents that are written positionally. -/
def isPositional (exponent : Int) : Bool := -5 ≤ exponent && exponent ≤ 15

/-- The text of the decimal `c · 10^place`: positional with at least one fractional digit for
decimal exponents from -5 to 15, and otherwise scientific with a signed exponent. -/
def decimalChars (c : Nat) (place : Int) : List Char :=
  let digits := Nat.toDigits 10 c
  let exponent := place + digits.length - 1
  if isPositional exponent then
    if 0 ≤ place then digits ++ List.replicate place.toNat '0' ++ ['.', '0']
    else if 0 ≤ exponent then
      digits.take (exponent.toNat + 1) ++ '.' :: digits.drop (exponent.toNat + 1)
    else '0' :: '.' :: List.replicate (-exponent - 1).toNat '0' ++ digits
  else
    let mark := if exponent < 0 then ['e', '-'] else ['e', '+']
    let power := mark ++ Nat.toDigits 10 exponent.natAbs
    match digits with
    | [d] => d :: power
    | d :: rest => d :: '.' :: rest ++ power
    | [] => power

/-- The text of a double: its sign, and its shortest digits. -/
def chars (x : Binary64) : List Char :=
  let sign := if x.negative then ['-'] else []
  if x.isZero then sign ++ ['0', '.', '0']
  else sign ++ decimalChars x.shortest.1 x.shortest.2

end Binary64

end RosterPanel.Json
