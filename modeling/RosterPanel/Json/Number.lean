import RosterPanel.Json.Binary64

/-!
# Numbers

A number is a whole number from `-2^63` to `2^64 - 1`, or a double. Which of the two a numeral
stands for depends on how it is written: a fraction, an exponent, a size out of that range and
the text `-0` all give a double.
-/

namespace RosterPanel.Json

inductive Number
  | integer (value : Int)
  | double (value : Binary64)
deriving DecidableEq, Repr

namespace Number

/-- The text of a number: whole numbers in decimal, doubles as `Binary64.chars` writes them. -/
def chars : Number → List Char
  | .integer (.ofNat n) => Nat.toDigits 10 n
  | .integer (.negSucc n) => '-' :: Nat.toDigits 10 (n + 1)
  | .double x => x.chars

end Number

/-- A numeral taken apart: sign, digits before and after the point, and exponent. `fraction` and
`exponent` are absent when the text has no such part. -/
structure Numeral where
  negative : Bool
  whole : List Nat
  fraction : Option (List Nat)
  exponent : Option Int
deriving DecidableEq, Repr

namespace Numeral

def digit (c : Char) : Nat := c.toNat - '0'.toNat

/-- The digits that a text starts with, and the rest. -/
def digits (cs : List Char) : List Nat × List Char :=
  ((cs.takeWhile Char.isDigit).map digit, cs.dropWhile Char.isDigit)

def sign (cs : List Char) : Bool × List Char :=
  match cs with
  | '-' :: rest => (true, rest)
  | _ => (false, cs)

/-- At least one digit, and no leading zero before another digit. -/
def whole? (cs : List Char) : Option (List Nat × List Char) :=
  match digits cs with
  | ([], _) => none
  | (0 :: _ :: _, _) => none
  | read => some read

/-- A point with at least one digit after it, or nothing. -/
def fraction? (cs : List Char) : Option (Option (List Nat) × List Char) :=
  match cs with
  | '.' :: rest =>
    match digits rest with
    | ([], _) => none
    | (ds, rest) => some (some ds, rest)
  | _ => some (none, cs)

/-- The number written by decimal digits. -/
def value (ds : List Nat) : Nat := ds.foldl (fun n d => 10 * n + d) 0

/-- `e` or `E`, an optional sign and at least one digit, or nothing. -/
def exponent? (cs : List Char) : Option (Option Int × List Char) :=
  match cs with
  | c :: rest =>
    if c = 'e' || c = 'E' then
      let (negative, rest) :=
        match rest with
        | '+' :: rest => (false, rest)
        | '-' :: rest => (true, rest)
        | _ => (false, rest)
      match digits rest with
      | ([], _) => none
      | (ds, rest) => some (some (if negative then -(value ds : Int) else value ds), rest)
    else some (none, cs)
  | [] => some (none, cs)

/-- Reads a whole text as a numeral. -/
def ofChars? (cs : List Char) : Option Numeral := do
  let (negative, cs) := sign cs
  let (whole, cs) ← whole? cs
  let (fraction, cs) ← fraction? cs
  let (exponent, cs) ← exponent? cs
  if cs.isEmpty then some ⟨negative, whole, fraction, exponent⟩ else none

/-- Appends digits to a significand while it stays below `2 ^ 64`, as `parse_integer` of
`serde_json` does; gives the significand and how many digits were left over. -/
def absorb (significand : Nat) : List Nat → Nat × Nat
  | [] => (significand, 0)
  | d :: ds =>
    if 10 * significand + d < UInt64.size then absorb (10 * significand + d) ds
    else (significand, ds.length + 1)

/-- The number that a numeral stands for, if it is in range. Digits past the 64 bits of the
significand count as zeros before the point and are ignored after it. -/
def number? (n : Numeral) : Option Number :=
  let (significand, beyond) := absorb 0 n.whole
  if n.fraction.isNone && n.exponent.isNone && beyond == 0 then
    if !n.negative then some (.integer significand)
    else if 0 < significand ∧ significand ≤ UInt64.size / 2 then
      some (.integer (-(significand : Int)))
    else (Binary64.ofRatio? true significand 1).map .double
  else
    let fraction := n.fraction.getD []
    let (significand, ignored) := absorb significand fraction
    let exponent : Int := beyond - ((fraction.length - ignored : Nat) : Int) + n.exponent.getD 0
    (Binary64.ofDecimal? n.negative significand exponent).map .double

end Numeral

end RosterPanel.Json
