/-!
# Decimal numerals

A numeral as it is written: a sign, a whole number of digits and a power of ten,
or one of the words for infinity and for an undefined number. `Decimal.read?`
reads the numerals that players and files may write, and `Decimal.layout` writes
digits without an exponent, the only form the game prints.
-/

namespace Arithmancy

/-- A written number. -/
inductive Decimal where
  /-- The number `digits * 10 ^ exponent`, or its opposite. -/
  | finite (negative : Bool) (digits : Nat) (exponent : Int)
  /-- Infinity of either sign. -/
  | infinite (negative : Bool)
  /-- The word for a number that is none. -/
  | undefined
deriving DecidableEq, Repr

/-- The value of a list of decimal digits, the most significant first. -/
def digitsValue (cs : List Char) : Nat :=
  cs.foldl (fun n c => 10 * n + (c.toNat - 48)) 0

namespace Decimal

/-- Splits a leading sign off; without one the numeral is not negative. -/
def splitSign : List Char → Bool × List Char
  | '-' :: cs => (true, cs)
  | '+' :: cs => (false, cs)
  | cs => (false, cs)

/-- The exponent part of a numeral: nothing, or the letter, an optional sign
and at least one digit, up to the end. -/
def readExponent? : List Char → Option Int
  | [] => some 0
  | c :: cs =>
    if c = 'e' || c = 'E' then
      let (negative, ds) := splitSign cs
      if ds ≠ [] && ds.all Char.isDigit then
        some (if negative then -(digitsValue ds : Int) else digitsValue ds)
      else none
    else none

/-- Splits off the digits after a point, if there is a point. -/
def splitFraction : List Char → List Char × List Char
  | '.' :: cs => (cs.takeWhile Char.isDigit, cs.dropWhile Char.isDigit)
  | cs => ([], cs)

/-- The numeral without its sign: digits with at most one point, at least one
digit, then an optional exponent. -/
def readDigits? (negative : Bool) (cs : List Char) : Option Decimal :=
  let whole := cs.takeWhile Char.isDigit
  let (fraction, rest) := splitFraction (cs.dropWhile Char.isDigit)
  if whole = [] && fraction = [] then none
  else (readExponent? rest).map fun e =>
    finite negative (digitsValue (whole ++ fraction)) (e - fraction.length)

/-- **Reads a numeral**: an optional sign, then digits with an optional point
and exponent, or a word for infinity or for an undefined number in any case. -/
def read? (s : String) : Option Decimal :=
  let (negative, cs) := splitSign s.toList
  let word := cs.map Char.toLower
  if word = "inf".toList || word = "infinity".toList then some (infinite negative)
  else if word = "nan".toList then some undefined
  else readDigits? negative cs

/-- **Writes `digits * 10 ^ exponent` without an exponent**: zeros are appended
or a point is set, with a zero in front of a leading point. -/
def layout (digits : Nat) (exponent : Int) : String :=
  let ds := (toString digits).toList
  if 0 ≤ exponent then String.ofList (ds ++ List.replicate exponent.toNat '0')
  else
    let places := (-exponent).toNat
    let padded := List.replicate (places + 1 - ds.length) '0' ++ ds
    let whole := padded.length - places
    String.ofList (padded.take whole ++ '.' :: padded.drop whole)

end Decimal

end Arithmancy
