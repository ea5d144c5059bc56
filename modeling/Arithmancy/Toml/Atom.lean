import Arithmancy.Number.Shortest
import Arithmancy.Toml.Value

/-!
# Numbers, flags and moments

The values of a document that are written without any bracket or quote: flags,
integers in four bases, numbers with a point or an exponent, and moments. Single
underscores may stand between digits. An integer must fit into 128 bits, with or
without a sign, and a number with a point into a floating-point number.
-/

namespace Arithmancy

namespace Toml

/-! ## Digits -/

/-- The rest of a run of digits after its first: further digits, each with at most one
underscore before it. -/
def moreDigits (isDigit : Char → Bool) : List Char → List Char × List Char
  | '_' :: c :: cs =>
    if isDigit c then
      let (ds, rest) := moreDigits isDigit cs
      (c :: ds, rest)
    else ([], '_' :: c :: cs)
  | c :: cs =>
    if isDigit c then
      let (ds, rest) := moreDigits isDigit cs
      (c :: ds, rest)
    else ([], c :: cs)
  | [] => ([], [])

/-- A run of digits, at least one, without its underscores, and what follows. -/
def digitRun? (isDigit : Char → Bool) : List Char → Option (List Char × List Char)
  | c :: cs =>
    if isDigit c then
      let (ds, rest) := moreDigits isDigit cs
      some (c :: ds, rest)
    else none
  | [] => none

/-- The number that a digit of some base stands for. -/
def digitValue (c : Char) : Nat :=
  if c.isDigit then c.toNat - 48 else c.toLower.toNat - 87

/-- The value of digits in a base. -/
def baseValue (base : Nat) (ds : List Char) : Nat :=
  ds.foldl (fun n c => base * n + digitValue c) 0

/-- Whether a character is a digit of base sixteen. -/
def isHexDigit (c : Char) : Bool :=
  c.isDigit || ('a' ≤ c && c ≤ 'f') || ('A' ≤ c && c ≤ 'F')

/-- Whether a character is a digit of base eight. -/
def isOctalDigit (c : Char) : Bool := '0' ≤ c && c ≤ '7'

/-- Whether a character is a digit of base two. -/
def isBinaryDigit (c : Char) : Bool := c = '0' || c = '1'

/-! ## Numbers -/

/-- An integer in a base, of which nothing may be left over. -/
def inBase? (base : Nat) (isDigit : Char → Bool) (cs : List Char) : Option Value :=
  match digitRun? isDigit cs with
  | some (ds, []) => some (.integer (baseValue base ds))
  | _ => none

/-- A whole part: digits that do not start with a superfluous zero. -/
def wholePart? (cs : List Char) : Option (List Char × List Char) :=
  match digitRun? Char.isDigit cs with
  | some ('0' :: _ :: _, _) => none
  | run => run

/-- The fraction after a point, if there is a point. -/
def fractionPart? : List Char → Option (List Char × List Char)
  | '.' :: cs => digitRun? Char.isDigit cs
  | cs => some ([], cs)

/-- The exponent at the end, if there is one. -/
def exponentPart? : List Char → Option Int
  | [] => some 0
  | c :: cs =>
    if c = 'e' || c = 'E' then
      let (negative, ds) := Decimal.splitSign cs
      match digitRun? Char.isDigit ds with
      | some (ds, []) =>
        let n : Int := digitsValue ds
        some (if negative then -n else n)
      | _ => none
    else none

/-- A decimal number after its sign. It is an integer exactly if neither a point nor an
exponent follows its whole part. -/
def decimal? (negative : Bool) (cs : List Char) : Option Value := do
  let (whole, rest) ← wholePart? cs
  if rest = [] then
    let n : Int := digitsValue whole
    return .integer (if negative then -n else n)
  else
    let (fraction, rest) ← fractionPart? rest
    let exponent ← exponentPart? rest
    return .float (.finite negative (digitsValue (whole ++ fraction)) (exponent - fraction.length))

/-- A number: a word, an integer in a base, or a decimal number. -/
def number? (cs : List Char) : Option Value :=
  match cs with
  | '0' :: 'x' :: ds => inBase? 16 isHexDigit ds
  | '0' :: 'o' :: ds => inBase? 8 isOctalDigit ds
  | '0' :: 'b' :: ds => inBase? 2 isBinaryDigit ds
  | _ =>
    let (negative, ds) := Decimal.splitSign cs
    if ds = "inf".toList then some (.float (.infinite negative))
    else if ds = "nan".toList then some (.float .undefined)
    else decimal? negative ds

/-! ## Moments -/

/-- A number of a fixed count of digits, within bounds. -/
def field? (count low high : Nat) (cs : List Char) : Option (Nat × List Char) :=
  let ds := cs.take count
  let n := digitsValue ds
  if ds.length = count && ds.all Char.isDigit && low ≤ n && n ≤ high then some (n, cs.drop count)
  else none

/-- Expects one of some characters. -/
def expect? (accepted : List Char) : List Char → Option (List Char)
  | c :: cs => if accepted.contains c then some cs else none
  | [] => none

/-- The number of days of a month. -/
def daysInMonth (year month : Nat) : Nat :=
  if month = 2 then
    if year % 4 = 0 && (year % 100 ≠ 0 || year % 400 = 0) then 29 else 28
  else if [4, 6, 9, 11].contains month then 30
  else 31

/-- A date. -/
def date? (cs : List Char) : Option (List Char) := do
  let (year, cs) ← field? 4 0 9999 cs
  let cs ← expect? ['-'] cs
  let (month, cs) ← field? 2 1 12 cs
  let cs ← expect? ['-'] cs
  let (_, cs) ← field? 2 1 (daysInMonth year month) cs
  return cs

/-- A fraction of a second, if there is a point. -/
def secondFraction? : List Char → Option (List Char)
  | '.' :: c :: cs => if c.isDigit then some (cs.dropWhile Char.isDigit) else none
  | '.' :: [] => none
  | cs => some cs

/-- The seconds of a time of day, if they are given. -/
def seconds? : List Char → Option (List Char)
  | ':' :: cs => do
    let (_, cs) ← field? 2 0 60 cs
    secondFraction? cs
  | cs => some cs

/-- A time of day. -/
def time? (cs : List Char) : Option (List Char) := do
  let (_, cs) ← field? 2 0 23 cs
  let cs ← expect? [':'] cs
  let (_, cs) ← field? 2 0 59 cs
  seconds? cs

/-- An offset from universal time, if there is one. -/
def offset? : List Char → Option (List Char)
  | [] => some []
  | c :: cs =>
    if c = 'Z' || c = 'z' then some cs
    else if c = '+' || c = '-' then do
      let (_, cs) ← field? 2 0 23 cs
      let cs ← expect? [':'] cs
      let (_, cs) ← field? 2 0 59 cs
      return cs
    else none

/-- What may follow a date: nothing, or a time with an optional offset. -/
def afterDate? : List Char → Option (List Char)
  | [] => some []
  | c :: cs => if ['T', 't', ' '].contains c then time? cs >>= offset? else none

/-- Whether a text is a date, a time of day, or both. -/
def isMoment (cs : List Char) : Bool :=
  time? cs == some [] || (date? cs >>= afterDate?) == some []

/-! ## Atoms -/

/-- The integers that can be held start here. -/
def minInteger : Int := -0x80000000000000000000000000000000

/-- The integers that can be held end here. -/
def maxInteger : Int := 0xFFFFFFFFFFFFFFFFFFFFFFFFFFFFFFFF

/-- Whether a number is small enough to be held. Infinity in words is. -/
def isHeld : Value → Bool
  | .integer n => minInteger ≤ n && n ≤ maxInteger
  | .float (.finite negative digits exponent) =>
    (Binary64.ofDecimal (.finite negative digits exponent)).isFinite
  | _ => true

/-- **The value of an atom.** -/
def atom? (cs : List Char) : Option Value :=
  if cs = "true".toList then some (.boolean true)
  else if cs = "false".toList then some (.boolean false)
  else if isMoment cs then some (.moment (String.ofList cs))
  else (number? cs).filter isHeld

/-- Whether a character can be part of an atom. -/
def isAtomChar (c : Char) : Bool := c.isAlphanum || ['+', '-', '_', '.', ':'].contains c

/-- Splits an atom off: its characters, with a time that follows a date after a blank. -/
def splitAtom (cs : List Char) : List Char × List Char :=
  let first := cs.takeWhile isAtomChar
  match cs.dropWhile isAtomChar with
  | ' ' :: c :: rest =>
    if date? first == some [] && c.isDigit then
      (first ++ ' ' :: (c :: rest).takeWhile isAtomChar, (c :: rest).dropWhile isAtomChar)
    else (first, ' ' :: c :: rest)
  | rest => (first, rest)

end Toml

end Arithmancy
