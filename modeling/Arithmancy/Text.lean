/-!
# Texts

Operators, relics, conditions and the other kinds of thing the game knows are
finite, listed in a fixed order, and each has a short lower-case name by which
players and files refer to it. This module holds that convention once: a kind
lists its members, gives each its name, and a name is read back whatever the
case of its ASCII letters.

A line of text is cut into words at white space, which is a property of characters
that is fixed by a standard: twenty-five code points have it.
-/

namespace Arithmancy

/-! ## Kinds with a written name -/

/-- The ASCII letters of a text in lower case; every other character stays. -/
def lowerAscii (s : String) : String :=
  s.map Char.toLower

/-- A finite kind whose members are listed in a fixed order and named. -/
class Labelled (κ : Type) where
  /-- Every member, in the order in which catalogs list them. -/
  all : List κ
  /-- The written name of a member, in lower case. -/
  label : κ → String

export Labelled (label)

namespace Labelled

variable {κ : Type} [Labelled κ]

/-- The first member whose name is the given text, up to the case of ASCII
letters. -/
def ofLabel? (s : String) : Option κ :=
  (all : List κ).find? fun k => label k == lowerAscii s

/-- The place of a member in the list of its kind. -/
def index [DecidableEq κ] (k : κ) : Nat :=
  (all : List κ).idxOf k

end Labelled

/-! ## Words and counts -/

/-- The ranges of code points that are white space, in ascending order. -/
def blankRanges : List (Nat × Nat) := [
  (0x0009, 0x000D), (0x0020, 0x0020), (0x0085, 0x0085), (0x00A0, 0x00A0), (0x1680, 0x1680),
  (0x2000, 0x200A), (0x2028, 0x2029), (0x202F, 0x202F), (0x205F, 0x205F), (0x3000, 0x3000)]

/-- Whether a character is white space. -/
def isBlank (c : Char) : Bool :=
  blankRanges.any fun (low, high) => low ≤ c.toNat && c.toNat ≤ high

/-- The words of a text, where `word` holds the characters of the word being read, the
last one first. -/
def wordsFrom (word : List Char) : List Char → List String
  | [] => if word.isEmpty then [] else [String.ofList word.reverse]
  | c :: cs =>
    if isBlank c then
      if word.isEmpty then wordsFrom [] cs else String.ofList word.reverse :: wordsFrom [] cs
    else wordsFrom (c :: word) cs

/-- **The words of a text**: its longest runs of characters that are not blank. -/
def words (s : String) : List String := wordsFrom [] s.toList

/-- The number a text of decimal digits stands for, with an optional plus in front, if
it does not exceed a limit. -/
def readCount? (limit : Nat) (s : String) : Option Nat :=
  let digits := match s.toList with
    | '+' :: cs => cs
    | cs => cs
  if digits ≠ [] && digits.all Char.isDigit then
    let n := digits.foldl (fun n c => 10 * n + (c.toNat - 48)) 0
    if n ≤ limit then some n else none
  else none

end Arithmancy
