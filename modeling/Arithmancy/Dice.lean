import Arithmancy.Chance.Source
import Arithmancy.Text

/-!
# Dice

A die has a shape, which decides how many faces it has, and a class, which decides
which numbers are printed on them. The player owns a pool of dice; for each turn
the pool is rolled onto a tray, where a die has an identity, shows a value and can
be held.
-/

namespace Arithmancy

/-- The shape of a die. -/
inductive DieType where
  | d4 | d6 | d8 | d10 | d12 | d20
deriving DecidableEq, Repr

namespace DieType

instance : Labelled DieType where
  all := [d4, d6, d8, d10, d12, d20]
  label
    | d4 => "d4"
    | d6 => "d6"
    | d8 => "d8"
    | d10 => "d10"
    | d12 => "d12"
    | d20 => "d20"

/-- The number of faces. -/
def sides : DieType → Nat
  | d4 => 4
  | d6 => 6
  | d8 => 8
  | d10 => 10
  | d12 => 12
  | d20 => 20

/-- The next larger shape a shop can turn this one into. -/
def upgrade? : DieType → Option DieType
  | d4 => some d6
  | d6 => some d8
  | d8 => some d10
  | d10 => some d12
  | d12 => some d20
  | d20 => none

/-- The price of that upgrade in gold. -/
def upgradeCost? : DieType → Option Nat
  | d4 => some 75
  | d6 => some 100
  | d8 => some 125
  | d10 => some 150
  | d12 => some 200
  | d20 => none

/-- The shapes that a monster's attack die climbs through with depth. -/
def attackProgression : List DieType := [d4, d6, d8, d10, d12]

end DieType

/-- Which numbers are printed on a die. -/
inductive DiceClass where
  /-- One, two, three and so on. -/
  | standard
  /-- One, one, two, three, five and so on. -/
  | fibonacci
  /-- One, four, nine, sixteen and so on. -/
  | square
  /-- Two, three, five, seven and so on. -/
  | prime
deriving DecidableEq, Repr

namespace DiceClass

instance : Labelled DiceClass where
  all := [standard, fibonacci, square, prime]
  label
    | standard => "standard"
    | fibonacci => "fibonacci"
    | square => "square"
    | prime => "prime"

/-- The first twenty Fibonacci numbers. -/
def fibonacciFaces : List Nat :=
  [1, 1, 2, 3, 5, 8, 13, 21, 34, 55, 89, 144, 233, 377, 610, 987, 1597, 2584, 4181, 6765]

/-- The first twenty primes. -/
def primeFaces : List Nat :=
  [2, 3, 5, 7, 11, 13, 17, 19, 23, 29, 31, 37, 41, 43, 47, 53, 59, 61, 67, 71]

/-- The numbers on a die with the given number of faces, in order. -/
def faces (sides : Nat) : DiceClass → List Nat
  | standard => List.range' 1 sides
  | fibonacci => fibonacciFaces.take sides
  | square => (List.range' 1 sides).map fun i => i * i
  | prime => primeFaces.take sides

end DiceClass

/-- A die the player owns: its shape and what is printed on it. -/
structure DieSpec where
  /-- The shape. -/
  dieType : DieType
  /-- The class of its faces. -/
  diceClass : DiceClass
deriving DecidableEq, Repr

namespace DieSpec

/-- A die with the faces one to `n`. -/
def ofType (t : DieType) : DieSpec := ⟨t, .standard⟩

/-- The numbers on its faces. -/
def faces (d : DieSpec) : List Nat := d.diceClass.faces d.dieType.sides

/-- The highest number on its faces. -/
def maxFace (d : DieSpec) : Nat := d.faces.max?.getD 1

/-- Rolls one face, every face equally likely. -/
def roll {σ α : Type} [Scalar α] [Source σ α] (d : DieSpec) (s : σ) : Nat × σ :=
  let (i, s) := Source.nextIndex d.faces.length s
  (d.faces[i]?.getD 1, s)

end DieSpec

/-- The die that a relic can add to the tray. -/
def bonusDie : DieSpec := .ofType .d6

/-- **The identity of a die on the tray.** Dice of the pool carry their place in the
pool; dice that relics add are numbered after them. -/
structure DieId where
  /-- The number of the die. -/
  number : Nat
deriving DecidableEq, Repr

namespace DieId

/-- How a die is named in messages. -/
def text (id : DieId) : String := "die-" ++ toString id.number

end DieId

/-- A die on the tray. -/
structure Die where
  /-- Its identity. -/
  id : DieId
  /-- What kind of die it is. -/
  spec : DieSpec
  /-- The number it shows, once it is rolled. -/
  value : Option Nat
  /-- Whether the player holds it back from rerolls. -/
  held : Bool
deriving DecidableEq, Repr

namespace Die

variable {σ α : Type} [Scalar α] [Source σ α]

/-- A die that is not rolled yet. -/
def blank (id : DieId) (spec : DieSpec) : Die := ⟨id, spec, none, false⟩

/-- The die after a roll. -/
def roll (d : Die) (s : σ) : Die × σ :=
  let (n, s) := d.spec.roll s
  ({ d with value := some n }, s)

end Die

/-- **Rolls a fresh tray from a pool**: each die gets its place in the pool as its
identity, and none is held. -/
def rollPool {σ α : Type} [Scalar α] [Source σ α] (pool : List DieSpec) (s : σ) :
    List Die × σ :=
  Source.mapDraws (fun (spec, i) s => (Die.blank ⟨i⟩ spec).roll s) pool.zipIdx s

end Arithmancy
