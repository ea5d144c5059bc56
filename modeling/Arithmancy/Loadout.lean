import Arithmancy.Expression.Operator
import Arithmancy.Dice

/-!
# Loadouts

A run opens with one of several sets of dice and always with the same hand of
operator cards.
-/

namespace Arithmancy

/-- The sets of dice a run can open with. -/
inductive Loadout where
  | standard | naturalist | architect | chaos | minimalist | gambler
deriving DecidableEq, Repr

namespace Loadout

instance : Labelled Loadout where
  all := [standard, naturalist, architect, chaos, minimalist, gambler]
  label
    | standard => "standard"
    | naturalist => "naturalist"
    | architect => "architect"
    | chaos => "chaos"
    | minimalist => "minimalist"
    | gambler => "gambler"

/-- The name shown to the player. -/
def name : Loadout → String
  | standard => "Standard"
  | naturalist => "Naturalist"
  | architect => "Architect"
  | chaos => "Chaos"
  | minimalist => "Minimalist"
  | gambler => "Gambler"

/-- What the player is told of it. -/
def description : Loadout → String
  | standard => "All normal dice. Predictable numbers, straightforward math."
  | naturalist => "Fibonacci dice give unusual numbers: 1, 1, 2, 3, 5, 8..."
  | architect => "Square dice produce big jumps: 1, 4, 9, 16, 25, 36..."
  | chaos => "A wild mix of special dice. Big numbers, weird math."
  | minimalist => "Only 3 dice, but they are bigger. Every roll counts."
  | gambler => "All prime dice. Weird numbers, but powerful combos if you know your primes."

/-- How hard it is said to be. -/
def difficulty : Loadout → String
  | standard => "Easy"
  | naturalist | architect => "Medium"
  | chaos | minimalist => "Hard"
  | gambler => "Expert"

/-- The dice, in the order in which they are dealt. -/
def dice : Loadout → List DieSpec
  | standard =>
    [⟨.d6, .standard⟩, ⟨.d6, .standard⟩, ⟨.d6, .standard⟩, ⟨.d4, .standard⟩, ⟨.d8, .standard⟩]
  | naturalist =>
    [⟨.d6, .standard⟩, ⟨.d6, .fibonacci⟩, ⟨.d6, .fibonacci⟩, ⟨.d4, .standard⟩, ⟨.d8, .standard⟩]
  | architect =>
    [⟨.d6, .standard⟩, ⟨.d6, .square⟩, ⟨.d4, .square⟩, ⟨.d6, .standard⟩, ⟨.d8, .standard⟩]
  | chaos =>
    [⟨.d6, .fibonacci⟩, ⟨.d6, .square⟩, ⟨.d6, .prime⟩, ⟨.d4, .standard⟩, ⟨.d8, .standard⟩]
  | minimalist => [⟨.d10, .standard⟩, ⟨.d8, .standard⟩, ⟨.d8, .standard⟩]
  | gambler => [⟨.d6, .prime⟩, ⟨.d6, .prime⟩, ⟨.d6, .prime⟩, ⟨.d8, .prime⟩, ⟨.d4, .prime⟩]

end Loadout

/-- The operator cards every run opens with. -/
def startingHand : List Operator := [.add, .subtract, .multiply, .divide]

end Arithmancy
