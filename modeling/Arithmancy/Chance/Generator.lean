import Arithmancy.Chance.Source

/-!
# The generator of an encounter

Every draw of an encounter comes from one generator with 32 bits of state. Each
draw adds an odd constant to the state, so the states run through all `2 ^ 32`
words, and mixes the new state by two rounds of multiplying and folding. The word
so obtained, divided by `2 ^ 32`, is the number drawn.
-/

namespace Arithmancy

/-- A generator whose draws are read as numbers `α`. -/
structure Generator (α : Type) where
  /-- The state, all there is to know of the draws to come. -/
  state : UInt32
deriving DecidableEq, Repr

namespace Generator

variable {α : Type}

/-- What each draw adds to the state. -/
def increment : UInt32 := 0x6D2B79F5

/-- How far apart the generators of two successive floors start. -/
def floorStride : UInt32 := 1000

/-- The generator of one floor of a run: the seed of the run, offset by the floor. -/
def forFloor (seed : UInt32) (floor : Nat) : Generator α :=
  ⟨seed + UInt32.ofNat floor * floorStride⟩

/-- The word that a state is mixed into. -/
def mix (s : UInt32) : UInt32 :=
  let t := (s ^^^ (s >>> 15)) * (1 ||| s)
  let t := (t + (t ^^^ (t >>> 7)) * (61 ||| t)) ^^^ t
  t ^^^ (t >>> 14)

/-- The next word and the generator after it. -/
def nextWord (g : Generator α) : UInt32 × Generator α :=
  let s := g.state + increment
  (mix s, ⟨s⟩)

/-- The next number from zero up to one. -/
def nextFraction [Scalar α] (g : Generator α) : α × Generator α :=
  let (word, g) := g.nextWord
  (Scalar.ofNat word.toNat / Scalar.ofNat 0x100000000, g)

instance [Scalar α] : Source (Generator α) α where
  draw := nextFraction

@[simp] theorem nextWord_state (g : Generator α) :
    g.nextWord.2.state = g.state + increment := rfl

@[simp] theorem nextFraction_state [Scalar α] (g : Generator α) :
    g.nextFraction.2.state = g.state + increment := rfl

end Generator

end Arithmancy
