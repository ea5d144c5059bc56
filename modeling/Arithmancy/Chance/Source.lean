import Arithmancy.Number.Scalar

/-!
# Sources of chance

A source is a state from which a number in the half-open interval from zero to one
is drawn, together with the next state. Every other draw – an integer in a range,
an index, a pick, a shuffle – is derived from that one, so two sources with equal
streams agree on all of them. A draw never changes its source in place: it returns
the state that the next draw starts from.
-/

namespace Arithmancy

/-- **A source of chance** with states `σ` that draws numbers `α`. -/
class Source (σ : Type) (α : outParam Type) where
  /-- A number in the interval from zero, included, to one, excluded, and the next
  state. -/
  draw : σ → α × σ

namespace Source

variable {σ α β γ : Type} [Scalar α] [Source σ α]

/-- An integer between two bounds, both included. -/
def nextInt (low high : Int) (s : σ) : Int × σ :=
  let (x, s) := draw s
  (Scalar.clamp minInt64 maxInt64 (Scalar.floor (x * Scalar.ofInt (high - low + 1))) + low, s)

/-- The index below `n` that a drawn number selects; zero if `n` is zero. -/
def indexOf (x : α) (n : Nat) : Nat :=
  min (Scalar.toNat maxCount64 (Scalar.floor (x * Scalar.ofNat n))) (n - 1)

/-- An index below `n`, or zero if `n` is zero. -/
def nextIndex (n : Nat) (s : σ) : Nat × σ :=
  let (x, s) := draw s
  (indexOf x n, s)

/-- One member of a list, every member equally likely. An empty list has none, and
nothing is drawn for it. -/
def pick (items : List β) (s : σ) : Option β × σ :=
  match items with
  | [] => (none, s)
  | _ =>
    let (i, s) := nextIndex items.length s
    (items[i]?, s)

/-- The member at which a running remainder first falls to zero or below. -/
def spend (remainder : α) : List (β × α) → Option β
  | [] => none
  | (item, weight) :: rest =>
    if remainder - weight ≤ 0 then some item else spend (remainder - weight) rest

/-- One member of a list, each as likely as its weight says: a part of the total
weight is drawn and spent on the members in turn. If rounding leaves a remainder,
the last member is taken. -/
def weightedPick (items : List β) (weights : List α) (s : σ) : Option β × σ :=
  let total := weights.foldl (fun sum weight => sum + weight) (0 : α)
  let (x, s) := draw s
  ((spend (x * total) (items.zip weights)).or items.getLast?, s)

/-- Exchanges the members at two places of a list. -/
def exchange (items : List β) (i j : Nat) : List β :=
  match items[i]?, items[j]? with
  | some a, some b => (items.set i b).set j a
  | _, _ => items

/-- Shuffles the first `i + 1` places of a list, from the back: each place exchanges
its member with one drawn from the places up to it. -/
def shuffleFrom : Nat → List β → σ → List β × σ
  | 0, items, s => (items, s)
  | i + 1, items, s =>
    let (j, s) := nextIndex (i + 2) s
    shuffleFrom i (exchange items (i + 1) j) s

/-- **A shuffle of a list**, with one draw for every place but the first. -/
def shuffle (items : List β) (s : σ) : List β × σ :=
  shuffleFrom (items.length - 1) items s

/-- Applies an operation that draws to every member of a list, in order. -/
def mapDraws (f : β → σ → γ × σ) : List β → σ → List γ × σ
  | [], s => ([], s)
  | b :: bs, s =>
    let (c, s) := f b s
    let (cs, s) := mapDraws f bs s
    (c :: cs, s)

end Source

end Arithmancy
