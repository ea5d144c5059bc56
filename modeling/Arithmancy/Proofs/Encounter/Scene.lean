import Arithmancy.Encounter.Edit
import Arithmancy.Encounter.Reroll
import Arithmancy.Encounter.Turn

/-!
# Encounters, deed by deed

An encounter is played against the run it belongs to: what the player owns decides what
may be placed, and turns change the player. A **scene** is the two together. Everything
that can be done to a scene between its start and its end is a **deed**, and a deed that
is refused leaves the scene as it is.

What holds at the start, and is kept by every deed that is not refused, holds after any
deeds whatever (`Scene.after_induction`).
-/

namespace Arithmancy

/-- **An encounter and the run it belongs to.** -/
structure Scene (α : Type) where
  /-- The encounter. -/
  session : Session α
  /-- The run. -/
  run : Run α
deriving DecidableEq, Repr

/-- **Whatever can be done in an encounter**, or to the player in the course of it. -/
inductive Deed (α : Type) where
  /-- Place the value of a die last. -/
  | placeDie (id : DieId)
  /-- Place a card of the hand last. -/
  | placeOperator (slot : Nat)
  /-- Place a token before the token at a place, or last. -/
  | placeToken (token : Token α) (place : Option Nat)
  /-- Remove a token. -/
  | removeToken (i : Nat)
  /-- Move a token. -/
  | moveToken (i j : Nat)
  /-- Empty the expression. -/
  | clearExpression
  /-- Hold a die or release it. -/
  | toggleHold (id : DieId)
  /-- Reroll the dice that are not held. -/
  | reroll
  /-- Draw the target of a boss anew. -/
  | rerollBossTarget
  /-- Submit the expression. -/
  | submit
  /-- Give the player a relic. -/
  | acquire (relic : Relic)
deriving DecidableEq, Repr

namespace Scene

variable {α : Type}

/-- The player. -/
def player (c : Scene α) : Player := c.run.player

/-- The scene with another encounter. -/
def withSession (c : Scene α) (s : Session α) : Scene α := { c with session := s }

/-- The scene with another player. -/
def withPlayer (c : Scene α) (p : Player) : Scene α := { c with run := { c.run with player := p } }

variable [Scalar α]

/-- **The scene after a deed**, unless the deed is refused. -/
def perform? (balance : Balance α) (c : Scene α) : Deed α → Option (Scene α)
  | .placeDie id => (c.session.placeDie c.player id).toOption.map c.withSession
  | .placeOperator slot => (c.session.placeOperator c.player slot).toOption.map c.withSession
  | .placeToken t place => (c.session.placeToken c.player t place).toOption.map c.withSession
  | .removeToken i => (c.session.removeToken i).toOption.map fun r => c.withSession r.2
  | .moveToken i j => (c.session.moveToken i j).toOption.map c.withSession
  | .clearExpression => some (c.withSession c.session.clearExpression)
  | .toggleHold id => (c.session.toggleHold? id).map c.withSession
  | .reroll => (c.session.reroll? c.player).map fun r => (c.withSession r.1).withPlayer r.2
  | .rerollBossTarget => (c.session.rerollBossTarget? c.run.progress).map c.withSession
  | .submit => (c.session.submit c.run balance).toOption.map fun t => ⟨t.session, t.run⟩
  | .acquire r => (c.player.addRelic r).toOption.map c.withPlayer

/-- What is not refused has a result. -/
theorem toOption_map_eq_some_iff {ε β γ : Type} {x : Except ε β} {f : β → γ} {c : γ} :
    x.toOption.map f = some c ↔ ∃ b, x = .ok b ∧ f b = c := by
  cases x <;> simp [Except.toOption]

/-- **The scene after a deed**, refused or not. -/
def perform (balance : Balance α) (c : Scene α) (d : Deed α) : Scene α :=
  (c.perform? balance d).getD c

/-- **The scene after some deeds.** -/
def after (balance : Balance α) (c : Scene α) (deeds : List (Deed α)) : Scene α :=
  deeds.foldl (perform balance) c

theorem after_concat (balance : Balance α) (c : Scene α) (deeds : List (Deed α)) (d : Deed α) :
    c.after balance (deeds ++ [d]) = (c.after balance deeds).perform balance d :=
  List.foldl_append

/-- **What every deed keeps** holds after any deeds if it holds before them. -/
theorem after_induction {balance : Balance α} {P : Scene α → Prop}
    (step : ∀ c d c', P c → c.perform? balance d = some c' → P c') {c : Scene α} (h : P c)
    (deeds : List (Deed α)) : P (c.after balance deeds) := by
  induction deeds generalizing c with
  | nil => exact h
  | cons d deeds ih =>
    refine ih ?_
    rw [perform]
    -- a deed that is refused leaves the scene, and one that is not is a step
    cases hd : c.perform? balance d with
    | none => exact h
    | some c' => exact step c d c' h hd

end Scene

end Arithmancy
