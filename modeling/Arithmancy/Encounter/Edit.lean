import Arithmancy.Encounter.Fault
import Arithmancy.Encounter.Session
import Arithmancy.Relic.Pass

/-!
# Editing the expression

While an encounter is not over, tokens are placed into its expression, moved and
removed. A number must come from a die that shows it and is not placed yet; an
operator must come from a card of the hand that is not used up. An edit either
succeeds or changes nothing.
-/

namespace Arithmancy

namespace Session

variable {α : Type}

/-- Refuses an edit once the encounter is over. -/
def ensureBuilding (s : Session α) : Except EditFault Unit :=
  if s.isOver then .error .notBuilding else .ok ()

/-- The session with another expression. -/
def withExpression (s : Session α) (e : Expression α) : Session α := { s with expression := e }

/-- Removes the token at a place, counted from zero. -/
def removeToken (s : Session α) (i : Nat) : Except EditFault (Token α × Session α) := do
  s.ensureBuilding
  match s.expression[i]? with
  | some t => return (t, s.withExpression (s.expression.eraseIdx i))
  | none => throw (.indexOutOfRange i s.expression.length)

/-- A list in which the member at one place has moved so that it stands before the
member that was at another, or last. -/
def moveBefore {β : Type} (items : List β) (i j : Nat) : List β :=
  match items[i]? with
  | some b => (items.eraseIdx i).insertIdx (if i < j then j - 1 else j) b
  | none => items

/-- **Moves a token** so that it stands before the token at another place, or last if
that place is the length of the expression. -/
def moveToken (s : Session α) (i j : Nat) : Except EditFault (Session α) := do
  s.ensureBuilding
  let length := s.expression.length
  if length ≤ i then throw (.indexOutOfRange i length)
  if length < j then throw (.indexOutOfRange j length)
  return s.withExpression (moveBefore s.expression i j)

/-- Empties the expression, also of an encounter that is over. -/
def clearExpression (s : Session α) : Session α := s.withExpression []

variable [Scalar α]

/-- Checks that a number comes from a die that shows it and is not placed. -/
def checkNumber (s : Session α) (value : α) (die : Option DieId) : Except EditFault Unit :=
  match die with
  | none => .error .numberWithoutDie
  | some id =>
    match s.die? id with
    | none => .error (.unknownDie id)
    | some d =>
      match d.value with
      | none => .error (.dieNotRolled id)
      | some shown =>
        if !((Scalar.ofNat shown : α) == value) then .error (.valueMismatch id)
        else if s.isPlaced id then .error (.dieAlreadyPlaced id)
        else .ok ()

/-- Checks that an operator comes from a card of the hand that is not used up. -/
def checkCard (s : Session α) (p : Player) (card : Card) : Except EditFault Unit :=
  match card.slot with
  | none => .error .operatorWithoutCard
  | some slot =>
    match p.hand[slot]? with
    | none => .error (.unknownCard slot)
    | some held =>
      if held ≠ card.op then .error (.cardMismatch slot held card.op)
      else if Relics.cardUses p.relics ≤ s.cardUses slot then .error (.cardExhausted slot)
      else .ok ()

/-- Checks where a token comes from. -/
def checkToken (s : Session α) (p : Player) : Token α → Except EditFault Unit
  | .number value die => s.checkNumber value die
  | .operator card => s.checkCard p card

/-- **Places a token** before the token at a place, or last if no place is given. -/
def placeToken (s : Session α) (p : Player) (t : Token α) (place : Option Nat) :
    Except EditFault (Session α) := do
  s.ensureBuilding
  s.checkToken p t
  let length := s.expression.length
  let i := place.getD length
  if length < i then throw (.indexOutOfRange i length)
  return s.withExpression (s.expression.insertIdx i t)

/-- Places the value shown by a die last. -/
def placeDie (s : Session α) (p : Player) (id : DieId) : Except EditFault (Session α) :=
  match s.die? id with
  | none => .error (.unknownDie id)
  | some d =>
    match d.value with
    | none => .error (.dieNotRolled id)
    | some shown => s.placeToken p (.ofDie shown id) none

/-- Places the card in a slot of the hand last. -/
def placeOperator (s : Session α) (p : Player) (slot : Nat) : Except EditFault (Session α) :=
  match p.hand[slot]? with
  | none => .error (.unknownCard slot)
  | some op => s.placeToken p (.ofCard op slot) none

end Session

end Arithmancy
