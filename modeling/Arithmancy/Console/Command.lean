import Arithmancy.Number.Scalar
import Arithmancy.Text

/-!
# Commands

A command is a line of words. The first word, in any case, says what to do; some
commands name positions, which are counted from one. Words beyond those are ignored.
-/

namespace Arithmancy

namespace Console

/-- **What the player asks for.** -/
inductive Command where
  /-- List the commands. -/
  | help
  /-- Draw the table. -/
  | table
  /-- Place a die. -/
  | die (position : Nat)
  /-- Place a card. -/
  | card (position : Nat)
  /-- Remove a token. -/
  | remove (position : Nat)
  /-- Move a token. -/
  | move (source target : Nat)
  /-- Empty the expression. -/
  | clear
  /-- Hold a die. -/
  | hold (position : Nat)
  /-- Reroll the dice that are not held. -/
  | reroll
  /-- Draw the target of a boss anew. -/
  | bossTarget
  /-- Look ahead. -/
  | preview
  /-- Submit the expression. -/
  | submit
  /-- Give up the run. -/
  | giveUp
  /-- Leave. -/
  | quit
deriving DecidableEq, Repr

/-- **Why a line is no command.** -/
inductive CommandFault where
  /-- There are no words. -/
  | blank
  /-- A position is missing after the first word. -/
  | missingPosition (word : String)
  /-- A word is no position. -/
  | notPosition (word : String)
  /-- A position is zero. -/
  | zeroPosition
  /-- There is no such command. -/
  | unknown (word : String)
deriving DecidableEq, Repr

namespace CommandFault

/-- The message of each cause. -/
def message : CommandFault → String
  | blank => "type `help` for commands"
  | missingPosition word => s!"`{word}` needs a position"
  | notPosition word => s!"`{word}` is not a position"
  | zeroPosition => "positions start at 1"
  | unknown word => s!"unknown command `{word}`; type `help`"

end CommandFault

namespace Command

/-- Reads the position that comes first in some words, and gives the words after it;
`verb` is the first word of the line. -/
def position (verb : String) : List String → Except CommandFault (Nat × List String)
  | [] => .error (.missingPosition verb)
  | word :: rest =>
    match readCount? maxCount64 word with
    | none => .error (.notPosition word)
    | some 0 => .error .zeroPosition
    | some (n + 1) => .ok (n + 1, rest)

/-- A command with one position. -/
def withPosition (verb : String) (rest : List String) (make : Nat → Command) :
    Except CommandFault Command := do
  let (n, _) ← position verb rest
  return make n

/-- A command with two positions. -/
def withPositions (verb : String) (rest : List String) (make : Nat → Nat → Command) :
    Except CommandFault Command := do
  let (m, rest) ← position verb rest
  let (n, _) ← position verb rest
  return make m n

/-- The command of a first word and the words after it. -/
def ofWords (verb : String) (rest : List String) : Except CommandFault Command :=
  match lowerAscii verb with
  | "help" | "?" => .ok help
  | "show" | "ls" => .ok table
  | "d" | "die" => withPosition verb rest die
  | "o" | "op" => withPosition verb rest card
  | "rm" => withPosition verb rest remove
  | "mv" => withPositions verb rest move
  | "clear" => .ok clear
  | "hold" => withPosition verb rest hold
  | "reroll" | "r" => .ok reroll
  | "boss" => .ok bossTarget
  | "preview" | "p" => .ok preview
  | "go" | "submit" => .ok submit
  | "giveup" => .ok giveUp
  | "quit" | "exit" | "q" => .ok quit
  | other => .error (.unknown other)

/-- **Reads a command.** -/
def read (line : String) : Except CommandFault Command :=
  match words line with
  | [] => .error .blank
  | verb :: rest => ofWords verb rest

end Command

end Console

end Arithmancy
