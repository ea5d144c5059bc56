import Arithmancy.Console.Command
import Arithmancy.Console.View

/-!
# Dialogues

At the console a game is played line by line. Before each line an encounter is started
if none is open; after it, what was told in the encounter is shown, and an encounter
that is over is closed. The dialogue ends when the run is over, when the player leaves,
or when the lines do.
-/

namespace Arithmancy

/-- **A console**: a game, and how much of its log has been shown. -/
structure Console (α : Type) where
  /-- The game. -/
  game : Game α
  /-- How many lines of the log of the encounter have been shown. -/
  shown : Nat

namespace Console

/-- **Something the console shows**: a line of the log of an encounter, or a text of its
own. -/
inductive Passage where
  /-- A line of the log. -/
  | told (entry : String)
  /-- Any other text, with its line ends. -/
  | said (text : String)
deriving DecidableEq, Repr

namespace Passage

/-- What is written. -/
def text : Passage → String
  | told entry => line entry
  | said text => text

/-- The line of the log, if the passage is one. -/
def entry? : Passage → Option String
  | told entry => some entry
  | said _ => none

end Passage

/-- The mark that asks for a line. -/
def prompt : Passage := .said "> "

/-- Whether a dialogue goes on after a command. -/
inductive Flow where
  /-- It goes on. -/
  | goesOn
  /-- The player leaves. -/
  | leaves
deriving DecidableEq, Repr

/-- **What a command leads to.** -/
structure Response (α : Type) where
  /-- The console after it. -/
  console : Console α
  /-- What it shows. -/
  output : List Passage
  /-- Whether the dialogue goes on, or why the command fails. -/
  flow : Except String Flow

/-- How a dialogue goes on after a line. -/
inductive Sequel (α : Type) where
  /-- It goes on. -/
  | goesOn
  /-- The player leaves. -/
  | leaves
  /-- The encounter cannot be closed. -/
  | breaksOff (fault : GameFault α)

/-- **What a line leads to.** -/
structure Round (α : Type) where
  /-- The console after it. -/
  console : Console α
  /-- What is shown. -/
  output : List Passage
  /-- How the dialogue goes on. -/
  sequel : Sequel α

/-- How a dialogue goes on before a line. -/
inductive Opening (α : Type) where
  /-- The run is over, and nothing more is asked. -/
  | finished (output : List Passage)
  /-- The next encounter cannot start. -/
  | failed (fault : GameFault α)
  /-- An encounter is open, and a line can be asked for. -/
  | ready (console : Console α) (output : List Passage)

section

variable {α : Type}

/-- A console at which nothing has been shown. -/
def new (g : Game α) : Console α := ⟨g, 0⟩

/-- The console after a step of its game. -/
def after {β : Type} (c : Console α) (step : Step α β) : Console α := { c with game := step.game }

/-- Shows what has been told in the encounter since the log was last shown. -/
def tell (c : Console α) : Console α × List Passage :=
  match c.game.session with
  | none => (c, [])
  | some s => ({ c with shown := s.log.length }, (s.log.drop c.shown).map Passage.told)

/-- A response that only shows something. -/
def showing (c : Console α) (output : List Passage) : Response α := ⟨c, output, .ok .goesOn⟩

/-- A response that only shows a text. -/
def saying (c : Console α) (text : String) : Response α := c.showing [.said text]

/-- The response to a command that fails. -/
def refusal (c : Console α) (message : String) : Response α := ⟨c, [], .error message⟩

/-- What is shown of a command that fails. -/
def complaint (message : String) : Passage := .said (line s!"! {message}")

end

variable {α : Type} [Scalar α]

/-- A response that needs an open encounter. -/
def withSession (c : Console α) (f : Session α → Response α) : Response α :=
  match c.game.session with
  | none => c.refusal (GameFault.noActiveCombat (α := α)).message
  | some s => f s

/-- Shows the expression of the encounter. -/
def showExpression (c : Console α) : Response α :=
  c.withSession fun s => c.saying (line (expressionLine s))

/-- Shows the table of the encounter. -/
def showTable (c : Console α) : Response α :=
  c.withSession fun s => c.saying (tableText c.game.run s)

/-- The response to a step of the game: its refusal, or what is next. -/
def respond {β : Type} (c : Console α) (step : Step α β) (next : β → Console α → Response α) :
    Response α :=
  match step.answer with
  | .error fault => (c.after step).refusal fault.message
  | .ok answer => next answer (c.after step)

/-- The response to an edit of the expression. -/
def edit {β : Type} (c : Console α) (step : Step α β) : Response α :=
  c.respond step fun _ c => c.showExpression

/-- The response to a command on the die at a position. -/
def withDie (c : Console α) (position : Nat) (f : DieId → Response α) : Response α :=
  c.withSession fun s =>
    match s.dice[position - 1]? with
    | none => c.refusal s!"no die at position {position}"
    | some d => f d.id

/-- The response to a turn. If the encounter goes on, what was told is shown before the
table. -/
def showTurn (c : Console α) (resolution : Resolution α) : Response α :=
  if resolution.phase = .building then
    let (c, told) := c.tell
    let response := c.showTable
    { response with output := told ++ response.output }
  else c.showing []

/-- **The response to a command.** -/
def execute (c : Console α) : Command → Response α
  | .help => c.saying helpText
  | .table => c.showTable
  | .die n => c.withDie n fun id => c.edit (c.game.placeDie id)
  | .card n => c.edit (c.game.placeOperator (n - 1))
  | .remove n => c.edit (c.game.removeToken (n - 1))
  | .move m n => c.edit (c.game.moveToken (m - 1) (n - 1))
  | .clear => c.edit c.game.clearExpression
  | .hold n => c.withDie n fun id =>
    c.respond (c.game.toggleHold id) fun held c =>
      c.saying (line (if held then s!"die {n} held" else s!"die {n} released"))
  | .reroll => c.respond c.game.reroll fun rerolled c =>
    if rerolled then c.showTable else c.saying (line "No rerolls left.")
  | .bossTarget => c.respond c.game.rerollBossTarget fun rerolled c =>
    if rerolled then c.showing [] else c.saying (line "The target cannot be rerolled.")
  | .preview => c.respond c.game.preview fun preview c => c.saying (previewText preview)
  | .submit => c.respond c.game.submit fun resolution c => c.showTurn resolution
  | .giveUp => c.respond c.game.giveUp fun _ c => c.showing []
  | .quit => ⟨c, [], .ok .leaves⟩

/-- **The response to a line**, read as a command. -/
def obey (c : Console α) (text : String) : Response α :=
  match Command.read text with
  | .error fault => c.refusal fault.message
  | .ok command => c.execute command

/-- Closes an encounter that is over, and shows where that leads. -/
def close (c : Console α) : Round α :=
  match c.game.session with
  | none => ⟨c, [], .goesOn⟩
  | some s =>
    if s.isOver then
      let step := c.game.finishCombat
      match step.answer with
      | .error fault => ⟨c.after step, [], .breaksOff fault⟩
      | .ok phase =>
        let outcome := if phase = .victory then s!"=== Floor {step.game.run.progress.floor} ==="
          else "You fall in the dungeon."
        ⟨c.after step, [.said (lines ["", outcome])], .goesOn⟩
    else ⟨c, [], .goesOn⟩

/-- After a command has shown its output, what was told in the encounter is shown, too, and
an encounter that is over is closed. -/
def settle (c : Console α) (output : List Passage) : Round α :=
  let (c, told) := c.tell
  let round := c.close
  { round with output := output ++ told ++ round.output }

/-- **What a line leads to.** A blank line is passed over. -/
def answer (c : Console α) (text : String) : Round α :=
  if text.toList.all isBlank then ⟨c, [], .goesOn⟩
  else
    let response := c.obey text
    match response.flow with
    | .error message => response.console.settle (response.output ++ [complaint message])
    | .ok .goesOn => response.console.settle response.output
    | .ok .leaves => ⟨response.console, response.output, .leaves⟩

/-- **Opens the next encounter** if none is open and the run is not over. -/
def opening (c : Console α) : Opening α :=
  if c.game.session.isSome then .ready c []
  else if c.game.isRunOver then .finished [.said (summaryText c.game.run.progress)]
  else
    let step := c.game.startCombat c.game.nextChallenge
    match step.answer with
    | .error fault => .failed fault
    | .ok s =>
      let (c, told) := (Console.new step.game).tell
      .ready c (told ++ [.said (tableText step.game.run s)])

/-- **What a whole dialogue shows.** -/
structure Transcript (α : Type) where
  /-- What is shown. -/
  output : List Passage
  /-- Why the dialogue broke off, if it did. -/
  failure : Option (GameFault α)
  /-- The game at the end. -/
  game : Game α

namespace Transcript

/-- The transcript with something shown before it. -/
def after (output : List Passage) (t : Transcript α) : Transcript α :=
  { t with output := output ++ t.output }

/-- What is written. -/
def text (t : Transcript α) : String := String.join (t.output.map Passage.text)

end Transcript

/-- The transcript that an opening leads to, for a console at which `proceed` says how
a line is asked for and answered. -/
def Opening.transcript (o : Opening α) (g : Game α)
    (proceed : Console α → Transcript α) : Transcript α :=
  match o with
  | .finished output => ⟨output, none, g⟩
  | .failed fault => ⟨[], some fault, g⟩
  | .ready c output => (proceed c).after (output ++ [prompt])

/-- **The dialogue that some lines lead to.** -/
def converse (c : Console α) : List String → Transcript α
  | [] => c.opening.transcript c.game fun c => ⟨[], none, c.game⟩
  | text :: rest => c.opening.transcript c.game fun c =>
    let round := c.answer text
    match round.sequel with
    | .goesOn => (converse round.console rest).after round.output
    | .leaves => ⟨round.output, none, round.console.game⟩
    | .breaksOff fault => ⟨round.output, some fault, round.console.game⟩

/-- The lines of a text, where `line` holds the characters of the line being read, the last
one first. -/
def linesFrom (line : List Char) : List Char → List String
  | [] => if line.isEmpty then [] else [String.ofList line.reverse]
  | c :: cs =>
    if c = '\n' then String.ofList line.reverse :: linesFrom [] cs else linesFrom (c :: line) cs

/-- The lines of a script, each without its line end. A last line without a line end
counts, unless it is empty. -/
def scriptLines (script : String) : List String := linesFrom [] script.toList

/-- **The dialogue that a script leads to.** -/
def perform (c : Console α) (script : String) : Transcript α := c.converse (scriptLines script)

end Console

end Arithmancy
