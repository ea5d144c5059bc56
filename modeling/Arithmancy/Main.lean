import Arithmancy.Balance.File
import Arithmancy.Console.Dialogue
import Arithmancy.Console.Options

/-!
# The program

Plays one run at the terminal: reads the options and the balance, and hands each line
that is typed to the console. Nothing is decided here.
-/

namespace Arithmancy

namespace Console

/-- Reads the options from the environment. -/
def readOptions : IO Options := do
  let values ← Options.names.mapM fun name => return (name, ← IO.getEnv name)
  return .ofVariables fun name => (values.lookup name).join

/-- Reads the balance that the options point to. -/
def readBalance (o : Options) : IO (Except BalanceFault (Balance Float)) := do
  match o.balancePath with
  | none => return .ok .standard
  | some path =>
    try
      return Balance.read (← IO.FS.readFile path)
    catch e =>
      return .error (.unreadable path (toString e))

/-- Writes what the console shows. -/
def write (output : List Passage) : IO Unit := do
  let stdout ← IO.getStdout
  stdout.putStr (String.join (output.map Passage.text))
  stdout.flush

/-- Reports why the program ends early. -/
def abort (message : String) : IO UInt32 := do
  (← IO.getStderr).putStrLn s!"Error: {message}"
  return 1

/-- Plays a game line by line. -/
def play (game : Game Float) : IO UInt32 := do
  let stdin ← IO.getStdin
  let mut console := Console.new game
  repeat
    match console.opening with
    | .finished output =>
      write output
      return 0
    | .failed fault => return (← abort fault.message)
    | .ready opened output =>
      write (output ++ [prompt])
      let typed ← stdin.getLine
      if typed.isEmpty then
        return 0
      let round := opened.answer typed
      write round.output
      match round.sequel with
      | .goesOn => console := round.console
      | .leaves => return 0
      | .breaksOff fault => return (← abort fault.message)
  return 0

/-- Starts a run as the options say, and plays it. -/
def start (o : Options) (balance : Balance Float) : IO UInt32 := do
  let seed ← match o.seed with
    | some seed => pure seed
    | none => IO.rand 0 maxCount32
  let settings : Settings Float :=
    ⟨balance, Settings.defaultBuffer, UInt32.ofNat seed, o.ascension, o.loadout⟩
  match Game.new settings .builtIn with
  | .error fault => abort fault.message
  | .ok game =>
    let banner := s!"NUMGEON: seed {seed}, loadout {o.loadout.name}, ascension {o.ascension}"
    write [.said (lines [banner, "Type `help` for commands."])]
    play game

end Console

end Arithmancy

/-- Plays one run at the terminal. -/
def main : IO UInt32 := do
  let options ← Arithmancy.Console.readOptions
  match ← Arithmancy.Console.readBalance options with
  | .error fault => Arithmancy.Console.abort fault.message
  | .ok balance => Arithmancy.Console.start options balance
