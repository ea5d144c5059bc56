import Arithmancy.Ascension
import Arithmancy.Loadout
import Arithmancy.Number.Scalar
import Arithmancy.Text

/-!
# Options

What a game at the console starts with can be chosen by named variables. A variable
that is not set, or does not hold what it should, leaves its default in force.
-/

namespace Arithmancy

namespace Console

/-- **What a game at the console starts with.** -/
structure Options where
  /-- The seed of the run; drawn at random if there is none. -/
  seed : Option Nat
  /-- The ascension level. -/
  ascension : Nat
  /-- The set of dice. -/
  loadout : Loadout
  /-- Where the balance file is, if there is one. -/
  balancePath : Option String
  /-- How the session is to be called. -/
  sessionName : Option String
  /-- Where logs are to be kept. -/
  logDirectory : Option String
deriving DecidableEq, Repr

namespace Options

/-- The names of the variables. -/
def names : List String := [
  "NUMGEON_SEED", "NUMGEON_ASCENSION", "NUMGEON_LOADOUT", "NUMGEON_CONFIG",
  "NUMGEON_SESSION_ID", "NUMGEON_LOG_DIR"]

/-- The greatest ascension level that a variable can ask for before it is capped. -/
def maxWritten : Nat := 0xFF

/-- **The options that variables choose.** An ascension level beyond the highest counts
as the highest. -/
def ofVariables (lookup : String → Option String) : Options where
  seed := lookup "NUMGEON_SEED" >>= readCount? maxCount32
  ascension :=
    min ((lookup "NUMGEON_ASCENSION" >>= readCount? maxWritten).getD 0) maxAscension
  loadout := (lookup "NUMGEON_LOADOUT" >>= Labelled.ofLabel?).getD .standard
  balancePath := lookup "NUMGEON_CONFIG"
  sessionName := lookup "NUMGEON_SESSION_ID"
  logDirectory := lookup "NUMGEON_LOG_DIR"

end Options

end Console

end Arithmancy
