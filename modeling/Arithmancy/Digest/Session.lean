import Arithmancy.Digest.Packing
import Arithmancy.Digest.Sha256
import Arithmancy.Encounter.Session

/-!
# The digest of an encounter

An encounter is packed into bytes field by field, and its digest is the hash of those
bytes. The bytes hold everything: the generator, what relics remember, the log and the
last resolution. Two encounters that were driven by the same seed and the same actions
have the same digest.
-/

namespace Arithmancy

open Packing

variable {α : Type} [Bits64 α]

namespace DieSpec

/-- The bytes of a kind of die. -/
def pack (d : DieSpec) : Bytes := member d.dieType ++ member d.diceClass

end DieSpec

namespace Die

/-- The bytes of a die on the tray. -/
def pack (d : Die) : Bytes :=
  count32 d.id.number ++ d.spec.pack ++ optional count32 d.value ++ flag d.held

end Die

namespace Token

/-- The bytes of a token. -/
def pack : Token α → Bytes
  | number value die =>
    count32 0 ++ Packing.number value ++ optional (fun id => count32 id.number) die
  | operator card => count32 1 ++ member card.op ++ optional count64 card.slot

end Token

namespace Monster

/-- The bytes of a monster. -/
def pack (m : Monster α) : Bytes :=
  text m.id ++ text m.name ++ number m.hp ++ number m.maxHp ++ member m.attackDie
    ++ count32 m.attackDiceCount ++ count32 m.tier ++ flag m.elite ++ optional member m.boss
    ++ count32 m.hpRange.1 ++ count32 m.hpRange.2

end Monster

namespace BlockReason

/-- The bytes of the reason of a block. -/
def pack : BlockReason α → Bytes
  | noOverkill => count32 0
  | mustOverkill => count32 1
  | tightWindow => count32 2
  | boss ability result => count32 3 ++ member ability ++ number result

end BlockReason

namespace OutcomeKind

/-- The bytes of how a result lands. -/
def pack : OutcomeKind α → Bytes
  | exact => count32 0
  | overkill => count32 1
  | nearMiss => count32 2
  | underkill => count32 3
  | blocked reason => count32 4 ++ reason.pack

end OutcomeKind

namespace Outcome

/-- The bytes of an outcome. -/
def pack (o : Outcome α) : Bytes := number o.dealt ++ flag o.retaliate ++ o.kind.pack

end Outcome

namespace ComboReport

/-- The bytes of combos. -/
def pack (r : ComboReport α) : Bytes := sequence member r.combos ++ number r.totalMultiplier

end ComboReport

namespace Resolution

/-- The bytes of a resolved turn. -/
def pack (r : Resolution α) : Bytes :=
  count32 r.turn ++ number r.rawValue ++ number r.value ++ number r.target ++ r.outcome.pack
    ++ r.combos.pack ++ member r.attackDie ++ sequence count32 r.attackRolls
    ++ count32 r.damageTaken ++ count32 r.goldEarned ++ number r.monsterHp ++ count32 r.playerHp
    ++ flag r.monsterDead ++ flag r.playerDead ++ optional member r.rescuedBy ++ member r.phase

end Resolution

namespace RelicMemo

/-- The bytes of what relics remember. -/
def pack (m : RelicMemo) : Bytes := count32 m.evaluations ++ flag m.shieldUsed

end RelicMemo

namespace Session

/-- **The bytes of an encounter**, field by field. -/
def pack (s : Session α) : Bytes :=
  s.monster.pack ++ sequence Die.pack s.dice ++ sequence member s.conditions ++ count32 s.turn
    ++ count32 s.rerollsLeft ++ member s.phase ++ sequence Token.pack s.expression
    ++ sequence text s.log ++ optional Resolution.pack s.lastResolution ++ flag s.bossRerollUsed
    ++ count32 s.generator.state.toNat ++ s.memo.pack

/-- **The digest of an encounter**, in hexadecimal. -/
def digest (s : Session α) : String := Sha256.hex (Sha256.hash s.pack)

end Session

end Arithmancy
