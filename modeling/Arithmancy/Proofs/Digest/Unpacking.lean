import Mathlib
import Arithmancy.Digest.Session
import Arithmancy.Game.Move
import Arithmancy.Proofs.Digest.Reading

/-!
# The bytes of an encounter tell the encounter

An encounter is packed into bytes before it is hashed, and so two encounters with different
digests are different. For the converse nothing may be lost in packing. This module reads the
bytes back (`Session.unpack`), type by type, each in the order in which its fields are packed,
and shows that the reader finds whatever was packed, as long as counts and lengths fit into the
widths that they are given (`Session.Fits`). It follows that different encounters have different
bytes, and that the bytes of one encounter never begin with those of another
(`Session.pack_determines`).

Nothing depends on what a number is, if only it can be told from its bits. That holds of
floating-point numbers, and of bare patterns of bits, where each pattern is a number of its own.
-/

namespace Arithmancy

open Packing

/-! ## Numbers and kinds -/

instance : ReadableBits64 Float := ⟨Float.ofBits, Float.ofBits_toBits⟩

/-- A pattern of bits is its own layout. -/
instance : Bits64 UInt64 := ⟨id⟩

instance : ReadableBits64 UInt64 := ⟨id, fun _ => rfl⟩

instance : Listed DieType := ⟨fun k => by cases k <;> decide, by decide⟩

instance : Listed DiceClass := ⟨fun k => by cases k <;> decide, by decide⟩

instance : Listed Operator := ⟨fun k => by cases k <;> decide, by decide⟩

instance : Listed BossAbility := ⟨fun k => by cases k <;> decide, by decide⟩

instance : Listed Condition := ⟨fun k => by cases k <;> decide, by decide⟩

instance : Listed Combo := ⟨fun k => by cases k <;> decide, by decide⟩

instance : Listed Relic := ⟨fun k => by cases k <;> decide, by decide⟩

instance : Listed Phase := ⟨fun k => by cases k <;> decide, by decide⟩

variable {α : Type} [Bits64 α] [ReadableBits64 α]

/-! ## Dice and tokens -/

/-- Reads a kind of die. -/
def DieSpec.unpack : Unpacker DieSpec := do
  let dieType ← Unpacker.member DieType
  let diceClass ← Unpacker.member DiceClass
  return ⟨dieType, diceClass⟩

theorem DieSpec.reads (d : DieSpec) : unpack.Reads d.pack d :=
  (Unpacker.reads_member d.dieType).bind ((Unpacker.reads_member d.diceClass).last rfl)

namespace Die

/-- **A die fits** if its numbers do. -/
@[mk_iff]
structure Fits (d : Die) : Prop where
  /-- The number of the die fits. -/
  id : d.id.number ≤ maxCount32
  /-- The number it shows fits. -/
  value : ∀ n ∈ d.value, n ≤ maxCount32

instance (d : Die) : Decidable d.Fits := decidable_of_iff _ (fits_iff d).symm

/-- Reads a die on the tray. -/
def unpack : Unpacker Die := do
  let id ← Unpacker.count 4
  let spec ← DieSpec.unpack
  let value ← Unpacker.optional (Unpacker.count 4)
  let held ← Unpacker.flag
  return ⟨⟨id⟩, spec, value, held⟩

theorem reads {d : Die} (h : d.Fits) : unpack.Reads d.pack d := by
  unfold pack
  simp only [List.append_assoc]
  refine (Unpacker.reads_count32 h.id).bind ?_
  refine d.spec.reads.bind ?_
  refine (Unpacker.reads_optional fun n hn => Unpacker.reads_count32 (h.value n hn)).bind ?_
  exact (Unpacker.reads_flag d.held).last rfl

end Die

namespace Token

/-- **A token fits** if the die or the slot that it names does. -/
@[mk_iff]
structure Fits (t : Token α) : Prop where
  /-- The number of the die fits. -/
  die : ∀ id ∈ t.die?, id.number ≤ maxCount32
  /-- The slot of the hand fits. -/
  slot : ∀ slot ∈ t.slot?, slot ≤ maxCount64

omit [Bits64 α] in
instance (t : Token α) : Decidable t.Fits := decidable_of_iff _ (fits_iff t).symm

/-- Reads a token. -/
def unpack : Unpacker (Token α) := do
  match ← Unpacker.count 4 with
  | 0 =>
    let value ← Unpacker.number
    let die ← Unpacker.optional (Unpacker.count 4 >>= fun id => pure ⟨id⟩)
    return .number value die
  | 1 =>
    let op ← Unpacker.member Operator
    let slot ← Unpacker.optional (Unpacker.count 8)
    return .operator ⟨op, slot⟩
  | _ => failure

theorem reads {t : Token α} (h : t.Fits) : unpack.Reads t.pack t := by
  cases t with
  | number value die =>
    unfold pack
    simp only [List.append_assoc]
    refine (Unpacker.reads_count32 (n := 0) (by decide)).bind ?_
    refine (Unpacker.reads_number value).bind ?_
    exact (Unpacker.reads_optional fun id hid =>
      (Unpacker.reads_count32 (h.die id hid)).last rfl).last rfl
  | operator card =>
    unfold pack
    simp only [List.append_assoc]
    refine (Unpacker.reads_count32 (n := 1) (by decide)).bind ?_
    refine (Unpacker.reads_member card.op).bind ?_
    exact (Unpacker.reads_optional fun slot hslot =>
      Unpacker.reads_count64 (h.slot slot hslot)).last rfl

end Token

/-! ## The monster -/

namespace Monster

/-- **A monster fits** if its texts and its counts do. -/
@[mk_iff]
structure Fits (m : Monster α) : Prop where
  /-- The identity fits. -/
  id : m.id.utf8ByteSize ≤ maxCount64
  /-- The name fits. -/
  name : m.name.utf8ByteSize ≤ maxCount64
  /-- The number of its dice fits. -/
  attackDiceCount : m.attackDiceCount ≤ maxCount32
  /-- The tier fits. -/
  tier : m.tier ≤ maxCount32
  /-- The least hit points fit. -/
  least : m.hpRange.1 ≤ maxCount32
  /-- The greatest hit points fit. -/
  greatest : m.hpRange.2 ≤ maxCount32

instance (m : Monster α) : Decidable m.Fits := decidable_of_iff _ (fits_iff m).symm

/-- Reads a monster. -/
def unpack : Unpacker (Monster α) := do
  let id ← Unpacker.text
  let name ← Unpacker.text
  let hp ← Unpacker.number
  let maxHp ← Unpacker.number
  let attackDie ← Unpacker.member DieType
  let attackDiceCount ← Unpacker.count 4
  let tier ← Unpacker.count 4
  let elite ← Unpacker.flag
  let boss ← Unpacker.optional (Unpacker.member BossAbility)
  let least ← Unpacker.count 4
  let greatest ← Unpacker.count 4
  return ⟨id, name, hp, maxHp, attackDie, attackDiceCount, tier, elite, boss, (least, greatest)⟩

theorem reads {m : Monster α} (h : m.Fits) : unpack.Reads m.pack m := by
  unfold pack
  simp only [List.append_assoc]
  refine (Unpacker.reads_text h.id).bind ?_
  refine (Unpacker.reads_text h.name).bind ?_
  refine (Unpacker.reads_number m.hp).bind ?_
  refine (Unpacker.reads_number m.maxHp).bind ?_
  refine (Unpacker.reads_member m.attackDie).bind ?_
  refine (Unpacker.reads_count32 h.attackDiceCount).bind ?_
  refine (Unpacker.reads_count32 h.tier).bind ?_
  refine (Unpacker.reads_flag m.elite).bind ?_
  refine (Unpacker.reads_optional fun ability _ => Unpacker.reads_member ability).bind ?_
  refine (Unpacker.reads_count32 h.least).bind ?_
  exact (Unpacker.reads_count32 h.greatest).last rfl

end Monster

/-! ## Outcomes and combos -/

/-- Reads the reason of a block. -/
def BlockReason.unpack : Unpacker (BlockReason α) := do
  match ← Unpacker.count 4 with
  | 0 => return .noOverkill
  | 1 => return .mustOverkill
  | 2 => return .tightWindow
  | 3 =>
    let ability ← Unpacker.member BossAbility
    let result ← Unpacker.number
    return .boss ability result
  | _ => failure

theorem BlockReason.reads (r : BlockReason α) : unpack.Reads r.pack r := by
  cases r with
  | noOverkill => exact (Unpacker.reads_count32 (n := 0) (by decide)).last rfl
  | mustOverkill =>
    exact (Unpacker.reads_count32 (n := 1) (by decide)).last rfl
  | tightWindow =>
    exact (Unpacker.reads_count32 (n := 2) (by decide)).last rfl
  | boss ability result =>
    unfold pack
    simp only [List.append_assoc]
    refine (Unpacker.reads_count32 (n := 3) (by decide)).bind ?_
    exact (Unpacker.reads_member ability).bind ((Unpacker.reads_number result).last rfl)

/-- Reads how a result lands. -/
def OutcomeKind.unpack : Unpacker (OutcomeKind α) := do
  match ← Unpacker.count 4 with
  | 0 => return .exact
  | 1 => return .overkill
  | 2 => return .nearMiss
  | 3 => return .underkill
  | 4 =>
    let reason ← BlockReason.unpack
    return .blocked reason
  | _ => failure

theorem OutcomeKind.reads (k : OutcomeKind α) : unpack.Reads k.pack k := by
  cases k with
  | exact => exact (Unpacker.reads_count32 (n := 0) (by decide)).last rfl
  | overkill => exact (Unpacker.reads_count32 (n := 1) (by decide)).last rfl
  | nearMiss => exact (Unpacker.reads_count32 (n := 2) (by decide)).last rfl
  | underkill =>
    exact (Unpacker.reads_count32 (n := 3) (by decide)).last rfl
  | blocked reason =>
    exact (Unpacker.reads_count32 (n := 4) (by decide)).bind (reason.reads.last rfl)

/-- Reads an outcome. -/
def Outcome.unpack : Unpacker (Outcome α) := do
  let dealt ← Unpacker.number
  let retaliate ← Unpacker.flag
  let kind ← OutcomeKind.unpack
  return ⟨dealt, retaliate, kind⟩

theorem Outcome.reads (o : Outcome α) : unpack.Reads o.pack o := by
  unfold pack
  rw [List.append_assoc]
  refine (Unpacker.reads_number o.dealt).bind ?_
  refine (Unpacker.reads_flag o.retaliate).bind ?_
  exact o.kind.reads.last rfl

/-- Reads combos. -/
def ComboReport.unpack : Unpacker (ComboReport α) := do
  let combos ← Unpacker.sequence (Unpacker.member Combo)
  let totalMultiplier ← Unpacker.number
  return ⟨combos, totalMultiplier⟩

theorem ComboReport.reads {r : ComboReport α} (h : r.combos.length ≤ maxCount64) :
    unpack.Reads r.pack r := by
  refine (Unpacker.reads_sequence h fun combo _ => Unpacker.reads_member combo).bind ?_
  exact (Unpacker.reads_number r.totalMultiplier).last rfl

/-! ## Turns -/

namespace Resolution

/-- **A resolved turn fits** if its counts and the lengths of its lists do. -/
@[mk_iff]
structure Fits (r : Resolution α) : Prop where
  /-- The number of the turn fits. -/
  turn : r.turn ≤ maxCount32
  /-- The number of combos fits. -/
  combos : r.combos.combos.length ≤ maxCount64
  /-- The number of rolls fits. -/
  rolls : r.attackRolls.length ≤ maxCount64
  /-- Each roll fits. -/
  roll : ∀ n ∈ r.attackRolls, n ≤ maxCount32
  /-- The damage fits. -/
  damageTaken : r.damageTaken ≤ maxCount32
  /-- The gold fits. -/
  goldEarned : r.goldEarned ≤ maxCount32
  /-- The player's hit points fit. -/
  playerHp : r.playerHp ≤ maxCount32

instance (r : Resolution α) : Decidable r.Fits := decidable_of_iff _ (fits_iff r).symm

/-- Reads a resolved turn. -/
def unpack : Unpacker (Resolution α) := do
  let turn ← Unpacker.count 4
  let rawValue ← Unpacker.number
  let value ← Unpacker.number
  let target ← Unpacker.number
  let outcome ← Outcome.unpack
  let combos ← ComboReport.unpack
  let attackDie ← Unpacker.member DieType
  let attackRolls ← Unpacker.sequence (Unpacker.count 4)
  let damageTaken ← Unpacker.count 4
  let goldEarned ← Unpacker.count 4
  let monsterHp ← Unpacker.number
  let playerHp ← Unpacker.count 4
  let monsterDead ← Unpacker.flag
  let playerDead ← Unpacker.flag
  let rescuedBy ← Unpacker.optional (Unpacker.member Relic)
  let phase ← Unpacker.member Phase
  return ⟨turn, rawValue, value, target, outcome, combos, attackDie, attackRolls, damageTaken,
    goldEarned, monsterHp, playerHp, monsterDead, playerDead, rescuedBy, phase⟩

theorem reads {r : Resolution α} (h : r.Fits) : unpack.Reads r.pack r := by
  unfold pack
  simp only [List.append_assoc]
  refine (Unpacker.reads_count32 h.turn).bind ?_
  refine (Unpacker.reads_number r.rawValue).bind ?_
  refine (Unpacker.reads_number r.value).bind ?_
  refine (Unpacker.reads_number r.target).bind ?_
  refine r.outcome.reads.bind ?_
  refine (ComboReport.reads h.combos).bind ?_
  refine (Unpacker.reads_member r.attackDie).bind ?_
  refine (Unpacker.reads_sequence h.rolls fun n hn => Unpacker.reads_count32 (h.roll n hn)).bind ?_
  refine (Unpacker.reads_count32 h.damageTaken).bind ?_
  refine (Unpacker.reads_count32 h.goldEarned).bind ?_
  refine (Unpacker.reads_number r.monsterHp).bind ?_
  refine (Unpacker.reads_count32 h.playerHp).bind ?_
  refine (Unpacker.reads_flag r.monsterDead).bind ?_
  refine (Unpacker.reads_flag r.playerDead).bind ?_
  refine (Unpacker.reads_optional fun relic _ => Unpacker.reads_member relic).bind ?_
  exact (Unpacker.reads_member r.phase).last rfl

end Resolution

/-- Reads what relics remember. -/
def RelicMemo.unpack : Unpacker RelicMemo := do
  let evaluations ← Unpacker.count 4
  let shieldUsed ← Unpacker.flag
  return ⟨evaluations, shieldUsed⟩

theorem RelicMemo.reads {m : RelicMemo} (h : m.evaluations ≤ maxCount32) :
    unpack.Reads m.pack m :=
  (Unpacker.reads_count32 h).bind ((Unpacker.reads_flag m.shieldUsed).last rfl)

/-! ## Encounters -/

namespace Session

/-- **An encounter fits** if all its counts and lengths fit into the widths in which they are
kept. -/
@[mk_iff]
structure Fits (s : Session α) : Prop where
  /-- The monster fits. -/
  monster : s.monster.Fits
  /-- The number of dice fits. -/
  dice : s.dice.length ≤ maxCount64
  /-- Each die fits. -/
  die : ∀ d ∈ s.dice, d.Fits
  /-- The number of conditions fits. -/
  conditions : s.conditions.length ≤ maxCount64
  /-- The number of the turn fits. -/
  turn : s.turn ≤ maxCount32
  /-- The number of rerolls fits. -/
  rerollsLeft : s.rerollsLeft ≤ maxCount32
  /-- The number of tokens fits. -/
  expression : s.expression.length ≤ maxCount64
  /-- Each token fits. -/
  token : ∀ t ∈ s.expression, t.Fits
  /-- The number of lines that were told fits. -/
  log : s.log.length ≤ maxCount64
  /-- Each line fits. -/
  line : ∀ line ∈ s.log, line.utf8ByteSize ≤ maxCount64
  /-- The last resolution fits. -/
  lastResolution : ∀ r ∈ s.lastResolution, r.Fits
  /-- The number of evaluations that relics have seen fits. -/
  evaluations : s.memo.evaluations ≤ maxCount32

instance (s : Session α) : Decidable s.Fits := decidable_of_iff _ (fits_iff s).symm

/-- **Reads an encounter.** -/
def unpack : Unpacker (Session α) := do
  let monster ← Monster.unpack
  let dice ← Unpacker.sequence Die.unpack
  let conditions ← Unpacker.sequence (Unpacker.member Condition)
  let turn ← Unpacker.count 4
  let rerollsLeft ← Unpacker.count 4
  let phase ← Unpacker.member Phase
  let expression ← Unpacker.sequence Token.unpack
  let log ← Unpacker.sequence Unpacker.text
  let lastResolution ← Unpacker.optional Resolution.unpack
  let bossRerollUsed ← Unpacker.flag
  let generator ← Unpacker.count 4
  let memo ← RelicMemo.unpack
  return ⟨monster, dice, conditions, turn, rerollsLeft, phase, expression, log, lastResolution,
    bossRerollUsed, ⟨UInt32.ofNat generator⟩, memo⟩

/-- **What was packed is read back.** -/
theorem reads {s : Session α} (h : s.Fits) : unpack.Reads s.pack s := by
  unfold pack
  simp only [List.append_assoc]
  refine (Monster.reads h.monster).bind ?_
  refine (Unpacker.reads_sequence h.dice fun d hd => Die.reads (h.die d hd)).bind ?_
  refine (Unpacker.reads_sequence h.conditions fun c _ => Unpacker.reads_member c).bind ?_
  refine (Unpacker.reads_count32 h.turn).bind ?_
  refine (Unpacker.reads_count32 h.rerollsLeft).bind ?_
  refine (Unpacker.reads_member s.phase).bind ?_
  refine (Unpacker.reads_sequence h.expression fun t ht => Token.reads (h.token t ht)).bind ?_
  refine (Unpacker.reads_sequence h.log fun line hline =>
    Unpacker.reads_text (h.line line hline)).bind ?_
  refine (Unpacker.reads_optional fun r hr => Resolution.reads (h.lastResolution r hr)).bind ?_
  refine (Unpacker.reads_flag s.bossRerollUsed).bind ?_
  refine (Unpacker.reads_count32 (Nat.le_of_lt_succ s.generator.state.toNat_lt)).bind ?_
  refine (RelicMemo.reads h.evaluations).last ?_
  rw [UInt32.ofNat_toNat]

/-- **The bytes of an encounter tell the encounter**, if everything fits. A reader finds it at
the front of any bytes that begin with its own; encounters with the same bytes are the same in
every field; and the bytes of one encounter do not begin with those of another. -/
theorem pack_determines {s t : Session α} (hs : s.Fits) (ht : t.Fits) :
    (∀ rest, unpack.run (s.pack ++ rest) = some (s, rest))
      ∧ (s.pack = t.pack ↔ s = t) ∧ (s.pack <+: t.pack → s = t) := by
  have htold : s.pack <+: t.pack → s = t := (reads hs).eq_of_isPrefix (reads ht)
  refine ⟨reads hs, ⟨fun h => htold ?_, congrArg pack⟩, htold⟩
  rw [h]

/-- The moves of a player who strikes at a rat with one die, and then begins to strike with
another. -/
def secondStrike : List (Move Float) :=
  [.startCombat (.monster "rat"), .placeDie ⟨0⟩, .submit, .placeDie ⟨4⟩]

/-- An encounter in its second turn, and the same encounter with one token more: everything fits,
so each is read from its bytes, and neither begins like the other. -/
theorem pack_determines_rat :
    ∃ (g : Game Float) (s t : Session Float), Game.new .standard .builtIn = .ok g
      ∧ (g.after secondStrike).session = some s
      ∧ (g.after (secondStrike ++ [.placeOperator 0])).session = some t
      ∧ (s.Fits ∧ t.Fits) ∧ unpack.run (s.pack ++ t.pack) = some (s, t.pack)
      ∧ ¬ s.pack <+: t.pack := by
  obtain ⟨g, hnew, hopen, hopen'⟩ : ∃ g : Game Float, Game.new .standard .builtIn = .ok g
      ∧ (g.after secondStrike).session.map (fun s => (s.expression.length, decide s.Fits))
        = some (1, true)
      ∧ (g.after (secondStrike ++ [.placeOperator 0])).session.map
        (fun s => (s.expression.length, decide s.Fits)) = some (2, true) :=
    ⟨_, rfl, by decide +kernel⟩
  obtain ⟨s, hs, hlength⟩ := Option.map_eq_some_iff.mp hopen
  obtain ⟨t, ht, hlength'⟩ := Option.map_eq_some_iff.mp hopen'
  obtain ⟨hone, hfits⟩ := Prod.mk.inj hlength
  obtain ⟨htwo, hfits'⟩ := Prod.mk.inj hlength'
  obtain ⟨hread, -, htold⟩ := pack_determines (of_decide_eq_true hfits) (of_decide_eq_true hfits')
  refine ⟨g, s, t, hnew, hs, ht, ⟨of_decide_eq_true hfits, of_decide_eq_true hfits'⟩, hread t.pack,
    fun hpre => ?_⟩
  rw [htold hpre, htwo] at hone
  cases hone

end Session

end Arithmancy
