import Arithmancy.Proofs.Game.RandomStream

/-!
# Counting dice

The rules that are about dice never look at dice. They count the numbers of the expression, and
compare the count with three, with one, or with the number of dice on the tray. What they are
meant to ask is which dice are placed. The two agree only because of what every edit keeps
(`Session.Placed`): each number of the expression names a die of the tray, none is named twice,
and no two dice have the same identity. So there are as many numbers as there are dice that are
placed (`Session.Placed.countNumbers_eq`), and as many as there are dice exactly if none is left
out.

The main statement, `Game.counts_dice`, says so of every rule, in every game that is reached.
-/

namespace Arithmancy

/-! ## What the rules count -/

/-- **A submission passes its conditions** if it violates none of them. -/
theorem Condition.validate_eq_ok_iff {α : Type} [Scalar α] {conditions : List Condition}
    {result : α} {e : Expression α} :
    validate conditions result e = .ok () ↔ ∀ c ∈ conditions, violation? result e c = none := by
  rw [validate, ← List.findSome?_eq_none_iff]
  cases conditions.findSome? (violation? result e) with
  | none => exact iff_of_true rfl rfl
  | some violation => exact iff_of_false nofun nofun

namespace Session

variable {α : Type} {s : Session α}

/-- **The dice that are placed** in the expression. -/
def placedDice (s : Session α) : List Die := s.dice.filter fun d => s.isPlaced d.id

/-- **Whether every die of the tray is placed.** -/
def AllPlaced (s : Session α) : Prop := ∀ d ∈ s.dice, s.isPlaced d.id = true

theorem isPlaced_iff {id : DieId} :
    s.isPlaced id = true ↔ id ∈ s.expression.filterMap Token.die? := by
  rw [isPlaced, List.any_eq_true, List.mem_filterMap]
  simp only [beq_iff_eq]

theorem allPlaced_iff : s.AllPlaced ↔ s.placedDice.length = s.dice.length :=
  List.length_filter_eq_length_iff.symm

theorem length_placedDice_le (s : Session α) : s.placedDice.length ≤ s.dice.length :=
  List.length_filter_le _ _

variable [Scalar α] {p : Player}

namespace Placed

/-- No two dice that are placed have the same identity. -/
theorem nodup_placedDice (h : s.Placed p) : (Tray.ids s.placedDice).Nodup :=
  h.nodup_ids.sublist (List.filter_sublist.map _)

/-- **The dice that the numbers name** are the dice that are placed. -/
theorem perm_placedDice (h : s.Placed p) :
    (s.expression.filterMap Token.die?).Perm (Tray.ids s.placedDice) := by
  refine (List.perm_ext_iff_of_nodup h.nodup_placed h.nodup_placedDice).mpr fun id => ?_
  constructor
  · intro hid
    obtain ⟨t, ht, hdie⟩ := List.mem_filterMap.mp hid
    cases t with
    | operator card => cases hdie
    | number value die =>
      obtain ⟨d, hd, rfl, -⟩ := h.shown value die ht
      obtain rfl := Option.some.inj hdie
      exact List.mem_map_of_mem (List.mem_filter.mpr ⟨hd, isPlaced_iff.mpr hid⟩)
  · intro hid
    obtain ⟨d, hd, rfl⟩ := List.mem_map.mp hid
    exact isPlaced_iff.mp (List.mem_filter.mp hd).2

/-- **To count numbers is to count dice** that are placed. -/
theorem countNumbers_eq (h : s.Placed p) :
    s.expression.countNumbers = s.placedDice.length := by
  have hnames : s.expression.countNumbers = (s.expression.filterMap Token.die?).length := by
    rw [List.length_filterMap_eq_countP, Expression.countNumbers]
    refine List.countP_congr fun t ht => ?_
    cases t with
    | operator card => exact iff_of_false nofun nofun
    | number value die =>
      obtain ⟨d, -, rfl, -⟩ := h.shown value die ht
      exact iff_of_true rfl rfl
  rw [hnames, h.perm_placedDice.length_eq, Tray.ids, List.length_map]

/-- **The rule to use all dice** is kept exactly if no die is left out. -/
theorem checkAllDice_eq_ok_iff (h : s.Placed p) {conditions : List Condition}
    (hrule : .useAllDice ∈ conditions) :
    Condition.checkAllDice conditions s.expression s.dice.length = .ok () ↔ s.AllPlaced := by
  have hle := s.length_placedDice_le
  rw [Condition.checkAllDice, List.contains_iff_mem.mpr hrule, Bool.true_and, h.countNumbers_eq,
    allPlaced_iff]
  by_cases hless : s.placedDice.length < s.dice.length
  · rw [if_pos (decide_eq_true hless)]
    exact iff_of_false nofun (Nat.ne_of_lt hless)
  · rw [if_neg (by rwa [decide_eq_true_eq])]
    exact iff_of_true rfl (by omega)

/-- **The combo of all dice** is found exactly if there are at least two and none is left out. -/
theorem allDice_mem_ofAttempt_iff (h : s.Placed p) (result : α) :
    .allDice ∈ (ComboReport.ofAttempt (s.attempt result)).combos
      ↔ 2 ≤ s.dice.length ∧ s.AllPlaced := by
  rw [allPlaced_iff, ← h.countNumbers_eq]
  show Combo.allDice ∈ (Labelled.all : List Combo).filter (Combo.occursIn (s.attempt result)) ↔ _
  rw [List.mem_filter, and_iff_right (by decide), Combo.occursIn, Bool.and_eq_true,
    decide_eq_true_eq, beq_iff_eq]
  rfl

end Placed

end Session

/-- **Conditions are passed** exactly if at least three dice are placed where that is the rule,
at most one where that is, and no condition of another kind is violated. -/
theorem Session.Placed.validate_eq_ok_iff {α : Type} [Scalar α] {s : Session α} {p : Player}
    (h : s.Placed p) (conditions : List Condition) (result : α) :
    Condition.validate conditions result s.expression = .ok ()
      ↔ (.useThreeDice ∈ conditions → 3 ≤ s.placedDice.length)
        ∧ (.singleDie ∈ conditions → s.placedDice.length ≤ 1)
        ∧ ∀ c ∈ conditions, c ≠ .useThreeDice → c ≠ .singleDie →
          Condition.violation? result s.expression c = none := by
  have hthree : Condition.violation? result s.expression .useThreeDice = none
      ↔ 3 ≤ s.placedDice.length := by
    rw [Condition.violation?, h.countNumbers_eq]
    split
    · next hfew => exact iff_of_false nofun (Nat.not_le.mpr hfew)
    · next hmany => exact iff_of_true rfl (Nat.not_lt.mp hmany)
  have hone : Condition.violation? result s.expression .singleDie = none
      ↔ s.placedDice.length ≤ 1 := by
    rw [Condition.violation?, h.countNumbers_eq]
    split
    · next hmany => exact iff_of_false nofun (Nat.not_le.mpr hmany)
    · next hfew => exact iff_of_true rfl (Nat.not_lt.mp hfew)
  rw [Condition.validate_eq_ok_iff]
  constructor
  · intro hpass
    exact ⟨fun hmem => hthree.mp (hpass _ hmem), fun hmem => hone.mp (hpass _ hmem),
      fun c hmem _ _ => hpass c hmem⟩
  · rintro ⟨hmany, hfew, hrest⟩ c hmem
    by_cases hc : c = .useThreeDice
    · exact hc ▸ hthree.mpr (hmany (hc ▸ hmem))
    · by_cases hc' : c = .singleDie
      · exact hc' ▸ hone.mpr (hfew (hc' ▸ hmem))
      · exact hrest c hmem hc hc'

namespace Game

variable {α : Type} [Scalar α] {g : Game α}

/-- **Rules about dice mean what they say**, whatever was played: the dice that are placed are
different dice; the rule to use all dice is kept, and the combo of all dice found, exactly if no
die of the tray is left out, the dice that relics added among them; and the rules to use at least
three dice and at most one are kept exactly if so many are placed. -/
theorem counts_dice (h : g.Begins) (moves : List (Move α)) {s : Session α}
    (hs : (g.after moves).session = some s) :
    (Tray.ids s.placedDice).Nodup
      ∧ (∀ conditions, .useAllDice ∈ conditions →
        (Condition.checkAllDice conditions s.expression s.dice.length = .ok () ↔ s.AllPlaced))
      ∧ (∀ result, .allDice ∈ (ComboReport.ofAttempt (s.attempt result)).combos
        ↔ 2 ≤ s.dice.length ∧ s.AllPlaced)
      ∧ ∀ conditions result, Condition.validate conditions result s.expression = .ok ()
        ↔ (.useThreeDice ∈ conditions → 3 ≤ s.placedDice.length)
          ∧ (.singleDie ∈ conditions → s.placedDice.length ≤ 1)
          ∧ ∀ c ∈ conditions, c ≠ .useThreeDice → c ≠ .singleDie →
            Condition.violation? result s.expression c = none := by
  have hplaced := (h.equipped_after moves).placed s hs
  exact ⟨hplaced.nodup_placedDice, fun _ => hplaced.checkAllDice_eq_ok_iff,
    hplaced.allDice_mem_ofAttempt_iff, hplaced.validate_eq_ok_iff⟩

/-- The moves of a player who has a bonus die, and places three dice of six. -/
def threeOfSix : List (Move Rat) :=
  [.grantRelic .extraHand, .startCombat (.monster "rat"), .placeDie ⟨0⟩, .placeOperator 0,
    .placeDie ⟨1⟩, .placeOperator 1, .placeDie ⟨2⟩]

/-- Three dice are enough for the rule to use three, too many for the rule to use one, and too
few for the rule to use all. -/
theorem counts_dice_three :
    ∃ g s, Game.new .standard .builtIn = .ok g ∧ (g.after threeOfSix).session = some s
      ∧ Condition.validate [.useThreeDice] 0 s.expression = .ok ()
      ∧ Condition.validate [.singleDie] 0 s.expression ≠ .ok ()
      ∧ Condition.checkAllDice [.useAllDice] s.expression s.dice.length ≠ .ok () := by
  obtain ⟨g, hnew, hopen, hcount⟩ : ∃ g, Game.new .standard .builtIn = .ok g
      ∧ (g.after threeOfSix).session.isSome = true
      ∧ ∀ s ∈ (g.after threeOfSix).session, s.placedDice.length = 3 ∧ s.dice.length = 6 :=
    ⟨_, rfl, by decide +kernel⟩
  obtain ⟨s, hs⟩ := Option.isSome_iff_exists.mp hopen
  obtain ⟨hthree, hsix⟩ := hcount s hs
  obtain ⟨-, hall, -, hpass⟩ := counts_dice (begins_of_new hnew) threeOfSix hs
  refine ⟨g, s, hnew, hs, (hpass _ _).mpr ?_, fun hok => ?_, fun hok => ?_⟩
  · rw [hthree]
    exact ⟨fun _ => Nat.le_refl 3, by decide, by simp⟩
  · have hfew := ((hpass _ _).mp hok).2.1 List.mem_cons_self
    omega
  · have heq := Session.allPlaced_iff.mp ((hall _ List.mem_cons_self).mp hok)
    omega

end Game

end Arithmancy
