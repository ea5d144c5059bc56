import Arithmancy.Encounter.Turn
import Arithmancy.Proofs.Player
import Arithmancy.Proofs.Relic.Passes

/-!
# Hit points

Hit points are written in many places: relics heal and raise the limit, a strike takes hit
points away, and a rescue leaves one. Apart from the strike, all of these are **gentle**:
hit points stay within their limit, and a player who lives goes on living
(`Player.Gentle`). What they do for a player who is dead already is another matter. Two
relics heal whoever owns them, dead or alive, and the limit can be raised for the dead.
-/

namespace Arithmancy

namespace Player

variable {p p' p'' : Player}

/-- Hit points and their limit. -/
def health (p : Player) : Nat × Nat := (p.hp, p.maxHp)

theorem isAlive_iff : p.isAlive = true ↔ 0 < p.hp := decide_eq_true_iff

theorem isAlive_eq_false_iff : p.isAlive = false ↔ p.hp = 0 := by
  rw [isAlive, decide_eq_false_iff_not, Nat.not_lt, Nat.le_zero]

/-! ## Gentle changes -/

/-- **A gentle change**: hit points stay within their limit, and a player who lives goes on
living. -/
structure Gentle (p p' : Player) : Prop where
  /-- Hit points stay within their limit. -/
  within : p.hp ≤ p.maxHp → p'.hp ≤ p'.maxHp
  /-- Nobody dies of it. -/
  alive : p.hp ≤ p.maxHp → 0 < p.hp → 0 < p'.hp

namespace Gentle

theorem refl (p : Player) : p.Gentle p := ⟨id, fun _ => id⟩

theorem trans (h : p.Gentle p') (h' : p'.Gentle p'') : p.Gentle p'' where
  within hp := h'.within (h.within hp)
  alive hp halive := h'.alive (h.within hp) (h.alive hp halive)

/-- A change that leaves hit points and their limit alone is gentle. -/
theorem of_health (h : p'.health = p.health) : p.Gentle p' := by
  obtain ⟨hhp, hmax⟩ := Prod.mk.inj h
  exact ⟨fun hp => by rwa [hhp, hmax], fun _ halive => by rwa [hhp]⟩

/-- Gentle changes one after another are a gentle change. -/
theorem foldl {β : Type} {f : Player → β → Player} (h : ∀ p b, Gentle p (f p b))
    (items : List β) (p : Player) : p.Gentle (items.foldl f p) :=
  List.foldlRecOn (motive := p.Gentle) items f (refl p) fun q hq b _ => hq.trans (h q b)

end Gentle

theorem gentle_heal (p : Player) (amount : Nat) : p.Gentle (p.heal amount) where
  within _ := Nat.min_le_right _ _
  alive hp halive := Nat.lt_min.mpr ⟨Nat.add_pos_left halive amount, Nat.lt_of_lt_of_le halive hp⟩

theorem gentle_raiseMaxHp (p : Player) (amount : Nat) : p.Gentle (p.raiseMaxHp amount) := by
  constructor <;> simp only [raiseMaxHp, maxCount32] <;> omega

/-- The effects that relics ask for are gentle. -/
theorem gentle_affected (p : Player) (effects : List PlayerEffect) :
    p.Gentle (p.affected effects) :=
  Gentle.foldl (fun q effect => match effect with
    | .heal n => q.gentle_heal n
    | .raiseMaxHp n => q.gentle_raiseMaxHp n) effects p

/-! ## Relics that heal -/

theorem heal_heal (p : Player) (a b : Nat) : (p.heal a).heal b = p.heal (a + b) := by
  have hhp : min (min (p.hp + a) p.maxHp + b) p.maxHp = min (p.hp + (a + b)) p.maxHp := by omega
  simp only [heal, hhp]

theorem foldl_replicate_heal {r : Relic} {a : Nat} {f : Player → Relic → Player}
    (hf : ∀ p, f p r = p.heal a) (n : Nat) (p : Player) :
    (List.replicate (n + 1) r).foldl f p = p.heal ((n + 1) * a) := by
  induction n generalizing p with
  | zero => rw [List.replicate_one, List.foldl_cons, List.foldl_nil, hf, Nat.zero_add, Nat.one_mul]
  | succ n ih => rw [List.replicate_succ, List.foldl_cons, ih, hf, heal_heal, Nat.succ_mul (n + 1),
      Nat.add_comm]

/-- **At the hook of a single relic that heals**, the player is healed if the relic is
owned. -/
theorem foldl_withHook_heal {h : Hook} {r : Relic} {a : Nat} {f : Player → Relic → Player}
    (hsole : ∀ q, Relic.hasHook h q = (q == r)) (hf : ∀ p, f p r = p.heal a)
    (relics : List Relic) (p : Player) :
    (Relics.withHook h relics).foldl f p
      = if r ∈ relics then p.heal (relics.count r * a) else p := by
  rw [Relics.withHook_eq_replicate hsole]
  split
  · next hmem =>
    obtain ⟨n, hn⟩ := Nat.exists_eq_succ_of_ne_zero
      (Nat.pos_iff_ne_zero.mp (List.count_pos_iff.mpr hmem))
    rw [hn]
    exact foldl_replicate_heal hf n p
  · next hmem =>
    rw [List.count_eq_zero.mpr hmem]
    rfl

theorem onReroll_eq (p : Player) :
    p.onReroll = if .secondWind ∈ p.relics then p.heal (p.relics.count .secondWind * 1) else p :=
  foldl_withHook_heal (fun q => by cases q <;> rfl) (fun _ => rfl) p.relics p

/-- Relics take part in victories only. -/
theorem onCombatEnd_false (p : Player) : p.onCombatEnd false = p :=
  List.foldlRecOn (motive := fun q => q = p) _ _ rfl fun q hq r _ => by
    rw [hq]
    cases r <;> rfl

theorem onCombatEnd_true (p : Player) :
    p.onCombatEnd true = if .alchemistFlask ∈ p.relics
      then p.heal (p.relics.count .alchemistFlask * 3) else p :=
  have hsole : ∀ q, Relic.hasHook .combatEnd q = (q == .alchemistFlask) :=
    fun q => by cases q <;> rfl
  foldl_withHook_heal hsole (fun _ => rfl) p.relics p

/-- **A victory revives the dead** if the relic that heals after victories is owned. -/
theorem hp_onCombatEnd_pos_iff (hlimit : 0 < p.maxHp) {victory : Bool} :
    0 < (p.onCombatEnd victory).hp ↔ 0 < p.hp ∨ victory = true ∧ .alchemistFlask ∈ p.relics := by
  cases victory with
  | false => simp [onCombatEnd_false]
  | true =>
    rw [onCombatEnd_true]
    split
    · next hmem =>
      have hcount := List.count_pos_iff.mpr hmem
      simp only [heal, hmem, and_self, or_true, iff_true]
      omega
    · next hmem => simp [hmem]

theorem gentle_onReroll (p : Player) : p.Gentle p.onReroll := by
  rw [onReroll_eq]
  split
  · exact p.gentle_heal _
  · exact .refl p

theorem gentle_onCombatEnd (p : Player) (victory : Bool) : p.Gentle (p.onCombatEnd victory) := by
  cases victory with
  | false => exact p.onCombatEnd_false.symm ▸ .refl p
  | true =>
    rw [onCombatEnd_true]
    split
    · exact p.gentle_heal _
    · exact .refl p

/-- **A reroll changes hit points** exactly if the player owns the relic that heals on
rerolls and does not stand at the limit. -/
theorem health_onReroll_eq_iff :
    p.onReroll.health = p.health ↔ ¬(.secondWind ∈ p.relics ∧ p.hp ≠ p.maxHp) := by
  rw [onReroll_eq]
  split
  · next hmem =>
    have hcount := List.count_pos_iff.mpr hmem
    simp only [health, heal, Prod.mk.injEq, hmem, true_and, and_true]
    omega
  · next hmem => simp [hmem]

/-! ## Relics that are acquired -/

/-- **What is acquired is gentle**, also the relic that lowers the limit. -/
theorem gentle_onPickup (p : Player) (r : Relic) : p.Gentle (r.onPickup p) := by
  cases r with
  | ironSkin => exact p.gentle_raiseMaxHp 15
  | glassCannon => constructor <;> simp only [Relic.onPickup] <;> omega
  | _ => exact .of_health rfl

theorem gentle_addRelic {r : Relic} (h : p.addRelic r = .ok p') : p.Gentle p' := by
  unfold addRelic at h
  split at h
  · cases h
  · rw [← Except.ok.inj h]
    have howner : p.Gentle { p with relics := p.relics ++ [r] } := .of_health rfl
    split
    · exact howner.trans (gentle_onPickup _ r)
    · exact howner

/-- **One relic revives the dead**: the one that raises hit points together with their
limit. -/
theorem hp_addRelic_of_dead (hdead : p.hp = 0) {r : Relic} (h : p.addRelic r = .ok p') :
    0 < p'.hp ↔ r = .ironSkin := by
  unfold addRelic at h
  split at h
  · cases h
  · rw [← Except.ok.inj h]
    cases r <;> simp [Relic.hasHook, Relic.hooks, Relic.onPickup, raiseMaxHp, maxCount32, hdead]

/-! ## Strikes -/

/-- **A player who is hit** loses hit points. If none are left, the player is saved with one
by the relic that is lost then, or stays dead. -/
theorem suffer_eq (p : Player) (relics : List Relic) (damage : Nat) :
    p.suffer relics damage =
      if (p.takeDamage damage).isAlive then (p.takeDamage damage, none)
      else if .phoenixFeather ∈ relics then
        ({ p with hp := 1 }.removeRelic .phoenixFeather, some ⟨.phoenixFeather, 1⟩)
      else (p.takeDamage damage, none) := by
  unfold suffer
  rw [Relics.rescue?_eq]
  by_cases hmem : Relic.phoenixFeather ∈ relics
  · rw [if_pos hmem, if_pos hmem]
    rfl
  · rw [if_neg hmem, if_neg hmem]

theorem suffer_fst (p : Player) (relics : List Relic) (damage : Nat) :
    (p.suffer relics damage).1 = p.takeDamage damage
      ∨ (p.suffer relics damage).1 = { p with hp := 1 }.removeRelic .phoenixFeather := by
  rw [suffer_eq]
  split
  · exact .inl rfl
  · split
    · exact .inr rfl
    · exact .inl rfl

theorem maxHp_suffer (p : Player) (relics : List Relic) (damage : Nat) :
    (p.suffer relics damage).1.maxHp = p.maxHp := by
  rcases p.suffer_fst relics damage with h | h <;> rw [h] <;> rfl

/-- **A player who is hit keeps every relic** but the one that saves lives, in their order. -/
theorem filter_relics_suffer (p : Player) (relics : List Relic) (damage : Nat) {f : Relic → Bool}
    (hf : f .phoenixFeather = false) :
    (p.suffer relics damage).1.relics.filter f = p.relics.filter f := by
  rcases p.suffer_fst relics damage with h | h
  · rw [h]
    rfl
  · rw [h]
    show (p.relics.filter (· != .phoenixFeather)).filter f = _
    rw [List.filter_filter]
    refine List.filter_congr fun r _ => ?_
    by_cases hr : r = .phoenixFeather
    · rw [hr, hf, Bool.false_and]
    · rw [bne_iff_ne.mpr hr, Bool.and_true]

theorem mem_relics_suffer (p : Player) (relics : List Relic) (damage : Nat) {r : Relic}
    (hr : r ≠ .phoenixFeather) : r ∈ (p.suffer relics damage).1.relics ↔ r ∈ p.relics := by
  have hkeeps := p.filter_relics_suffer relics damage (f := (· == r))
    (beq_eq_false_iff_ne.mpr hr.symm)
  have hmem {rs : List Relic} : r ∈ rs.filter (· == r) ↔ r ∈ rs := by
    rw [List.mem_filter, beq_self_eq_true, and_iff_left rfl]
  rw [← hmem, hkeeps, hmem]

/-- Hit points stay within their limit in a strike. -/
theorem suffer_within (hp : p.hp ≤ p.maxHp) (hlimit : 0 < p.maxHp) (relics : List Relic)
    (damage : Nat) : (p.suffer relics damage).1.hp ≤ (p.suffer relics damage).1.maxHp := by
  rw [maxHp_suffer]
  rcases p.suffer_fst relics damage with h | h
  · rw [h]
    exact Nat.le_trans (Nat.sub_le _ _) hp
  · rw [h]
    exact hlimit

end Player

end Arithmancy
