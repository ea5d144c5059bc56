import Arithmancy.Relic.Pass

/-!
# What a pass over relics comes to

Most of what is said of the relics of a player is that they leave something alone. Where
none of them takes part at a hook (`Relics.Idle`), the pass does nothing at all; and what
no relic changes when its turn comes, no pass changes. Several hooks belong to a single
relic, and a pass at such a hook is that relic's own doing.
-/

namespace Arithmancy

namespace Relics

variable {relics : List Relic}

/-! ## Hooks at which no relic takes part -/

/-- **No relic takes part at a hook.** -/
def Idle (h : Hook) (relics : List Relic) : Prop := ∀ r ∈ relics, r.hasHook h = false

instance (h : Hook) (relics : List Relic) : Decidable (Idle h relics) :=
  inferInstanceAs (Decidable (∀ r ∈ relics, r.hasHook h = false))

theorem withHook_of_idle {h : Hook} (hidle : Idle h relics) : withHook h relics = [] :=
  List.filter_eq_nil_iff.mpr fun r hr => by rw [hidle r hr]; decide

theorem onTakeDamage_of_idle (hidle : Idle .takeDamage relics) (damage : Nat)
    (memo : RelicMemo) : onTakeDamage relics damage memo = (damage, memo) := by
  rw [onTakeDamage, withHook_of_idle hidle]
  rfl

/-- A result that no relic touches is judged by its own value: the multiplier is one, and
so nothing is rounded. -/
theorem appraise_untouched {α : Type} [Scalar α] (hone : ((1 : α) == 1) = true) (value : α) :
    appraise (.untouched value) = ⟨value, 1, false, none, []⟩ := by
  unfold appraise Adjustment.untouched
  rw [if_pos hone]

theorem onEvaluate_of_idle (hidle : Idle .evaluate relics) (v : Verdict Float)
    (memo : RelicMemo) : (onEvaluate relics v memo).1 = ⟨v.raw, 1, false, none, []⟩ := by
  show appraise (adjustAll (withHook .evaluate relics) v) = _
  rw [withHook_of_idle hidle]
  exact appraise_untouched (by decide +kernel) v.raw

/-! ## Relics that can be skipped -/

/-- **Who changes nothing can be skipped**: a pass over some of the members of a list comes to the
same as the pass over all of them, if those left out change nothing. They need to do so only as
long as something holds that every member keeps. -/
theorem foldl_filter_eq {ρ β : Type} {P : β → Prop} {p : ρ → Bool} {f : β → ρ → β}
    (hkeeps : ∀ x r, P x → P (f x r)) (hskip : ∀ x r, P x → p r = false → f x r = x)
    (rs : List ρ) {x : β} (hx : P x) : (rs.filter p).foldl f x = rs.foldl f x := by
  induction rs generalizing x with
  | nil => rfl
  | cons r rs ih =>
    cases hr : p r with
    | true =>
      rw [List.filter_cons_of_pos hr]
      exact ih (hkeeps x r hx)
    | false =>
      rw [List.filter_cons_of_neg (Bool.eq_false_iff.mp hr), List.foldl_cons, hskip x r hx hr]
      exact ih hx

/-! ## Hooks of a single relic -/

/-- **At the hook of a single relic** only that relic takes part, as often as it is owned. -/
theorem withHook_eq_replicate {h : Hook} {r : Relic} (hsole : ∀ q, Relic.hasHook h q = (q == r))
    (relics : List Relic) : withHook h relics = List.replicate (relics.count r) r := by
  rw [withHook, List.filter_congr fun q _ => hsole q, List.filter_beq]

/-! ## What passes leave alone -/

/-- A hit is no evaluation. -/
theorem evaluations_onTakeDamage (relics : List Relic) (damage : Nat) (memo : RelicMemo) :
    (onTakeDamage relics damage memo).2.evaluations = memo.evaluations := by
  refine List.foldlRecOn (motive := fun x : Nat × RelicMemo => x.2.evaluations = memo.evaluations)
    _ _ rfl fun x hmemo r _ => ?_
  rw [← hmemo]
  show (r.onTakeDamage x.1 x.2).2.evaluations = _
  unfold Relic.onTakeDamage
  split
  · rfl
  · split <;> rfl
  · rfl
  · rfl

/-! ## Rescues -/

/-- **Only one relic saves the player** from a killing blow, with one hit point. -/
theorem rescue?_eq (relics : List Relic) :
    rescue? relics
      = if .phoenixFeather ∈ relics then some ⟨.phoenixFeather, 1⟩ else none := by
  have hsole : ∀ q, Relic.hasHook .lethalCheck q = (q == .phoenixFeather) :=
    fun q => by cases q <;> rfl
  rw [rescue?, rescueAll?, withHook_eq_replicate hsole]
  split
  · next hmem =>
    obtain ⟨n, hn⟩ := Nat.exists_eq_succ_of_ne_zero
      (Nat.pos_iff_ne_zero.mp (List.count_pos_iff.mpr hmem))
    rw [hn]
    rfl
  · next hmem =>
    rw [List.count_eq_zero.mpr hmem]
    rfl

/-! ## Cards -/

/-- Only one relic grants more than one use of a card. -/
theorem cardUses_eq (relics : List Relic) :
    cardUses relics = if relics.contains .recycler then 2 else 1 := by
  have hsole : ∀ q, Relic.hasHook .passive q = (q == .recycler) := fun q => by cases q <;> rfl
  rw [cardUses, cardUsesAll, withHook_eq_replicate hsole, List.map_replicate]
  by_cases h : Relic.recycler ∈ relics
  · rw [if_pos (List.contains_iff_mem.mpr h),
      List.max?_replicate_of_pos (List.count_pos_iff.mpr h)]
    rfl
  · rw [if_neg fun hc => h (List.contains_iff_mem.mp hc), List.count_eq_zero.mpr h]
    rfl

end Relics

end Arithmancy
