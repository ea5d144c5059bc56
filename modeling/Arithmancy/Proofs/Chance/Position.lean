import Arithmancy.Chance.Generator

/-!
# Positions in the stream of draws

A generator is a position in a stream: each draw moves it one step ahead, whatever is made of
the number that is drawn. So a computation that draws can be accounted for by the number of
steps that it moves the generator (`Generator.ahead`), and these add up: along a list whose
members draw in turn (`Generator.mapDraws_snd`), and along a pass that carries data from one
turn to the next (`Generator.foldl_snd`).
-/

namespace Arithmancy

namespace Generator

variable {α β γ : Type}

/-- **The generator some draws ahead.** -/
def ahead (g : Generator α) (n : Nat) : Generator α := ⟨g.state + UInt32.ofNat n * increment⟩

theorem ahead_zero (g : Generator α) : g.ahead 0 = g := by
  show (⟨g.state + 0 * increment⟩ : Generator α) = g
  rw [UInt32.zero_mul, UInt32.add_zero]

theorem ahead_ahead (g : Generator α) (m n : Nat) : (g.ahead m).ahead n = g.ahead (m + n) := by
  rw [ahead, ahead, ahead, UInt32.ofNat_add, UInt32.add_mul, UInt32.add_assoc]

variable [Scalar α]

/-! ## Single draws -/

theorem draw_snd (g : Generator α) : (Source.draw g).2 = g.ahead 1 := by
  show (⟨g.state + increment⟩ : Generator α) = g.ahead 1
  rw [ahead, UInt32.ofNat_one, UInt32.one_mul]

/-- One member more counts for its own share. -/
theorem countP_cons_mul (p : β → Bool) (n : Nat) (b : β) (items : List β) :
    (b :: items).countP p * n = (if p b then n else 0) + items.countP p * n := by
  rw [List.countP_cons, Nat.add_mul, Nat.add_comm]
  split
  · rw [Nat.one_mul]
  · rw [Nat.zero_mul]

omit [Scalar α] in
/-- **Draws along a list** add up: they are as many as each of the members draws that draw at
all, times the number of those. -/
theorem mapDraws_snd {f : β → Generator α → γ × Generator α} {p : β → Bool} {n : Nat}
    {items : List β} (h : ∀ b ∈ items, ∀ g, (f b g).2 = g.ahead (if p b then n else 0))
    (g : Generator α) : (Source.mapDraws f items g).2 = g.ahead (items.countP p * n) := by
  induction items generalizing g with
  | nil =>
    rw [List.countP_nil, Nat.zero_mul, ahead_zero]
    rfl
  | cons b items ih =>
    obtain ⟨hb, hitems⟩ := List.forall_mem_cons.mp h
    rw [countP_cons_mul, ← ahead_ahead, ← hb g]
    exact ih hitems _

omit [Scalar α] in
/-- **Draws of a pass** add up in the same way, where each turn keeps what the number of draws
depends on. -/
theorem foldl_snd {ρ : Type} {P : β → Prop} {step : β × Generator α → ρ → β × Generator α}
    {p : ρ → Bool} {n : Nat}
    (hstep : ∀ x r, P x.1 →
      P (step x r).1 ∧ (step x r).2 = x.2.ahead (if p r then n else 0))
    (rs : List ρ) {x : β × Generator α} (hx : P x.1) :
    P (rs.foldl step x).1 ∧ (rs.foldl step x).2 = x.2.ahead (rs.countP p * n) := by
  induction rs generalizing x with
  | nil =>
    rw [List.countP_nil, Nat.zero_mul, ahead_zero]
    exact ⟨hx, rfl⟩
  | cons r rs ih =>
    obtain ⟨hkept, hdraws⟩ := hstep x r hx
    obtain ⟨hend, hall⟩ := ih hkept
    refine ⟨hend, hall.trans ?_⟩
    rw [hdraws, ahead_ahead, ← countP_cons_mul]

end Generator

end Arithmancy
