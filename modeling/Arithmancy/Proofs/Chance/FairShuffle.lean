import Mathlib.Algebra.BigOperators.Fin
import Mathlib.Data.Fintype.BigOperators
import Mathlib.Data.List.Nodup
import Mathlib.Data.Nat.Factorial.Basic
import Mathlib.Logic.Function.Iterate
import Arithmancy.Proofs.Chance.Draws

/-!
# Fair shuffles

A shuffle walks from the back of a list to its front, and exchanges each place but the first with
one of the places up to it. What these are is all that chance has to say: once they are chosen, the
arrangement is settled (`Source.arrange`). There are as many ways to choose as there are
arrangements of different things, namely `n!` for `n` of them (`Source.card_choices`). That alone
does not make a shuffle fair. It could reach some arrangements more often than others, and would
still rearrange; a bound on the choices that is off by one is enough for that.

So it is said here that no arrangement is reached twice (`Source.arrangeFrom_injective`) and none
is missed (`Source.exists_arrangeFrom`). The first is read off the last place, where the list is
final after one exchange: it shows which place was chosen, since no two things are the same. For
the second the choice is made so that the place gets what it is to have; that thing must be among
the places up to it, since all places behind are final. The main statement, `Source.shuffle_fair`,
adds what a source has to do with it: it chooses by one draw for every place but the first, and
what it chooses is the number drawn times the number of places, rounded down. Where words are
drawn, no other rounding comes in (`Source.Draws.drawnChoices_eq`).
-/

namespace Arithmancy

namespace Source

variable {σ α β : Type}

/-! ## Exchanges -/

section Exchange

variable {items : List β} {i j : Nat}

theorem exchange_eq (hi : i < items.length) (hj : j < items.length) :
    exchange items i j = (items.set i items[j]).set j items[i] := by
  rw [exchange, List.getElem?_eq_getElem hi, List.getElem?_eq_getElem hj]

theorem length_exchange (items : List β) (i j : Nat) :
    (exchange items i j).length = items.length :=
  (exchange_perm items i j).length_eq

/-- A place gets what was at the place that it is exchanged with. -/
theorem getElem?_exchange_self (hi : i < items.length) (hj : j < items.length) :
    (exchange items i j)[i]? = items[j]? := by
  rw [exchange_eq hi hj, List.getElem?_eq_getElem hj, List.getElem?_set, List.length_set]
  by_cases hji : j = i
  · subst hji
    rw [if_pos rfl, if_pos hj]
  · rw [if_neg hji, List.getElem?_set_self hi]

/-- All other places keep what they have. -/
theorem getElem?_exchange_of_ne {k : Nat} (hi : k ≠ i) (hj : k ≠ j) :
    (exchange items i j)[k]? = items[k]? := by
  unfold exchange
  split
  · rw [List.getElem?_set_ne hj.symm, List.getElem?_set_ne hi.symm]
  · rfl

end Exchange

/-! ## Choices -/

/-- **The choices for the places after the first**: for each of them, one of the places up to
it. -/
abbrev Choices (k : Nat) : Type := (i : Fin k) → Fin (i + 2)

/-- **There are `(k + 1)!` choices** for `k` places after the first. -/
theorem card_choices (k : Nat) : Fintype.card (Choices k) = (k + 1).factorial := by
  rw [Fintype.card_pi]
  induction k with
  | zero => rfl
  | succ k ih =>
    rw [Fin.prod_univ_castSucc, Nat.factorial_succ (k + 1), ← ih, Nat.mul_comm]
    simp

theorem last_choice_le {k : Nat} (c : Choices (k + 1)) : (c (Fin.last k)).val ≤ k + 1 :=
  Nat.lt_succ_iff.mp (c (Fin.last k)).is_lt

/-- What choices make of a list, from the back to the front. -/
def arrangeFrom : (k : Nat) → Choices k → List β → List β
  | 0, _, items => items
  | k + 1, c, items => arrangeFrom k (Fin.init c) (exchange items (k + 1) (c (Fin.last k)))

theorem arrangeFrom_perm (k : Nat) (c : Choices k) (items : List β) :
    (arrangeFrom k c items).Perm items := by
  induction k generalizing items with
  | zero => exact .refl items
  | succ k ih => exact (ih _ _).trans (exchange_perm _ _ _)

/-- The arrangements of a list. -/
abbrev Arrangement (items : List β) : Type := {l : List β // l.Perm items}

/-- **The arrangement of a list** that choices for all its places make. -/
def arrange (items : List β) (c : Choices (items.length - 1)) : Arrangement items :=
  ⟨arrangeFrom (items.length - 1) c items, arrangeFrom_perm _ c items⟩

/-- **Places behind those still to be chosen for are final.** -/
theorem getElem?_arrangeFrom {k p : Nat} (h : k < p) (c : Choices k) (items : List β) :
    (arrangeFrom k c items)[p]? = items[p]? := by
  induction k generalizing items with
  | zero => rfl
  | succ k ih =>
    have hlast := last_choice_le c
    rw [arrangeFrom, ih (by omega)]
    exact getElem?_exchange_of_ne (by omega) (by omega)

/-- The last place still to be chosen for gets what was at the place that is chosen. -/
theorem getElem?_arrangeFrom_succ {k : Nat} {items : List β} (hk : k + 1 < items.length)
    (c : Choices (k + 1)) :
    (arrangeFrom (k + 1) c items)[k + 1]? = items[(c (Fin.last k)).val]? := by
  rw [arrangeFrom, getElem?_arrangeFrom (Nat.lt_succ_self k)]
  exact getElem?_exchange_self hk (Nat.lt_of_le_of_lt (last_choice_le c) hk)

/-! ## One arrangement for each choice -/

/-- **No arrangement of different things is reached twice.** -/
theorem arrangeFrom_injective {k : Nat} {items : List β} (hitems : items.Nodup)
    (hk : k ≤ items.length - 1) : Function.Injective fun c => arrangeFrom k c items := by
  intro c c' h
  induction k generalizing items with
  | zero => exact funext fun i => i.elim0
  | succ k ih =>
    have hk : k + 1 < items.length := by omega
    -- The last place shows what was chosen for it.
    have hplace : items[(c (Fin.last k)).val]? = items[(c' (Fin.last k)).val]? := by
      rw [← getElem?_arrangeFrom_succ hk c, ← getElem?_arrangeFrom_succ hk c']
      exact congrArg (·[k + 1]?) h
    have hbound := Nat.lt_of_le_of_lt (last_choice_le c) hk
    have hlast : c (Fin.last k) = c' (Fin.last k) :=
      Fin.ext ((List.getElem?_inj hbound hitems).mp hplace)
    have hinit : Fin.init c = Fin.init c' := by
      refine ih ((exchange_perm items (k + 1) (c (Fin.last k))).nodup_iff.mpr hitems) ?_ ?_
      · rw [length_exchange]
        omega
      · simpa only [arrangeFrom, hlast] using h
    rw [← Fin.snoc_init_self c, ← Fin.snoc_init_self c', hinit, hlast]

/-- **No arrangement is missed** that leaves the places as they are for which nothing is
chosen. -/
theorem exists_arrangeFrom {k : Nat} {items l : List β} (hitems : items.Nodup)
    (hk : k ≤ items.length - 1) (hperm : l.Perm items) (hfinal : ∀ p, k < p → l[p]? = items[p]?) :
    ∃ c, arrangeFrom k c items = l := by
  induction k generalizing items with
  | zero =>
    refine ⟨fun i => i.elim0, ?_⟩
    cases items with
    | nil => rw [hperm.eq_nil, arrangeFrom]
    | cons x items =>
      obtain ⟨y, l, rfl⟩ := List.exists_cons_of_length_eq_add_one hperm.length_eq
      have htail : l = items := List.ext_getElem? fun p => hfinal (p + 1) p.succ_pos
      subst htail
      have hheads : [y] = [x] := List.perm_singleton.mp
        ((List.perm_append_right_iff l).mp (show ([y] ++ l).Perm ([x] ++ l) from hperm))
      rw [List.head_eq_of_cons_eq hheads, arrangeFrom]
  | succ k ih =>
    have hk : k + 1 < items.length := by omega
    have hkl : k + 1 < l.length := hperm.length_eq ▸ hk
    -- The place chosen is the one that has what the last place is to have. It cannot lie behind:
    -- there the list is final, and has that thing in one place only.
    obtain ⟨j, hj, hchosen⟩ := List.getElem_of_mem (hperm.mem_iff.mp (List.getElem_mem hkl))
    have hplace : items[j]? = l[k + 1]? := by
      rw [List.getElem?_eq_getElem hj, hchosen, List.getElem?_eq_getElem hkl]
    have hjk : j < k + 2 := by
      by_contra hbehind
      have hsame : l[j]? = l[k + 1]? := (hfinal j (by omega)).trans hplace
      have hj' := (List.getElem?_inj (hperm.length_eq ▸ hj) (hperm.nodup_iff.mpr hitems)).mp hsame
      omega
    have hexchange := exchange_perm items (k + 1) j
    have hrest : ∀ p, k < p → l[p]? = (exchange items (k + 1) j)[p]? := by
      intro p hp
      rcases Nat.eq_or_lt_of_le (Nat.succ_le_of_lt hp) with rfl | hp
      · rw [getElem?_exchange_self hk hj, hplace]
      · rw [getElem?_exchange_of_ne (by omega) (by omega), hfinal p hp]
    obtain ⟨c, hc⟩ := ih (hexchange.nodup_iff.mpr hitems) (by rw [length_exchange]; omega)
      (hperm.trans hexchange.symm) hrest
    refine ⟨Fin.snoc c ⟨j, hjk⟩, ?_⟩
    rw [arrangeFrom, Fin.init_snoc, Fin.snoc_last]
    exact hc

theorem arrange_bijective {items : List β} (hitems : items.Nodup) :
    Function.Bijective (arrange items) := by
  refine ⟨fun c c' h => arrangeFrom_injective hitems le_rfl (congrArg Subtype.val h), ?_⟩
  rintro ⟨l, hl⟩
  have hlength := hl.length_eq
  obtain ⟨c, hc⟩ := exists_arrangeFrom hitems le_rfl hl fun p hp => by
    rw [List.getElem?_eq_none (by omega), List.getElem?_eq_none (by omega)]
  exact ⟨c, Subtype.ext hc⟩

/-! ## Choices that are drawn -/

section Drawn

variable [Source σ α]

/-- A source after a number of draws. -/
def after (m : Nat) (s : σ) : σ := (fun s => (draw s).2)^[m] s

theorem after_succ (m : Nat) (s : σ) : after (m + 1) s = after m (draw s).2 := rfl

variable [Scalar α]

/-- **The choices that a source makes**, from the back to the front, with one draw for each
place. -/
def drawnChoices (k : Nat) (s : σ) : Choices k := fun i =>
  ⟨(nextIndex (i + 2) (after (k - 1 - i) s)).1, nextIndex_lt (Nat.succ_pos _) _⟩

/-- **What is chosen for a place** is the number drawn for it times the number of places up to it,
rounded down, and no further than to that place itself. -/
theorem val_drawnChoices (k : Nat) (s : σ) (i : Fin k) :
    (drawnChoices k s i).val = min (i.val + 1) (Scalar.toNat maxCount64
      (Scalar.floor ((draw (after (k - 1 - i) s)).1 * Scalar.ofNat (i.val + 2)))) :=
  Nat.min_comm _ _

theorem init_drawnChoices (k : Nat) (s : σ) :
    Fin.init (drawnChoices (k + 1) s) = drawnChoices k (draw s).2 := by
  funext i
  have hdraws : k + 1 - 1 - i.val = (k - 1 - i.val) + 1 := by omega
  apply Fin.ext
  show (nextIndex (i.val + 2) (after (k + 1 - 1 - i.val) s)).1 = _
  rw [hdraws, after_succ]
  rfl

theorem drawnChoices_last (k : Nat) (s : σ) :
    (drawnChoices (k + 1) s (Fin.last k)).val = (nextIndex (k + 2) s).1 := by
  show (nextIndex (k + 2) (after (k + 1 - 1 - k) s)).1 = _
  rw [show k + 1 - 1 - k = 0 by omega]
  rfl

/-- **A shuffle makes of a list what its choices say**, with one draw for each. -/
theorem shuffleFrom_eq (k : Nat) (items : List β) (s : σ) :
    shuffleFrom k items s = (arrangeFrom k (drawnChoices k s) items, after k s) := by
  induction k generalizing items s with
  | zero => rfl
  | succ k ih =>
    rw [arrangeFrom, init_drawnChoices, drawnChoices_last, after_succ]
    exact ih _ _

end Drawn

/-! ## Fairness -/

/-- **A word chooses one of the places up to its own**: the one that it selects among them. -/
theorem Draws.drawnChoices_eq {σ : Type} [Source σ Float] {s : σ} {k word : Nat} {i : Fin k}
    (h : Draws (after (k - 1 - i) s) word) (hk : k < 2 ^ 21) :
    (drawnChoices k s i : Nat) = word * (i + 2) / 2 ^ 32 :=
  congrArg Prod.fst (h.nextIndex_eq (Nat.succ_pos _) (by omega))

/-- **A shuffle is fair.** For a list of `n` different things there are `n!` choices, and each
arrangement is made by one of them and by no other. Of any list, a shuffle makes the arrangement
for which it draws the choices, one draw for each place but the first. The choice for a place is
the number that is drawn times the number of places up to it, rounded down, and no further than
to that place itself. -/
theorem shuffle_fair [Scalar α] [Source σ α] (items : List β) :
    (items.Nodup → Function.Bijective (arrange items)) ∧
    Fintype.card (Choices (items.length - 1)) = items.length.factorial ∧
    ∀ s : σ, (shuffle items s).1 = arrange items (drawnChoices (items.length - 1) s) ∧
      (shuffle items s).1.Perm items ∧
      (shuffle items s).2 = after (items.length - 1) s ∧
      ∀ i, (drawnChoices (items.length - 1) s i).val = min (i.val + 1) (Scalar.toNat maxCount64
        (Scalar.floor ((draw (after (items.length - 2 - i) s)).1 * Scalar.ofNat (i.val + 2)))) := by
  refine ⟨arrange_bijective, ?_, fun s => ?_⟩
  · rw [card_choices]
    cases items with
    | nil => rfl
    | cons x items => rfl
  · have h := shuffleFrom_eq (items.length - 1) items s
    exact ⟨congrArg Prod.fst h, shuffle_perm items s, congrArg Prod.snd h,
      val_drawnChoices (items.length - 1) s⟩

/-- Three things are arranged in six ways, one for each of the choices. -/
theorem shuffle_fair_of_three : [1, 2, 3].Nodup ∧ Function.Bijective (arrange [1, 2, 3]) ∧
    Fintype.card (Choices 2) = 6 :=
  ⟨by decide, (shuffle_fair (σ := Generator Float) [1, 2, 3]).1 (by decide), card_choices 2⟩

end Source

end Arithmancy
