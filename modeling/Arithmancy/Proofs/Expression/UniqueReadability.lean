import Arithmancy.Proofs.Expression.Reading

/-!
# Every accepted expression has one reading

To read the tokens of an arranged tree is to rebuild it, right edge first: while they
are read, the operators along that edge wait (`SyntaxTree.spine`), and the operand at
its end (`SyntaxTree.tip`) is the operand read last. So no two arranged trees have the
same tokens, and an expression passes the scan of the grammar exactly if it has a
reading.
-/

namespace Arithmancy

/-! ## The right edge of a tree -/

namespace SyntaxTree

open Pending

variable {α : Type}

/-- The operators along the right edge of a tree, which wait for the end of the tree
when its tokens are read. -/
def spine : SyntaxTree α → List (Pending α)
  | before card operand => operand.spine ++ [.before card]
  | between left card right => right.spine ++ [.between left card]
  | _ => []

/-- The operand at the end of the right edge. -/
def tip : SyntaxTree α → SyntaxTree α
  | before _ operand => operand.tip
  | between _ _ right => right.tip
  | t => t

/-- A tree is its right edge put together again. -/
theorem completeAll_spine (t : SyntaxTree α) : completeAll t.tip t.spine = t := by
  induction t with
  | number value die => rfl
  | group opening inner closing => rfl
  | before card operand ih => rw [spine, tip, completeAll_append, ih]; rfl
  | after operand card => rfl
  | between left card right _ ih => rw [spine, tip, completeAll_append, ih]; rfl

theorem spine_eq_nil {t : SyntaxTree α} (h : 6 ≤ t.binding) : t.spine = [] := by
  cases t with
  | number value die => rfl
  | group opening inner closing => rfl
  | before card operand => simp [binding] at h
  | after operand card => rfl
  | between left card right =>
    have := card.op.level_le_four
    simp only [binding] at h
    omega

/-- What waits along the right edge binds at least as tightly as the whole tree, is
sound, and opens no group. -/
theorem Arranged.spine {t : SyntaxTree α} (h : t.Arranged) :
    ∀ p ∈ t.spine, p.Sound ∧ (∀ card, p ≠ .group card) ∧ t.binding ≤ p.binding := by
  induction t with
  | number value die => simp [SyntaxTree.spine]
  | group opening inner closing => simp [SyntaxTree.spine]
  | after operand card => simp [SyntaxTree.spine]
  | before card operand ih =>
    intro p hp
    rcases List.mem_append.mp hp with hp | hp
    · obtain ⟨hs, hg, hb⟩ := ih h.2.2 p hp
      exact ⟨hs, hg, Nat.le_trans h.2.1 hb⟩
    · obtain rfl := List.mem_singleton.mp hp
      exact ⟨h.1, by simp, Nat.le_refl 5⟩
  | between left card right _ ih =>
    obtain ⟨hfix, hleft, hright, harrl, harrr⟩ := h
    intro p hp
    rcases List.mem_append.mp hp with hp | hp
    · obtain ⟨hs, hg, hb⟩ := ih harrr p hp
      exact ⟨hs, hg, Nat.le_trans hright.le hb⟩
    · obtain rfl := List.mem_singleton.mp hp
      exact ⟨⟨hfix, hleft, harrl⟩, by simp, Nat.le_refl _⟩

theorem Arranged.opens_spine {t : SyntaxTree α} (h : t.Arranged) :
    ∀ p ∈ t.spine, Yard.opens p.card = false := by
  intro p hp
  obtain ⟨hs, hg, -⟩ := h.spine p hp
  exact hs.opens_eq_false hg

end SyntaxTree

/-! ## A tree is rebuilt from its tokens -/

namespace Reading

open Pending

variable {α : Type}

/-- **Reading the tokens of an arranged tree** leaves the operators along its right
edge waiting, above those that waited already. -/
theorem run_tokens {t : SyntaxTree α} (h : t.Arranged) (ps : List (Pending α))
    (hps : ∀ p ∈ ps, p.Sound) (hw : Welcome t.binding ps) :
    Run ⟨ps, none⟩ t.tokens ⟨t.spine ++ ps, some t.tip⟩ := by
  induction t generalizing ps with
  | number value die => exact .single (.number value die)
  | group opening inner closing ih =>
    obtain ⟨ho, hc, hinner⟩ := h
    refine .cons (.opening ho) (Run.append (ih hinner _ ?_ ?_) (.single ?_))
    · exact List.forall_mem_cons.mpr ⟨ho, hps⟩
    · exact fun p hp => by cases hp; trivial
    · have hopens : Yard.opens opening = true := by rw [Yard.opens, ho]; rfl
      have hstep : Step ⟨inner.spine ++ .group opening :: ps, some inner.tip⟩ (.operator closing)
          ⟨ps, some (.group opening (completeAll inner.tip inner.spine) closing)⟩ :=
        .closing hc hopens hinner.opens_spine
      rw [inner.completeAll_spine] at hstep
      exact hstep
  | before card operand ih =>
    obtain ⟨hfix, hb, harr⟩ := h
    have hrest := ih harr (.before card :: ps) (List.forall_mem_cons.mpr ⟨hfix, hps⟩)
      fun p hp => by cases hp; exact hb
    rw [SyntaxTree.spine, List.append_assoc]
    exact .cons (.before hfix) hrest
  | after operand card ih =>
    obtain ⟨hfix, hb, harr⟩ := h
    -- an operand of an operator after it has no right edge, so it is itself on top
    have hrun := ih harr ps hps (welcome_of_le (by omega) ps)
    have hcomplete := operand.completeAll_spine
    rw [SyntaxTree.spine_eq_nil hb] at hrun hcomplete
    rw [show operand.tip = operand from hcomplete] at hrun
    exact hrun.append (.single (.after hfix))
  | between left card right ihl ihr =>
    obtain ⟨hfix, hleft, hright, harrl, harrr⟩ := h
    have hwl : Welcome left.binding ps := fun p hp => (hw p hp).mono hleft.le
    -- the whole right edge of the left operand yields, and nothing below it does
    have hspine : ∀ q ∈ left.spine, Yard.yieldsTo card q.card = true := fun q hq => by
      obtain ⟨hs, hg, hb⟩ := harrl.spine q hq
      exact (yieldsTo_iff hfix hs hg).mpr (hleft.mono hb)
    have hstep : Step ⟨left.spine ++ ps, some left.tip⟩ (.operator card)
        ⟨.between (completeAll left.tip left.spine) card :: ps, none⟩ :=
      .between hfix hspine fun p hp =>
        (not_yieldsTo_iff hfix (hps p (List.mem_of_mem_head? hp))).mpr (hw p hp)
    rw [left.completeAll_spine] at hstep
    have hrest := ihr harrr (.between left card :: ps)
      (List.forall_mem_cons.mpr ⟨⟨hfix, hleft, harrl⟩, hps⟩) fun p hp => by cases hp; exact hright
    rw [SyntaxTree.spine, List.append_assoc]
    exact (ihl harrl ps hps hwl).append (.cons hstep hrest)

/-- The tokens of an arranged tree are read from nothing, and what then waits is
completed to the tree. -/
theorem run_of_reads {t : SyntaxTree α} {e : Expression α} (h : t.Reads e) :
    Run start e ⟨t.spine, some t.tip⟩ := by
  have hrun := run_tokens h.arranged [] (by simp) (by simp [Welcome])
  rw [h.tokens_eq, List.append_nil] at hrun
  exact hrun

end Reading

/-! ## The grammar and the trees -/

open Reading Pending

variable {α : Type}

/-- **No expression has two readings.** -/
theorem SyntaxTree.Reads.unique {t t' : SyntaxTree α} {e : Expression α} (h : t.Reads e)
    (h' : t'.Reads e) : t = t' := by
  have heq := (run_of_reads h).unique (run_of_reads h')
  rw [Reading.mk.injEq, Option.some.injEq] at heq
  rw [← t.completeAll_spine, ← t'.completeAll_spine, heq.1, heq.2]

theorem Cursor.finish_eq_ok_iff {c : Cursor} :
    (c.finish : Except (ExpressionFault α) Unit) = .ok () ↔ c = ⟨false, 0⟩ := by
  obtain ⟨expectValue, depth⟩ := c
  cases expectValue <;> by_cases h : depth = 0 <;> simp [Cursor.finish, h]

/-- An expression passes if the scan ends after a value with every group closed. -/
theorem Expression.validate_eq_ok_iff {e : Expression α} :
    e.validate = .ok () ↔ Cursor.start.scan 1 e = .ok ⟨false, 0⟩ := by
  cases e with
  | nil => simp [Expression.validate, Cursor.scan, Cursor.start]
  | cons token e =>
    rw [Expression.validate]
    · cases Cursor.start.scan 1 (token :: e) with
      | error fault => simp
      | ok c => rw [Except.ok.injEq]; exact Cursor.finish_eq_ok_iff
    · simp

/-- What has a reading passes the scan. -/
theorem SyntaxTree.Reads.validate {t : SyntaxTree α} {e : Expression α} (h : t.Reads e) :
    e.validate = .ok () := by
  have hzero := countP_opens h.arranged.opens_spine
  have hcursor : Reading.cursor ⟨t.spine, some t.tip⟩ = ⟨false, 0⟩ := by
    rw [Reading.cursor, hzero]
    rfl
  rw [Expression.validate_eq_ok_iff, ← hcursor]
  exact (run_of_reads h).cursor 1

/-- **What passes the scan has a reading**, and its postfix order is the order in
which the tree is carried out. -/
theorem exists_reads {e : Expression α} (h : e.validate = .ok ()) :
    ∃ t : SyntaxTree α, t.Reads e ∧ e.toPostfix = t.postorder := by
  obtain ⟨⟨ps, current⟩, hrun, hcursor⟩ :=
    exists_run sound_start (Expression.validate_eq_ok_iff.mp h)
  rw [Reading.cursor, Cursor.mk.injEq] at hcursor
  obtain ⟨hcurrent, hdepth⟩ := hcursor
  cases current with
  | none => exact absurd hcurrent (by simp)
  | some t =>
    have hsound := hrun.sound sound_start
    have hopens : ∀ p ∈ ps, Yard.opens p.card = false := fun p hp => by
      rw [← Bool.not_eq_true]
      exact List.countP_eq_zero.mp hdepth p hp
    have hnested : Nested (ps ++ []) := by rw [List.append_nil]; exact hsound.nested
    have hg : Groupless ps := hnested.groupless_iff.mpr hopens
    obtain ⟨harr, -, -⟩ := hnested.completeAll hg (hsound.arranged t rfl)
      (welcome_of_le (Nat.le_trans (by decide) (hsound.binding t rfl)) _)
    refine ⟨completeAll t ps, ⟨harr, ?_⟩, ?_⟩
    · rw [tokens_completeAll hg]
      exact hrun.tokens sound_start
    · have hfilter : (ps.map Pending.card).filter (!Yard.opens ·) = ps.map Pending.card :=
        List.filter_eq_self.mpr fun card hcard => by
          obtain ⟨p, hp, rfl⟩ := List.mem_map.mp hcard
          rw [hopens p hp]
          rfl
      rw [Expression.toPostfix, show Yard.start = (start : Reading α).yard from rfl,
        ← hrun.yard sound_start, Yard.finish, Reading.yard, hfilter, postorder_completeAll hg,
        List.map_map]
      rfl

end Arithmancy
