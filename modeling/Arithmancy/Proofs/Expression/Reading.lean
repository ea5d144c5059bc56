import Arithmancy.Proofs.Expression.Pending

/-!
# Reading an expression from left to right

The scan of the grammar keeps a flag and a count; the way into postfix order keeps
an output and a stack of cards. Both are shadows of one thing: the tree that has been
read so far. A **reading** is that tree, torn open along its right edge. It consists
of the operators that still wait for their right end, each with the operand it
already has, and of the operand that was completed last, unless a value is due.

`Reading.Step` reads one token into it. The shadows are `Reading.cursor` and
`Reading.yard`, and a step of the reading is a step of each of them. In the other
direction, the scan never gets ahead: whatever token it lets pass can be read, and in
one way only.
-/

namespace Arithmancy

/-! ## Readings -/

/-- **What has been read so far**: the operators that wait for their right end, and
the operand read last, unless a value is due. -/
structure Reading (α : Type) where
  /-- The waiting operators, the latest first. -/
  pending : List (Pending α)
  /-- The operand read last, torn off the waiting operators. -/
  current : Option (SyntaxTree α)
deriving DecidableEq, Repr

namespace Reading

open Pending

variable {α : Type}

/-- Nothing has been read. -/
def start : Reading α := ⟨[], none⟩

/-- The tokens that have been read. -/
def tokens (r : Reading α) : Expression α :=
  tokensOf r.pending ++ (r.current.map SyntaxTree.tokens).getD []

/-- Where the scan of the grammar stands. -/
def cursor (r : Reading α) : Cursor :=
  ⟨r.current.isNone, r.pending.countP fun p => Yard.opens p.card⟩

/-- How far the way into postfix order has come. -/
def yard (r : Reading α) : Yard α :=
  ⟨postorderOf r.pending ++ (r.current.map SyntaxTree.postorder).getD [],
    r.pending.map Pending.card⟩

/-- **One token is read.** An operator between operands takes for its left operand
whatever yields to it; a closing parenthesis completes its group. -/
inductive Step : Reading α → Token α → Reading α → Prop where
  | number {ps} (value : α) (die : Option DieId) :
    Step ⟨ps, none⟩ (.number value die) ⟨ps, some (.number value die)⟩
  | opening {ps} {card : Card} (h : card.op.fixity = .opening) :
    Step ⟨ps, none⟩ (.operator card) ⟨.group card :: ps, none⟩
  | before {ps} {card : Card} (h : card.op.fixity = .before) :
    Step ⟨ps, none⟩ (.operator card) ⟨.before card :: ps, none⟩
  | after {ps} {t : SyntaxTree α} {card : Card} (h : card.op.fixity = .after) :
    Step ⟨ps, some t⟩ (.operator card) ⟨ps, some (.after t card)⟩
  | between {qs ps : List (Pending α)} {t : SyntaxTree α} {card : Card}
    (h : card.op.fixity = .between)
    (hqs : ∀ q ∈ qs, Yard.yieldsTo card q.card = true)
    (hps : ∀ p ∈ ps.head?, Yard.yieldsTo card p.card = false) :
    Step ⟨qs ++ ps, some t⟩ (.operator card) ⟨.between (completeAll t qs) card :: ps, none⟩
  | closing {qs ps : List (Pending α)} {t : SyntaxTree α} {opening card : Card}
    (h : card.op.fixity = .closing)
    (ho : Yard.opens opening = true)
    (hqs : ∀ q ∈ qs, Yard.opens q.card = false) :
    Step ⟨qs ++ .group opening :: ps, some t⟩ (.operator card)
      ⟨ps, some (.group opening (completeAll t qs) card)⟩

/-- **Tokens are read one after another.** -/
inductive Run : Reading α → Expression α → Reading α → Prop where
  | nil (r : Reading α) : Run r [] r
  | cons {r r' r'' : Reading α} {t : Token α} {ts : Expression α}
    (h : Step r t r') (hs : Run r' ts r'') : Run r (t :: ts) r''

theorem Run.append {r r' r'' : Reading α} {e e' : Expression α} (h : Run r e r')
    (h' : Run r' e' r'') : Run r (e ++ e') r'' := by
  induction h with
  | nil r => exact h'
  | cons h _ ih => exact .cons h (ih h')

theorem Run.single {r r' : Reading α} {t : Token α} (h : Step r t r') : Run r [t] r' :=
  .cons h (.nil r')

/-! ## What a step keeps -/

/-- The waiting operators are nested, and the operand read last has not been given to
an operator before it or between. -/
structure Sound (r : Reading α) : Prop where
  /-- The waiting operators are nested. -/
  nested : Nested r.pending
  /-- The operand is arranged. -/
  arranged : ∀ t ∈ r.current, t.Arranged
  /-- The operand is a number, a group, or has an operator after it. -/
  binding : ∀ t ∈ r.current, 6 ≤ t.binding

theorem sound_start : (start : Reading α).Sound := ⟨trivial, by simp [start], by simp [start]⟩

theorem welcome_of_le {b : Nat} (hb : 5 ≤ b) (ps : List (Pending α)) : Welcome b ps :=
  fun p _ => admits_of_le hb p

/-- What yields is no open group. -/
theorem opens_of_yieldsTo {c d : Card} (h : Yard.yieldsTo c d = true) : Yard.opens d = false := by
  rw [Yard.yieldsTo, Bool.and_eq_true, Bool.not_eq_true'] at h
  exact h.1

theorem groupless_of_yieldsTo {c : Card} {qs ps : List (Pending α)} (h : Nested (qs ++ ps))
    (hqs : ∀ q ∈ qs, Yard.yieldsTo c q.card = true) : Groupless qs :=
  h.groupless_iff.mpr fun q hq => opens_of_yieldsTo (hqs q hq)

theorem Step.sound {r r' : Reading α} {t : Token α} (h : r.Step t r') (hr : r.Sound) :
    r'.Sound := by
  obtain ⟨hn, ha, hb⟩ := hr
  cases h with
  | number value die =>
    exact ⟨hn, fun t ht => by cases ht; trivial,
      fun t ht => by cases ht; exact Nat.le_succ 6⟩
  | opening h => exact ⟨⟨h, welcome_of_le (Nat.le_add_left 5 2) _, hn⟩, by simp, by simp⟩
  | before h => exact ⟨⟨h, welcome_of_le (Nat.le_refl 5) _, hn⟩, by simp, by simp⟩
  | after h =>
    exact ⟨hn, fun t ht => by cases ht; exact ⟨h, hb _ rfl, ha _ rfl⟩,
      fun t ht => by cases ht; exact Nat.le_refl 6⟩
  | @between qs ps t card h hqs hps =>
    have h6 : 6 ≤ t.binding := hb t rfl
    have hg := groupless_of_yieldsTo hn hqs
    obtain ⟨harr, -, hbind⟩ := hn.completeAll hg (ha t rfl) (welcome_of_le (by omega) _)
    -- the left operand binds like the operand read last, or like an operator that yielded
    have hleft : card.op.FitsLeft (completeAll t qs).binding := by
      rcases hbind with heq | ⟨q, hq, heq⟩
      · have := card.op.level_le_four
        exact .inl (by omega)
      · rw [heq]
        exact (yieldsTo_iff h (hn.sound q (List.mem_append_left ps hq)) (hg q hq)).mp (hqs q hq)
    refine ⟨⟨⟨h, hleft, harr⟩, fun p hp => ?_, hn.right⟩, by simp, by simp⟩
    have hsound := hn.right.sound p (List.mem_of_mem_head? hp)
    exact (not_yieldsTo_iff h hsound).mp (hps p hp)
  | @closing qs ps t opening card h ho hqs =>
    have h6 : 6 ≤ t.binding := hb t rfl
    have hg := hn.groupless_iff.mpr hqs
    obtain ⟨harr, -, -⟩ := hn.completeAll hg (ha t rfl) (welcome_of_le (by omega) _)
    have hgroup : opening.op.fixity = .opening := hn.right.1
    exact ⟨hn.right.2.2, fun t ht => by cases ht; exact ⟨hgroup, h, harr⟩,
      fun t ht => by cases ht; exact Nat.le_succ 6⟩

theorem Step.tokens {r r' : Reading α} {t : Token α} (h : r.Step t r') (hr : r.Sound) :
    r'.tokens = r.tokens ++ [t] := by
  cases h with
  | number value die => simp [Reading.tokens, SyntaxTree.tokens]
  | opening h => simp [Reading.tokens, tokensOf, Pending.tokens]
  | before h => simp [Reading.tokens, tokensOf, Pending.tokens]
  | after h => simp [Reading.tokens, SyntaxTree.tokens]
  | between h hqs hps =>
    have hg := groupless_of_yieldsTo hr.nested hqs
    simp [Reading.tokens, tokensOf, Pending.tokens, tokens_completeAll hg, tokensOf_append]
  | closing h ho hqs =>
    have hg := hr.nested.groupless_iff.mpr hqs
    simp [Reading.tokens, tokensOf, Pending.tokens, SyntaxTree.tokens, tokens_completeAll hg,
      tokensOf_append]

/-! ## The shadows of a step -/

/-- A list cut where a property first fails is cut in one way only. -/
theorem takeWhile_dropWhile_of_split {β : Type} {p : β → Bool} (qs ps : List β)
    (hqs : ∀ q ∈ qs, p q = true) (hps : ∀ b ∈ ps.head?, p b = false) :
    (qs ++ ps).takeWhile p = qs ∧ (qs ++ ps).dropWhile p = ps := by
  rw [List.takeWhile_append_of_pos hqs, List.dropWhile_append_of_pos hqs]
  cases ps with
  | nil => simp
  | cons b ps => simp [hps b rfl]

/-- Where nothing opens a group, the depth is zero. -/
theorem countP_opens {qs : List (Pending α)} (h : ∀ q ∈ qs, Yard.opens q.card = false) :
    (qs.countP fun q => Yard.opens q.card) = 0 :=
  List.countP_eq_zero.mpr fun q hq => by rw [h q hq]; exact Bool.false_ne_true

/-- **A step of the reading is a step of the scan.** -/
theorem Step.cursor {r r' : Reading α} {t : Token α} (h : r.Step t r') (n : Nat) :
    r.cursor.step n t = .ok r'.cursor := by
  cases h with
  | number value die => rfl
  | opening h => simp [Reading.cursor, Cursor.step, h, Yard.opens]
  | before h => simp [Reading.cursor, Cursor.step, h, Yard.opens]
  | after h => simp [Reading.cursor, Cursor.step, h]
  | @between qs ps t card h hqs hps =>
    have hzero := countP_opens fun q hq => opens_of_yieldsTo (hqs q hq)
    have hcard : Yard.opens card = false := by rw [Yard.opens, h]; rfl
    simp [Reading.cursor, Cursor.step, h, List.countP_append, -List.countP_eq_zero,
      hzero, hcard]
  | @closing qs ps t opening card h ho hqs =>
    have hzero := countP_opens hqs
    simp [Reading.cursor, Cursor.step, h, List.countP_append, -List.countP_eq_zero,
      hzero, ho]

/-- **A step of the reading is a step into postfix order.** -/
theorem Step.yard {r r' : Reading α} {t : Token α} (h : r.Step t r') (hr : r.Sound) :
    r'.yard = r.yard.step t := by
  cases h with
  | number value die => simp [Reading.yard, Yard.step, SyntaxTree.postorder]
  | opening h => simp [Reading.yard, Yard.step, h, postorderOf, Pending.postorder]
  | before h => simp [Reading.yard, Yard.step, h, postorderOf, Pending.postorder]
  | after h => simp [Reading.yard, Yard.step, h, SyntaxTree.postorder]
  | @between qs ps t card h hqs hps =>
    have hg := groupless_of_yieldsTo hr.nested hqs
    obtain ⟨htake, hdrop⟩ := takeWhile_dropWhile_of_split (p := Yard.yieldsTo card ∘ Pending.card)
      qs ps hqs hps
    simp only [Reading.yard, Yard.step, h, List.takeWhile_map, List.dropWhile_map, htake, hdrop]
    simp [postorderOf, Pending.postorder, postorder_completeAll hg, postorderOf_append]
  | @closing qs ps t opening card h ho hqs =>
    have hg := hr.nested.groupless_iff.mpr hqs
    obtain ⟨htake, hdrop⟩ := takeWhile_dropWhile_of_split
      (p := (!Yard.opens ·) ∘ Pending.card) qs (.group opening :: ps)
      (fun q hq => by simp [hqs q hq]) (fun p hp => by cases hp; simp [ho])
    simp only [Reading.yard, Yard.step, h, List.takeWhile_map, List.dropWhile_map, htake, hdrop]
    simp [postorderOf, Pending.postorder, SyntaxTree.postorder, postorder_completeAll hg,
      postorderOf_append]

/-! ## What a run keeps -/

theorem Run.sound {r r' : Reading α} {e : Expression α} (h : r.Run e r') (hr : r.Sound) :
    r'.Sound := by
  induction h with
  | nil r => exact hr
  | cons h _ ih => exact ih (h.sound hr)

theorem Run.tokens {r r' : Reading α} {e : Expression α} (h : r.Run e r') (hr : r.Sound) :
    r'.tokens = r.tokens ++ e := by
  induction h with
  | nil r => rw [List.append_nil]
  | cons h _ ih => rw [ih (h.sound hr), h.tokens hr, List.append_assoc, List.singleton_append]

theorem Run.yard {r r' : Reading α} {e : Expression α} (h : r.Run e r') (hr : r.Sound) :
    r'.yard = e.foldl Yard.step r.yard := by
  induction h with
  | nil r => rfl
  | cons h _ ih => rw [ih (h.sound hr), h.yard hr, List.foldl_cons]

theorem Run.cursor {r r' : Reading α} {e : Expression α} (h : r.Run e r') (n : Nat) :
    r.cursor.scan n e = .ok r'.cursor := by
  induction h generalizing n with
  | nil r => rfl
  | cons h _ ih => rw [Cursor.scan, h.cursor n]; exact ih (n + 1)

/-! ## The scan never gets ahead -/

theorem dropWhile_head? {β : Type} {p : β → Bool} (bs : List β) :
    ∀ b ∈ (bs.dropWhile p).head?, p b = false := by
  intro b hb
  have := List.head?_dropWhile_not p bs
  rw [Option.mem_def.mp hb] at this
  simpa using this

theorem takeWhile_all {β : Type} {p : β → Bool} (bs : List β) :
    ∀ b ∈ bs.takeWhile p, p b = true :=
  List.all_eq_true.mp List.all_takeWhile

/-- **Whatever token the scan lets pass can be read.** -/
theorem exists_step {r : Reading α} (hr : r.Sound) {t : Token α} {n : Nat} {c : Cursor}
    (h : r.cursor.step n t = .ok c) : ∃ r', r.Step t r' := by
  obtain ⟨ps, current⟩ := r
  cases t with
  | number value die =>
    cases current with
    | none => exact ⟨_, .number value die⟩
    | some t => simp [Reading.cursor, Cursor.step] at h
  | operator card =>
    cases current with
    | none =>
      cases hfix : card.op.fixity with
      | before => exact ⟨_, .before hfix⟩
      | opening => exact ⟨_, .opening hfix⟩
      | after => simp [Reading.cursor, Cursor.step, hfix] at h
      | between => simp [Reading.cursor, Cursor.step, hfix] at h
      | closing => simp [Reading.cursor, Cursor.step, hfix] at h
    | some t =>
      cases hfix : card.op.fixity with
      | after => exact ⟨_, .after hfix⟩
      | before => simp [Reading.cursor, Cursor.step, hfix] at h
      | opening => simp [Reading.cursor, Cursor.step, hfix] at h
      | between =>
        -- the stack is cut where the first operator does not yield
        rw [← List.takeWhile_append_dropWhile (p := fun p : Pending α => Yard.yieldsTo card p.card)
          (l := ps)]
        exact ⟨_, .between hfix (takeWhile_all ps) (dropWhile_head? ps)⟩
      | closing =>
        -- the scan has seen an open group, so the stack holds one
        have hsplit := List.takeWhile_append_dropWhile
          (p := fun p : Pending α => !Yard.opens p.card) (l := ps)
        have hqs := takeWhile_all (p := fun p : Pending α => !Yard.opens p.card) ps
        have hhead := dropWhile_head? (p := fun p : Pending α => !Yard.opens p.card) ps
        cases hdrop : ps.dropWhile fun p => !Yard.opens p.card with
        | nil =>
          rw [hdrop, List.append_nil] at hsplit
          rw [hsplit] at hqs
          have hzero := countP_opens fun q hq => by simpa using hqs q hq
          simp [Reading.cursor, Cursor.step, hfix, hzero] at h
        | cons p rest =>
          rw [hdrop] at hsplit hhead
          have hopens : Yard.opens p.card = true := by simpa using hhead p rfl
          have hmem : p ∈ ps := by rw [← hsplit]; simp
          obtain ⟨opening, rfl⟩ := (hr.nested.sound p hmem).opens_iff.mp hopens
          rw [← hsplit]
          exact ⟨_, .closing hfix hopens fun q hq => by simpa using hqs q hq⟩

/-- **Whatever the scan lets pass can be read.** -/
theorem exists_run {r : Reading α} (hr : r.Sound) {e : Expression α} {n : Nat} {c : Cursor}
    (h : r.cursor.scan n e = .ok c) : ∃ r', r.Run e r' ∧ r'.cursor = c := by
  induction e generalizing r n with
  | nil => exact ⟨r, .nil r, Except.ok.inj h⟩
  | cons t ts ih =>
    rw [Cursor.scan] at h
    cases hstep : r.cursor.step n t with
    | error fault => simp [hstep] at h
    | ok c' =>
      obtain ⟨r', hr'⟩ := exists_step hr hstep
      have hcur : r'.cursor = c' := Except.ok.inj ((hr'.cursor n).symm.trans hstep)
      rw [hstep] at h
      obtain ⟨r'', hrun, hcur'⟩ := ih (hr'.sound hr) (hcur ▸ h)
      exact ⟨r'', .cons hr' hrun, hcur'⟩

/-! ## A token can be read in one way only -/

theorem append_inj_of_split {β : Type} {p : β → Bool} {qs qs' ps ps' : List β}
    (h : qs ++ ps = qs' ++ ps')
    (hqs : ∀ q ∈ qs, p q = true) (hps : ∀ b ∈ ps.head?, p b = false)
    (hqs' : ∀ q ∈ qs', p q = true) (hps' : ∀ b ∈ ps'.head?, p b = false) :
    qs = qs' ∧ ps = ps' := by
  obtain ⟨htake, hdrop⟩ := takeWhile_dropWhile_of_split _ _ hqs hps
  obtain ⟨htake', hdrop'⟩ := takeWhile_dropWhile_of_split _ _ hqs' hps'
  rw [h] at htake hdrop
  exact ⟨htake.symm.trans htake', hdrop.symm.trans hdrop'⟩

theorem Step.unique {r r₁ r₂ : Reading α} {t : Token α} (h₁ : r.Step t r₁) (h₂ : r.Step t r₂) :
    r₁ = r₂ := by
  cases h₁ with
  | number value die => cases h₂; rfl
  | opening h =>
    cases h₂ with
    | opening h' => rfl
    | before h' => simp [h] at h'
  | before h =>
    cases h₂ with
    | opening h' => simp [h] at h'
    | before h' => rfl
  | after h =>
    cases h₂ with
    | after h' => rfl
    | between h' => simp [h] at h'
    | closing h' => simp [h] at h'
  | @between qs ps t card h hqs hps =>
    generalize hstack : qs ++ ps = stack at h₂
    cases h₂ with
    | after h' => simp [h] at h'
    | between h' hqs' hps' =>
      obtain ⟨rfl, rfl⟩ := append_inj_of_split
        (p := fun p : Pending α => Yard.yieldsTo card p.card) hstack hqs hps hqs' hps'
      rfl
    | closing h' => simp [h] at h'
  | @closing qs ps t opening card h ho hqs =>
    generalize hstack : qs ++ .group opening :: ps = stack at h₂
    cases h₂ with
    | after h' => simp [h] at h'
    | between h' => simp [h] at h'
    | closing h' ho' hqs' =>
      obtain ⟨rfl, heq⟩ := append_inj_of_split (p := fun p : Pending α => !Yard.opens p.card)
        hstack (fun q hq => by simp [hqs q hq]) (fun p hp => by cases hp; simp [ho])
        (fun q hq => by simp [hqs' q hq]) (fun p hp => by cases hp; simp [ho'])
      cases heq
      rfl

theorem Run.unique {r r₁ r₂ : Reading α} {e : Expression α} (h₁ : r.Run e r₁)
    (h₂ : r.Run e r₂) : r₁ = r₂ := by
  induction h₁ with
  | nil r => cases h₂; rfl
  | cons h _ ih =>
    cases h₂ with
    | cons h' hs' => exact ih (h.unique h' ▸ hs')

end Reading

end Arithmancy
