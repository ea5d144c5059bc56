import Arithmancy.Proofs.Expression.UniqueReadability

/-!
# The grammar and its scan

The grammar of expressions has three rules:

* an expression is a chain of terms, joined by operators that stand between them;
* a term is an atom, with operators before it and operators after it;
* an atom is a number, or an expression in parentheses.

`Derives` is that grammar, rule by rule. The scan knows nothing of it: it carries one
flag and one count from left to right. Both accept the same expressions
(`Expression.validate_eq_ok_iff_derives`). In one direction the scan goes through
whatever a rule derives, from a point where a value is due to a point where none is, and
leaves as many groups open as it found. In the other direction an expression that passes
has a syntax tree, and a tree spells out a derivation once the levels of its operators
are forgotten.
-/

namespace Arithmancy

variable {α : Type}

/-! ## The grammar -/

/-- **What the rules of the grammar are about.** -/
inductive Nonterminal where
  /-- A chain of terms. -/
  | expression
  /-- An atom with operators around it. -/
  | term
  /-- A number or a group. -/
  | atom
deriving DecidableEq, Repr

/-- Terms, each with the operator that joins it to what stands before it. -/
def linked (links : List (Card × Expression α)) : Expression α :=
  links.flatMap fun l => .operator l.1 :: l.2

/-- **The grammar of expressions.** -/
inductive Derives : Nonterminal → Expression α → Prop where
  /-- A number is an atom. -/
  | number (value : α) (die : Option DieId) : Derives .atom [.number value die]
  /-- An expression in parentheses is an atom. -/
  | group {opening closing : Card} {e : Expression α} (ho : opening.op = .openParen)
    (hc : closing.op = .closeParen) (h : Derives .expression e) :
    Derives .atom (.operator opening :: (e ++ [.operator closing]))
  /-- An atom, after any operators that precede it and before any that follow it, is a
  term. -/
  | term {before after : List Card} {e : Expression α}
    (hb : ∀ c ∈ before, c.op.fixity = .before) (h : Derives .atom e)
    (ha : ∀ c ∈ after, c.op.fixity = .after) :
    Derives .term (before.map .operator ++ e ++ after.map .operator)
  /-- A term, and any terms that are joined to it, are an expression. -/
  | chain {e : Expression α} {links : List (Card × Expression α)} (h : Derives .term e)
    (hops : ∀ l ∈ links, l.1.op.fixity = .between) (hterms : ∀ l ∈ links, Derives .term l.2) :
    Derives .expression (e ++ linked links)

namespace Operator

theorem fixity_eq_opening_iff {op : Operator} : op.fixity = .opening ↔ op = .openParen := by
  cases op <;> decide

theorem fixity_eq_closing_iff {op : Operator} : op.fixity = .closing ↔ op = .closeParen := by
  cases op <;> decide

end Operator

/-! ## The scan goes through what is derived -/

namespace Cursor

theorem step_opening {card : Card} (h : card.op.fixity = .opening) (d n : Nat) :
    step ⟨true, d⟩ n (.operator card : Token α) = .ok ⟨true, d + 1⟩ := by
  simp [step, h]

theorem step_closing {card : Card} (h : card.op.fixity = .closing) (d n : Nat) :
    step ⟨false, d + 1⟩ n (.operator card : Token α) = .ok ⟨false, d⟩ := by
  simp [step, h]

theorem step_before {card : Card} (h : card.op.fixity = .before) (d n : Nat) :
    step ⟨true, d⟩ n (.operator card : Token α) = .ok ⟨true, d⟩ := by
  simp [step, h]

theorem step_after {card : Card} (h : card.op.fixity = .after) (d n : Nat) :
    step ⟨false, d⟩ n (.operator card : Token α) = .ok ⟨false, d⟩ := by
  simp [step, h]

theorem step_between {card : Card} (h : card.op.fixity = .between) (d n : Nat) :
    step ⟨false, d⟩ n (.operator card : Token α) = .ok ⟨true, d⟩ := by
  simp [step, h]

theorem scan_cons_of_ok {c c' : Cursor} {n : Nat} {t : Token α} (h : c.step n t = .ok c')
    (e : Expression α) : c.scan n (t :: e) = c'.scan (n + 1) e := by
  rw [scan, h]

/-- **A scan in two parts**: the second goes on where the first has ended. -/
theorem scan_append_of_ok {c c' : Cursor} {n : Nat} {e : Expression α}
    (h : c.scan n e = .ok c') (e' : Expression α) :
    c.scan n (e ++ e') = c'.scan (n + e.length) e' := by
  induction e generalizing c n with
  | nil =>
    obtain rfl := Except.ok.inj h
    rfl
  | cons t e ih =>
    rw [scan] at h
    cases hstep : c.step n t with
    | error fault => rw [hstep] at h; cases h
    | ok c'' =>
      rw [hstep] at h
      rw [List.cons_append, scan_cons_of_ok hstep, ih h, List.length_cons, Nat.add_assoc,
        Nat.add_comm 1]

/-- Tokens that each leave a cursor where it is, leave it there together. -/
theorem scan_eq_self {c : Cursor} {cards : List Card}
    (h : ∀ card ∈ cards, ∀ n, c.step n (.operator card : Token α) = .ok c) (n : Nat) :
    c.scan n (cards.map .operator : Expression α) = .ok c := by
  induction cards generalizing n with
  | nil => rfl
  | cons card cards ih =>
    rw [List.map_cons, scan_cons_of_ok (h card List.mem_cons_self n)]
    exact ih (fun card' h' => h card' (List.mem_cons_of_mem _ h')) (n + 1)

/-- Linked terms are gone through if the terms are. -/
theorem scan_linked {d : Nat} {links : List (Card × Expression α)}
    (hops : ∀ l ∈ links, l.1.op.fixity = .between)
    (hterms : ∀ l ∈ links, ∀ n, scan ⟨true, d⟩ n l.2 = .ok ⟨false, d⟩) (n : Nat) :
    scan ⟨false, d⟩ n (linked links) = .ok ⟨false, d⟩ := by
  induction links generalizing n with
  | nil => rfl
  | cons l links ih =>
    obtain ⟨hop, hops⟩ := List.forall_mem_cons.mp hops
    obtain ⟨hterm, hterms⟩ := List.forall_mem_cons.mp hterms
    rw [linked, List.flatMap_cons, List.cons_append, scan_cons_of_ok (step_between hop d n),
      scan_append_of_ok (hterm (n + 1))]
    exact ih hops hterms _

end Cursor

open Cursor in
/-- **The scan goes through whatever is derived**: from where a value is due to where none
is, at the same depth. -/
theorem Derives.scan {k : Nonterminal} {e : Expression α} (h : Derives k e) (d n : Nat) :
    Cursor.scan ⟨true, d⟩ n e = .ok ⟨false, d⟩ := by
  induction h generalizing d n with
  | number value die => rfl
  | group ho hc _ ih =>
    rw [scan_cons_of_ok (step_opening (Operator.fixity_eq_opening_iff.mpr ho) d n),
      scan_append_of_ok (ih (d + 1) (n + 1)),
      scan_cons_of_ok (step_closing (Operator.fixity_eq_closing_iff.mpr hc) d _)]
    rfl
  | term hb _ ha ih =>
    rw [List.append_assoc,
      scan_append_of_ok (scan_eq_self (fun card hcard => step_before (hb card hcard) d) n),
      scan_append_of_ok (ih d _)]
    exact scan_eq_self (fun card hcard => step_after (ha card hcard) d) _
  | chain _ hops _ ih ihs =>
    rw [scan_append_of_ok (ih d n)]
    exact scan_linked hops (fun l hl => ihs l hl d) _

/-! ## What passes is derived -/

namespace Derives

/-- An atom, before any operators that follow it, is a term. -/
theorem followed {e : Expression α} {cards : List Card} (h : Derives .atom e)
    (hcards : ∀ c ∈ cards, c.op.fixity = .after) :
    Derives .term (e ++ cards.map .operator) := by
  have hterm : Derives .term (([] : List Card).map .operator ++ e ++ cards.map .operator) :=
    .term (by simp) h hcards
  rwa [List.map_nil, List.nil_append] at hterm

/-- An atom alone is a term. -/
theorem ofAtom {e : Expression α} (h : Derives .atom e) : Derives .term e := by
  have hterm : Derives .term (e ++ ([] : List Card).map .operator) := h.followed (by simp)
  rwa [List.map_nil, List.append_nil] at hterm

/-- A term alone is an expression. -/
theorem ofTerm {e : Expression α} (h : Derives .term e) : Derives .expression e := by
  have hchain : Derives .expression (e ++ linked []) := .chain h (by simp) (by simp)
  rwa [linked, List.flatMap_nil, List.append_nil] at hchain

/-- One more operator may stand before a term. -/
theorem before {card : Card} {e : Expression α} (hcard : card.op.fixity = .before)
    (h : Derives .term e) : Derives .term (.operator card :: e) := by
  cases h with
  | @term cards _ _ hb hatom ha =>
    have hcards : ∀ c ∈ card :: cards, c.op.fixity = .before :=
      List.forall_mem_cons.mpr ⟨hcard, hb⟩
    exact .term hcards hatom ha

/-- Two expressions may be joined. -/
theorem between {card : Card} {e e' : Expression α} (h : Derives .expression e)
    (hcard : card.op.fixity = .between) (h' : Derives .expression e') :
    Derives .expression (e ++ .operator card :: e') := by
  cases h with
  | @chain e links hterm hops hterms =>
  cases h' with
  | @chain e' links' hterm' hops' hterms' =>
    -- the second expression follows the first as one more link and its own links
    have heq : e ++ linked links ++ .operator card :: (e' ++ linked links')
        = e ++ linked (links ++ (card, e') :: links') := by
      simp [linked]
    rw [heq]
    refine .chain hterm ?_ ?_
    · exact List.forall_mem_append.mpr ⟨hops, List.forall_mem_cons.mpr ⟨hcard, hops'⟩⟩
    · exact List.forall_mem_append.mpr ⟨hterms, List.forall_mem_cons.mpr ⟨hterm', hterms'⟩⟩

end Derives

/-- **An arranged tree spells out a derivation.** If it binds at least as tightly as an
operator before its operand, it is a term; if as tightly as an operator after its
operand, then with no operators before its atom. -/
theorem SyntaxTree.Arranged.derives {t : SyntaxTree α} (h : t.Arranged) :
    Derives .expression t.tokens ∧ (5 ≤ t.binding → Derives .term t.tokens)
      ∧ (6 ≤ t.binding → ∃ (e : Expression α) (cards : List Card), Derives .atom e
        ∧ (∀ c ∈ cards, c.op.fixity = .after) ∧ t.tokens = e ++ cards.map .operator) := by
  induction t with
  | number value die =>
    have hatom : Derives .atom [Token.number value die] := .number value die
    exact ⟨hatom.ofAtom.ofTerm, fun _ => hatom.ofAtom, fun _ => ⟨_, [], hatom, by simp, rfl⟩⟩
  | group opening inner closing ih =>
    obtain ⟨ho, hc, hinner⟩ := h
    have hatom := Derives.group (Operator.fixity_eq_opening_iff.mp ho)
      (Operator.fixity_eq_closing_iff.mp hc) (ih hinner).1
    exact ⟨hatom.ofAtom.ofTerm, fun _ => hatom.ofAtom,
      fun _ => ⟨_, [], hatom, by simp, (List.append_nil _).symm⟩⟩
  | before card operand ih =>
    obtain ⟨hfix, hb, harr⟩ := h
    have hterm := ((ih harr).2.1 hb).before hfix
    exact ⟨hterm.ofTerm, fun _ => hterm, fun h6 => absurd h6 (by simp [binding])⟩
  | after operand card ih =>
    obtain ⟨hfix, hb, harr⟩ := h
    obtain ⟨e, cards, hatom, hcards, heq⟩ := (ih harr).2.2 hb
    have hall : ∀ c ∈ cards ++ [card], c.op.fixity = .after :=
      List.forall_mem_append.mpr ⟨hcards, List.forall_mem_singleton.mpr hfix⟩
    have htokens : (after operand card).tokens = e ++ (cards ++ [card]).map .operator := by
      rw [tokens, heq, List.append_assoc, List.map_append]
      rfl
    have hterm : Derives .term (after operand card).tokens := htokens ▸ hatom.followed hall
    exact ⟨hterm.ofTerm, fun _ => hterm, fun _ => ⟨e, _, hatom, hall, htokens⟩⟩
  | between left card right ihl ihr =>
    obtain ⟨hfix, -, -, harrl, harrr⟩ := h
    have hlevel := card.op.level_le_four
    exact ⟨(ihl harrl).1.between hfix (ihr harrr).1,
      fun h5 => absurd h5 (by simp only [binding]; omega),
      fun h6 => absurd h6 (by simp only [binding]; omega)⟩

/-- **The scan decides the grammar.** -/
theorem Expression.validate_eq_ok_iff_derives {e : Expression α} :
    e.validate = .ok () ↔ Derives .expression e := by
  constructor
  · intro h
    obtain ⟨t, ht, -⟩ := exists_reads h
    rw [← ht.tokens_eq]
    exact ht.arranged.derives.1
  · intro h
    exact validate_eq_ok_iff.mpr (h.scan 0 1)

end Arithmancy
