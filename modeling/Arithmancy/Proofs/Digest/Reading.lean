import Mathlib
import Arithmancy.Digest.Packing
import Arithmancy.Number.Scalar

/-!
# Reading packed bytes

A layout that says how much follows before it follows can be read without looking ahead. This
module reads back what `Arithmancy.Packing` lays out: for every layout there is a reader, and the
reader finds the value at the front of any bytes that begin with its layout, and leaves the rest
alone (`Unpacker.Reads`). Readers that are run one after another read layouts that are put one
after another (`Unpacker.Reads.bind`), so that a structure is read field by field.

Counts are laid out in a fixed width, and whatever does not fit into it is cut off. A count can
therefore be read back only if it fits, and the same goes for the length of a text or of a list.
-/

namespace Arithmancy

/-- **A reader** takes a value off the front of some bytes, unless they do not begin with
one. -/
abbrev Unpacker (β : Type) := StateT Bytes Option β

namespace Unpacker

variable {β γ : Type}

/-- **A reader reads a value from bytes** if it does so whatever follows them, and leaves what
follows alone. -/
def Reads (read : Unpacker β) (bytes : Bytes) (b : β) : Prop :=
  ∀ rest, read.run (bytes ++ rest) = some (b, rest)

/-- What is read by one reader after another is laid out one after another. -/
theorem Reads.bind {read : Unpacker β} {next : β → Unpacker γ} {bytes bytes' : Bytes} {b : β}
    {c : γ} (h : read.Reads bytes b) (h' : (next b).Reads bytes' c) :
    (read >>= next).Reads (bytes ++ bytes') c := fun rest => by
  rw [StateT.run_bind, List.append_assoc, h]
  exact h' rest

/-- What is made of a value is read where the value is. -/
theorem Reads.last {read : Unpacker β} {next : β → Unpacker γ} {bytes : Bytes} {b : β} {c : γ}
    (h : read.Reads bytes b) (hnext : next b = pure c) : (read >>= next).Reads bytes c :=
  fun rest => by
    rw [StateT.run_bind, h]
    show (next b).run rest = _
    rw [hnext]
    rfl

/-- Goes on with a value, if there is one. -/
def require (o : Option β) : Unpacker β := fun bytes => o.map fun b => (b, bytes)

/-- What must be made of a value is read where the value is. -/
theorem Reads.require {read : Unpacker β} {bytes : Bytes} {b : β} {c : γ}
    (h : read.Reads bytes b) {f : β → Option γ} (hc : f b = some c) :
    (read >>= fun b => Unpacker.require (f b)).Reads bytes c := fun rest => by
  rw [StateT.run_bind, h]
  show (f b).map (fun c => (c, rest)) = _
  rw [hc]
  rfl

/-- **A value that can be read is told from all others**, and so is where its layout ends. -/
theorem Reads.eq_of_isPrefix {read : Unpacker β} {bytes bytes' : Bytes} {b b' : β}
    (h : read.Reads bytes b) (h' : read.Reads bytes' b') (hpre : bytes <+: bytes') :
    b = b' := by
  obtain ⟨rest, rfl⟩ := hpre
  have hboth := (h' []).symm.trans ((congrArg read.run (List.append_nil _)).trans (h rest))
  exact (Prod.mk.inj (Option.some.inj hboth)).1.symm

/-! ## Counts -/

/-- Takes some bytes as they are. -/
def take (n : Nat) : Unpacker Bytes := fun bytes =>
  if n ≤ bytes.length then some (bytes.take n, bytes.drop n) else none

theorem reads_take (bytes : Bytes) : (take bytes.length).Reads bytes bytes := fun rest => by
  show (if _ then _ else _) = _
  rw [if_pos (by rw [List.length_append]; exact Nat.le_add_right _ _), List.take_left,
    List.drop_left]

/-- The number that some bytes stand for, the least significant first. -/
def ofLittleEndian : Bytes → Nat
  | [] => 0
  | byte :: bytes => byte.toNat + 256 * ofLittleEndian bytes

/-- Reads a count of a given width. -/
def count (width : Nat) : Unpacker Nat := take width >>= fun bytes => pure (ofLittleEndian bytes)

theorem length_littleEndian (width n : Nat) : (Packing.littleEndian width n).length = width := by
  induction width generalizing n with
  | zero => rfl
  | succ width ih => exact congrArg (· + 1) (ih (n / 256))

/-- **A count that fits into its width** is what its bytes stand for. -/
theorem ofLittleEndian_littleEndian {width n : Nat} (h : n < 256 ^ width) :
    ofLittleEndian (Packing.littleEndian width n) = n := by
  induction width generalizing n with
  | zero => exact (Nat.lt_one_iff.mp h).symm
  | succ width ih =>
    have hlow : (UInt8.ofNat (n % 256)).toNat = n % 256 :=
      UInt8.toNat_ofNat_of_lt' (Nat.mod_lt n (by decide))
    have hhigh : n / 256 < 256 ^ width :=
      Nat.div_lt_of_lt_mul (Nat.lt_of_lt_of_eq h (Nat.pow_succ'))
    show (UInt8.ofNat (n % 256)).toNat + 256 * ofLittleEndian (Packing.littleEndian width (n / 256))
      = n
    rw [hlow, ih hhigh]
    exact Nat.mod_add_div n 256

theorem reads_littleEndian {width n : Nat} (h : n < 256 ^ width) :
    (count width).Reads (Packing.littleEndian width n) n := by
  have hbytes := reads_take (Packing.littleEndian width n)
  rw [length_littleEndian] at hbytes
  exact hbytes.last (congrArg pure (ofLittleEndian_littleEndian h))

theorem reads_count32 {n : Nat} (h : n ≤ maxCount32) : (count 4).Reads (Packing.count32 n) n :=
  reads_littleEndian (Nat.lt_succ_of_le h)

theorem reads_count64 {n : Nat} (h : n ≤ maxCount64) : (count 8).Reads (Packing.count64 n) n :=
  reads_littleEndian (Nat.lt_succ_of_le h)

/-! ## Flags and numbers -/

/-- Reads a byte that is zero or one. -/
def flag : Unpacker Bool := fun bytes =>
  match bytes with
  | 0 :: rest => some (false, rest)
  | 1 :: rest => some (true, rest)
  | _ => none

theorem reads_flag (b : Bool) : flag.Reads (Packing.flag b) b := fun _ => by
  cases b <;> rfl

end Unpacker

/-- **Numbers that can be read from their bits.** -/
class ReadableBits64 (α : Type) [Bits64 α] where
  /-- The number that some bits stand for. -/
  ofBits : UInt64 → α
  /-- Every number is what its bits stand for. -/
  ofBits_toBits : ∀ x : α, ofBits (Bits64.toBits x) = x

namespace Unpacker

variable {α β : Type} [Bits64 α] [ReadableBits64 α]

/-- Reads a number. -/
def number : Unpacker α := count 8 >>= fun bits => pure (ReadableBits64.ofBits (UInt64.ofNat bits))

theorem reads_number (x : α) : number.Reads (Packing.number x) x := by
  have hbits : (Bits64.toBits x).toNat ≤ maxCount64 := Nat.le_of_lt_succ (Bits64.toBits x).toNat_lt
  refine (reads_count64 hbits).last (congrArg pure ?_)
  rw [UInt64.ofNat_toNat, ReadableBits64.ofBits_toBits]

/-! ## Texts -/

/-- Reads a text, whose bytes must be well formed. -/
def text : Unpacker String :=
  count 8 >>= fun size => take size >>= fun bytes => require (String.fromUTF8? ⟨bytes.toArray⟩)

/-- The bytes of a text are well formed, and they are those of no other text. -/
theorem fromUTF8?_toUTF8 (s : String) : String.fromUTF8? ⟨s.toUTF8.data.toList.toArray⟩ = some s :=
  dif_pos s.isValidUTF8

theorem reads_text {s : String} (h : s.utf8ByteSize ≤ maxCount64) :
    text.Reads (Packing.text s) s := by
  have hbytes : (take s.utf8ByteSize).Reads s.toUTF8.data.toList s.toUTF8.data.toList :=
    reads_take s.toUTF8.data.toList
  exact (reads_count64 h).bind (hbytes.require (fromUTF8?_toUTF8 s))

/-! ## What may be absent, and lists -/

/-- Reads a value that may be absent. -/
def optional (read : Unpacker β) : Unpacker (Option β) :=
  flag >>= fun present => if present then read >>= fun b => pure (some b) else pure none

theorem reads_optional {read : Unpacker β} {pack : β → Bytes} {o : Option β}
    (h : ∀ b ∈ o, read.Reads (pack b) b) : (optional read).Reads (Packing.optional pack o) o := by
  cases o with
  | none => exact (reads_flag false).last rfl
  | some b => exact (reads_flag true).bind ((h b rfl).last rfl)

/-- Reads some values, one after another. -/
def many (read : Unpacker β) : Nat → Unpacker (List β)
  | 0 => pure []
  | n + 1 => read >>= fun b => many read n >>= fun bs => pure (b :: bs)

theorem reads_many {read : Unpacker β} {pack : β → Bytes} {bs : List β}
    (h : ∀ b ∈ bs, read.Reads (pack b) b) : (many read bs.length).Reads (bs.flatMap pack) bs := by
  induction bs with
  | nil => exact fun _ => rfl
  | cons b bs ih =>
    obtain ⟨hb, hbs⟩ := List.forall_mem_cons.mp h
    exact hb.bind ((ih hbs).last rfl)

/-- Reads a list. -/
def sequence (read : Unpacker β) : Unpacker (List β) := count 8 >>= many read

theorem reads_sequence {read : Unpacker β} {pack : β → Bytes} {bs : List β}
    (hlength : bs.length ≤ maxCount64) (h : ∀ b ∈ bs, read.Reads (pack b) b) :
    (sequence read).Reads (Packing.sequence pack bs) bs :=
  (reads_count64 hlength).bind (reads_many h)

end Unpacker

/-! ## Members of kinds -/

/-- **A kind that is listed in full**, and not longer than a count reaches. -/
class Listed (κ : Type) [Labelled κ] : Prop where
  /-- Every member is listed. -/
  mem_all : ∀ k : κ, k ∈ Labelled.all
  /-- The list is not too long. -/
  length_all : (Labelled.all : List κ).length ≤ maxCount32

namespace Unpacker

variable {κ : Type} [Labelled κ]

/-- Reads a member of a kind. -/
def member (κ : Type) [Labelled κ] : Unpacker κ :=
  count 4 >>= fun i => require (Labelled.all : List κ)[i]?

theorem reads_member [DecidableEq κ] [Listed κ] (k : κ) :
    (member κ).Reads (Packing.member k) k := by
  have hindex : Labelled.index k < (Labelled.all : List κ).length :=
    List.idxOf_lt_length_of_mem (Listed.mem_all k)
  have hcount := reads_count32 (Nat.le_trans (Nat.le_of_lt hindex) Listed.length_all)
  exact hcount.require (List.getElem?_idxOf (Listed.mem_all k))

end Unpacker

end Arithmancy
