import Arithmancy.Text

/-!
# Packing values into bytes

A plain binary layout: counts by their bytes, the least significant first, in a fixed
width; members of a kind by their place in it; a flag or an absence by one byte; a
number by its 64 bits; a text or a list by its length and then its contents; a
structure by its fields in order. No layout needs a separator, because what comes
first always says how much follows.
-/

namespace Arithmancy

/-- A sequence of bytes. -/
abbrev Bytes := List UInt8

/-- **Numbers that are laid out in 64 bits.** -/
class Bits64 (α : Type) where
  /-- The bits of a number. -/
  toBits : α → UInt64

instance : Bits64 Float := ⟨Float.toBits⟩

namespace Packing

/-- The lowest bytes of a number, the least significant first. -/
def littleEndian : Nat → Nat → Bytes
  | 0, _ => []
  | width + 1, n => UInt8.ofNat (n % 256) :: littleEndian width (n / 256)

/-- A count in four bytes. -/
def count32 (n : Nat) : Bytes := littleEndian 4 n

/-- A count in eight bytes. -/
def count64 (n : Nat) : Bytes := littleEndian 8 n

/-- A flag in one byte. -/
def flag (b : Bool) : Bytes := [if b then 1 else 0]

/-- A number by its bits. -/
def number {α : Type} [Bits64 α] (x : α) : Bytes := count64 (Bits64.toBits x).toNat

/-- A text by the number of its bytes and then those bytes. -/
def text (s : String) : Bytes := count64 s.utf8ByteSize ++ s.toUTF8.data.toList

/-- A value that may be absent: one byte says whether it is there. -/
def optional {β : Type} (pack : β → Bytes) : Option β → Bytes
  | none => [0]
  | some b => 1 :: pack b

/-- A list by its length and then its members. -/
def sequence {β : Type} (pack : β → Bytes) (bs : List β) : Bytes :=
  count64 bs.length ++ bs.flatMap pack

/-- A member of a kind by its place in it. -/
def member {κ : Type} [Labelled κ] [DecidableEq κ] (k : κ) : Bytes :=
  count32 (Labelled.index k)

end Packing

end Arithmancy
