/-!
# Binary floating-point numbers by their parts

A finite 64-bit number is a signed fraction `± significand * 2 ^ exponent`. This
module takes a number apart into that form and puts it together again, and
defines on it what has to be exact: the integer below and above, the integer part
inside given bounds, and the remainder of a division.
-/

namespace Arithmancy

namespace Binary64

/-- The finite number `± significand * 2 ^ exponent`. -/
structure Finite where
  /-- Whether the sign is negative; zero has a sign, too. -/
  negative : Bool
  /-- The significand, a natural number below `2 ^ 53`. -/
  significand : Nat
  /-- The power of two that scales the significand. -/
  exponent : Int
deriving DecidableEq, Repr

namespace Finite

/-- The integer part of the magnitude. -/
def whole (d : Finite) : Nat :=
  if 0 ≤ d.exponent then d.significand * Nat.pow 2 d.exponent.toNat
  else d.significand / Nat.pow 2 (-d.exponent).toNat

/-- Whether the value is an integer. -/
def isWhole (d : Finite) : Bool :=
  0 ≤ d.exponent || d.significand % Nat.pow 2 (-d.exponent).toNat == 0

/-- The value without its fraction, rounded toward zero. -/
def truncate (d : Finite) : Int :=
  if d.negative then -(d.whole : Int) else d.whole

/-- The remainder of `d` divided by a non-zero `e`, with the sign of `d`: both are
written over the smaller of the two powers of two and divided as naturals. -/
def rem (d e : Finite) : Finite :=
  let low := if d.exponent ≤ e.exponent then d.exponent else e.exponent
  ⟨d.negative,
    d.significand * Nat.pow 2 (d.exponent - low).toNat
      % (e.significand * Nat.pow 2 (e.exponent - low).toNat),
    low⟩

end Finite

open Float.Model (UnpackedFloat)

/-- The parts of a number, if it is finite. -/
def decode? (x : Float) : Option Finite :=
  match x.toModel.unpack with
  | .finite sign significand exponent _ => some ⟨sign == .negative, significand, exponent⟩
  | .zero sign => some ⟨sign == .negative, 0, -1074⟩
  | _ => none

/-- The number with the given parts, to nearest if the parts do not fit. -/
def encode (d : Finite) : Float :=
  let magnitude : Int := d.significand
  let signed := if d.negative then -magnitude else magnitude
  let zeroSign := if d.negative then UnpackedFloat.Sign.negative else .positive
  Float.ofModel (Float.Model.pack
    (UnpackedFloat.normalize Float.Model.Format.binary64 signed d.exponent zeroSign))

/-- The greatest integer not above a number; what is not finite stays. -/
def floor (x : Float) : Float :=
  match decode? x with
  | none => x
  | some d =>
    if d.isWhole then x
    else if d.negative then -Float.ofNat (d.whole + 1)
    else Float.ofNat d.whole

/-- The least integer not below a number; what is not finite stays. -/
def ceil (x : Float) : Float :=
  -floor (-x)

/-- The integer part of a number, held between two bounds; zero if the number is
undefined. -/
def clamp (low high : Int) (x : Float) : Int :=
  match decode? x with
  | some d => max low (min high d.truncate)
  | none => if x < 0 then low else if 0 < x then high else 0

/-- The remainder of a division whose quotient is rounded toward zero. It is
exact, has the sign of the dividend, and is undefined for a zero divisor and for
an infinite dividend. -/
def rem (x y : Float) : Float :=
  match decode? x, decode? y with
  | some d, some e => if e.significand = 0 then 0 / 0 else encode (d.rem e)
  | some _, none => if y.isNaN then y else x
  | none, _ => 0 / 0

end Binary64

end Arithmancy
