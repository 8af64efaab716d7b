/-
`Fixed<W, IntegerBits, Signedness>` and `quantize`.

`quantize` takes the source apart into a sign and a magnitude, moves the binary point of the
magnitude in 128 bits (`rescale`), and puts the sign back for the destination (`encode`), unless the
result is not representable there. `none` is an abort.
-/

import Cpptb.FixedPoint.PackedBits

namespace Cpptb.FixedPoint

inductive Signedness where
  | unsigned
  | signed
  deriving DecidableEq, Repr

/-- `TowardZero` is another name of `Truncate`. -/
inductive Round where
  | truncate
  | nearestEven
  deriving DecidableEq, Repr

inductive Overflow where
  | wrap
  | saturate
  | trap
  deriving DecidableEq, Repr

/-- The parameters of the class template, with its static assertions. -/
structure Format where
  width : ℕ
  integerBits : ℕ
  signedness : Signedness
  width_pos : 0 < width
  integerBits_le : integerBits ≤ width

def Format.fractionalBits (format : Format) : ℕ := format.width - format.integerBits

structure Fixed (format : Format) where
  raw : Bits format.width

/-- The words of a scalar, with its sign in the words above. -/
def scalarBits {W : ℕ} (positive : 0 < W) (raw : UInt128) (negative : Bool) : Bits W :=
  let fill := if negative then BitVec.allOnes 32 else 0
  Bits.fromWords positive (Bits.copiedWords W fill raw) (Bits.length_copiedWords fill raw)

/-- `from_raw` of an unsigned integer. -/
def Fixed.fromRaw (format : Format) (value : UInt128) : Fixed format :=
  ⟨scalarBits format.width_pos value false⟩

section Limits

def widthMask (width : ℕ) : UInt128 :=
  if width = 128 then ~~~0 else (1 : UInt128) <<< width - 1

def unsignedLimit (width : ℕ) : UInt128 := widthMask width

def signedPositiveLimit (width : ℕ) : UInt128 := (1 : UInt128) <<< (width - 1) - 1

def signedNegativeLimit (width : ℕ) : UInt128 := (1 : UInt128) <<< (width - 1)

end Limits

structure SignedMagnitude where
  negative : Bool
  magnitude : UInt128
  deriving DecidableEq, Repr

def decompose {format : Format} (value : Fixed format) : SignedMagnitude :=
  let raw := value.raw.toUInt128
  match format.signedness with
  | .signed =>
    let sign := (1 : UInt128) <<< (format.width - 1)
    if raw &&& sign ≠ 0 then ⟨true, (~~~raw + 1) &&& widthMask format.width⟩ else ⟨false, raw⟩
  | .unsigned => ⟨false, raw⟩

def encode (format : Format) (negative : Bool) (magnitudeValue : UInt128) : Bits format.width :=
  Bits.fromUInt128 format.width_pos (if negative then 0 - magnitudeValue else magnitudeValue)

section Rescale

/-- The quotient, one more where the remainder is over half or half of an odd quotient. -/
def roundQuotient (round : Round) (halfway quotient remainder : UInt128) : UInt128 :=
  match round with
  | .nearestEven =>
    if halfway < remainder ∨ (remainder = halfway ∧ quotient &&& 1 ≠ 0) then quotient + 1
    else quotient
  | .truncate => quotient

/-- A source with more fractional bits: the low bits go into the rounding. -/
def shiftRight (round : Round) (shift : ℕ) (magnitude : UInt128) : UInt128 :=
  let quotient := if shift = 128 then 0 else magnitude >>> shift
  let remainderMask := if shift = 128 then ~~~(0 : UInt128) else (1 : UInt128) <<< shift - 1
  let remainder := magnitude &&& remainderMask
  roundQuotient round ((1 : UInt128) <<< (shift - 1)) quotient remainder

/-- A source with fewer fractional bits: whether bits are lost, and what is left. -/
def shiftLeft (shift : ℕ) (magnitude : UInt128) : Bool × UInt128 :=
  (decide (magnitude ≠ 0 ∧ (128 ≤ shift ∨ (~~~0 : UInt128) >>> shift < magnitude)),
    if 128 ≤ shift then 0 else magnitude <<< shift)

/-- The arithmetic overflow and the magnitude in the destination's unit. -/
def rescale (sourceFraction destFraction : ℕ) (round : Round) (magnitude : UInt128) :
    Bool × UInt128 :=
  if destFraction < sourceFraction then
    (false, shiftRight round (sourceFraction - destFraction) magnitude)
  else if sourceFraction < destFraction then
    shiftLeft (destFraction - sourceFraction) magnitude
  else (false, magnitude)

end Rescale

/-- `representable`, once no bit has been lost. -/
def inRange (dest : Format) (value : SignedMagnitude) : Bool :=
  match dest.signedness with
  | .signed =>
    decide (value.magnitude ≤
      if value.negative then signedNegativeLimit dest.width else signedPositiveLimit dest.width)
  | .unsigned => !value.negative && decide (value.magnitude ≤ unsignedLimit dest.width)

def saturated (dest : Format) (negative : Bool) : Bits dest.width :=
  match dest.signedness with
  | .signed =>
    encode dest negative
      (if negative then signedNegativeLimit dest.width else signedPositiveLimit dest.width)
  | .unsigned =>
    Bits.fromUInt128 dest.width_pos (if negative then 0 else unsignedLimit dest.width)

/-- The source in the destination's unit: the arithmetic overflow, and the value with the sign of a
zero magnitude dropped. -/
def rescaled {format : Format} (dest : Format) (source : Fixed format) (round : Round) :
    Bool × SignedMagnitude :=
  let value := decompose source
  let scaled := rescale format.fractionalBits dest.fractionalBits round value.magnitude
  (scaled.1, ⟨if scaled.2 = 0 then false else value.negative, scaled.2⟩)

def quantize {format : Format} (dest : Format) (source : Fixed format) (round : Round)
    (overflow : Overflow) : Option (Fixed dest) :=
  let (arithmeticOverflow, value) := rescaled dest source round
  let representable := !arithmeticOverflow && inRange dest value
  if representable ∨ overflow = .wrap then some ⟨encode dest value.negative value.magnitude⟩
  else if overflow = .trap then none
  else some ⟨saturated dest value.negative⟩

end Cpptb.FixedPoint
