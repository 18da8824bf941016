import PhiChain.Foundations.Bytes

/-!
# Points of P-256

Reading and writing points of the curve `y² = x³ - 3x + b` as `crypto/elliptic` does it. An
uncompressed point is the byte 4 with both coordinates; a compressed point is the byte 2 or 3
with the first coordinate, and the parity of the second is that of the byte. Coordinates are 32
bytes below the field prime, and only points of the curve are read.

Every reading ends in the uncompressed form (`canonical`), and the first byte of a text that can be
read fixes its length (`length_of_canonical`).
-/

set_option autoImplicit false

namespace PhiChain.Sdk.P256

open Foundations

/-- The prime of the field. -/
def fieldPrime : Nat := 2 ^ 256 - 2 ^ 224 + 2 ^ 192 + 2 ^ 96 - 1

def curveB : Nat := 0x5ac635d8aa3a93e7b3ebbd55769886bc651d06b0cc53b0f63bce3c3e27d2604b

def coordinateLen : Nat := 32

/-- The right side of the curve's equation. -/
def polynomial (x : Nat) : Nat := (x * x * x + (fieldPrime - 3) * x + curveB) % fieldPrime

def isOnCurve (x y : Nat) : Bool :=
  x < fieldPrime && y < fieldPrime && y * y % fieldPrime == polynomial x

/-- The power of `b` to the number given by the lowest `bits` bits of `e`, by squaring. -/
def powMod (b : Nat) : Nat → Nat → Nat
  | 0, _ => 1
  | bits + 1, e =>
    let root := powMod b bits (e / 2)
    if e % 2 = 1 then root * root * b % fieldPrime else root * root % fieldPrime

/-- A root of every square: the prime is 3 modulo 4. -/
def sqrtCandidate (a : Nat) : Nat := powMod a 256 ((fieldPrime + 1) / 4)

/-- The root with the parity that a compressed point's first byte asks for. -/
def withParity (head : Byte) (y : Nat) : Nat :=
  if y % 2 = head.val % 2 then y else (fieldPrime - y) % fieldPrime

/-- The uncompressed form. -/
def marshal (point : Nat × Nat) : Bytes :=
  4 :: bigEndian coordinateLen point.1 ++ bigEndian coordinateLen point.2

def unmarshal (b : Bytes) : Option (Nat × Nat) :=
  match b with
  | [] => none
  | head :: rest =>
    let x := ofBigEndian (rest.take coordinateLen)
    let y := ofBigEndian (rest.drop coordinateLen)
    if head = 4 ∧ b.length = 1 + 2 * coordinateLen ∧ isOnCurve x y = true then some (x, y)
    else none

def unmarshalCompressed (b : Bytes) : Option (Nat × Nat) :=
  match b with
  | [] => none
  | head :: rest =>
    let x := ofBigEndian rest
    let y := withParity head (sqrtCandidate (polynomial x))
    if (head = 2 ∨ head = 3) ∧ b.length = 1 + coordinateLen ∧ isOnCurve x y = true then
      some (x, y)
    else none

/-- The uncompressed form of the point that a text of either form gives. -/
def canonical (b : Bytes) : Option Bytes :=
  if b.head? = some 4 then (unmarshal b).map marshal else (unmarshalCompressed b).map marshal

/-- The length that the first byte of a point announces. -/
def announcedLen (head : Byte) : Nat :=
  if head = 4 then 1 + 2 * coordinateLen else 1 + coordinateLen

theorem length_of_unmarshal {head : Byte} {rest : Bytes} {point : Nat × Nat}
    (h : unmarshal (head :: rest) = some point) :
    (head :: rest).length = announcedLen head := by
  simp only [unmarshal, Option.ite_none_right_eq_some] at h
  obtain ⟨⟨hhead, hlen, -⟩, -⟩ := h
  rw [hlen, announcedLen, if_pos hhead]

theorem length_of_unmarshalCompressed {head : Byte} {rest : Bytes} {point : Nat × Nat}
    (h : unmarshalCompressed (head :: rest) = some point) :
    (head :: rest).length = announcedLen head := by
  simp only [unmarshalCompressed, Option.ite_none_right_eq_some] at h
  obtain ⟨⟨hhead, hlen, -⟩, -⟩ := h
  have hcompressed : head ≠ 4 := by
    rintro rfl
    exact absurd hhead (by decide)
  rw [hlen, announcedLen, if_neg hcompressed]

/-- A text that is read has a first byte and the length that this byte announces. -/
theorem length_of_canonical {b point : Bytes} (h : canonical b = some point) :
    ∃ head rest, b = head :: rest ∧ b.length = announcedLen head := by
  cases b with
  | nil => cases h
  | cons head rest =>
    refine ⟨head, rest, rfl, ?_⟩
    unfold canonical at h
    split at h
    · obtain ⟨read, hread, -⟩ := Option.map_eq_some_iff.1 h
      exact length_of_unmarshal hread
    · obtain ⟨read, hread, -⟩ := Option.map_eq_some_iff.1 h
      exact length_of_unmarshalCompressed hread

/-- The base point. -/
def basePoint : Nat × Nat :=
  (0x6b17d1f2e12c4247f8bce6e563a440f277037d812deb33a0f4a13945d898c296,
    0x4fe342e2fe1a7f9b8ee7eb4a7c0f9e162bce33576b315ececbb6406837bf51f5)

example : canonical (3 :: bigEndian coordinateLen basePoint.1) = some (marshal basePoint) := by
  decide +kernel

end PhiChain.Sdk.P256
