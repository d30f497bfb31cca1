import Mathlib.NumberTheory.LegendreSymbol.Basic
import Gcrypt.Library.Montgomery
import Gcrypt.Reference.Instance
import Gcrypt.Xeddsa

/-!
# Gcrypt.Reference.Ed25519

The group behind Ed25519: the Montgomery curve with `A = 486662` over the field of
`fieldPrime`, and the encodings of its points in Edwards coordinates.

The reference instance of `Primitives` computes with numbers; here the group is the one
of Mathlib, so that the laws of the encodings are theorems about the curve
(`edwardsLaws`). `curvePrimitives` multiplies the base point in it, and
`subgroupPrimitives` also tests points in it.
-/

namespace Gcrypt.Reference

open Modular Montgomery XedDSA

/-! ### The curve -/

abbrev Field25519 : Type := ZMod fieldPrime

def curveA : Field25519 := 486662

/-- The base point, and a square root of `-(A + 2)`. -/
def baseU : Field25519 := 9
def baseV : Field25519 :=
  14781619447589544791020593568409986887264606134616475288964881837755586237401
def edwardsC : Field25519 :=
  51042569399160536130206135233146329284152202253034631822681833788666877215207

theorem two_ne_zero_field : (2 : Field25519) ≠ 0 := by decide +kernel

theorem edwardsC_ne_zero : edwardsC ≠ 0 := by decide +kernel

theorem curveA_sq_ne : curveA ^ 2 ≠ 4 := by decide +kernel

/-- Euler's criterion for `A - 2`. -/
theorem not_isSquare_curveA_sub : ¬ IsSquare (curveA - 2) := by
  have hcast : curveA - 2 = ((486660 : Nat) : Field25519) := by decide +kernel
  have hne : curveA - 2 ≠ 0 := by decide +kernel
  have hpow : powMod fieldPrime 255 486660 (fieldPrime / 2) ≠ 1 := by decide +kernel
  rw [powMod_eq (by decide)] at hpow
  rw [ZMod.euler_criterion fieldPrime hne, hcast, ← Nat.cast_pow, ← Nat.cast_one,
    ZMod.natCast_eq_natCast_iff, Nat.ModEq, Nat.mod_eq_of_lt (by decide : 1 < fieldPrime)]
  exact hpow

theorem base_nonsingular : (curve curveA).Nonsingular baseU baseV :=
  (nonsingular_iff two_ne_zero_field curveA_sq_ne).mpr (by decide +kernel)

def basePoint : (curve curveA).Point := .some baseU baseV base_nonsingular

/-! ### The order of the base point -/

def baseTriple : Triple Field25519 := ⟨baseU, baseV, 1⟩

theorem baseTriple_represents : baseTriple.Represents basePoint :=
  ⟨by decide +kernel, baseU, baseV, base_nonsingular, rfl, by decide +kernel, by decide +kernel⟩

/-- The chain for `L - 1` ends in the inverse of the base point. -/
theorem groupOrder_chain :
    let t := baseTriple.mul curveA baseU baseV (groupOrder - 1) 252
    t.Z ≠ 0 ∧ t.X = baseU * t.Z ∧ t.Y = -baseV * t.Z := by decide +kernel

theorem groupOrder_nsmul : groupOrder • basePoint = 0 := by
  obtain ⟨hZ, hX, hY⟩ := groupOrder_chain
  have hstart : baseTriple.Represents (((groupOrder - 1) / 2 ^ 252) • basePoint) := by
    rw [show (groupOrder - 1) / 2 ^ 252 = 1 by decide, one_nsmul]
    exact baseTriple_represents
  obtain ⟨-, u, v, h, heq, hu, hv⟩ := Triple.mul_represents base_nonsingular hstart hZ
  have hu' : u = baseU := mul_right_cancel₀ hZ (hu.symm.trans hX)
  have hv' : v = -baseV := mul_right_cancel₀ hZ (hv.symm.trans hY)
  have hinv : (groupOrder - 1) • basePoint = -basePoint := by
    show (groupOrder - 1) • WeierstrassCurve.Affine.Point.some baseU baseV base_nonsingular = _
    rw [heq, basePoint, WeierstrassCurve.Affine.Point.neg_some]
    simp only [hu', hv', negY_eq]
  have hlast : groupOrder = groupOrder - 1 + 1 := by decide
  rw [hlast, succ_nsmul, hinv, neg_add_cancel]

/-! ### Encodings -/

/-- `y`, and the parity of `x` in bit 255. -/
def encodeCoordinates (c : Field25519 × Field25519) : Xckey :=
  Key.ofNat 32 (c.2.val + c.1.val % 2 * 2 ^ 255)

theorem encodeCoordinates_toNat (c : Field25519 × Field25519) :
    (encodeCoordinates c).toNat = c.2.val + c.1.val % 2 * 2 ^ 255 := by
  have hy : c.2.val < fieldPrime := ZMod.val_lt c.2
  have hx : c.1.val % 2 < 2 := Nat.mod_lt _ (by decide)
  have hp : fieldPrime < 2 ^ 255 := by decide
  refine Key.toNat_ofNat_of_lt ?_
  calc c.2.val + c.1.val % 2 * 2 ^ 255 < 2 ^ 255 + 1 * 2 ^ 255 := by omega
    _ = 256 ^ 32 := by decide

theorem ycoord_encodeCoordinates (c : Field25519 × Field25519) :
    (Ed25519.ycoord (encodeCoordinates c)).toNat = c.2.val := by
  have hy : c.2.val < 2 ^ 255 := (ZMod.val_lt c.2).trans (by decide)
  rw [ycoord_toNat, encodeCoordinates_toNat, Nat.add_mul_mod_self_right, Nat.mod_eq_of_lt hy]

theorem signbit_encodeCoordinates (c : Field25519 × Field25519) :
    Ed25519.signbit (encodeCoordinates c) = decide (c.1.val % 2 = 1) := by
  have hy : c.2.val < 2 ^ 255 := (ZMod.val_lt c.2).trans (by decide)
  have hiff : Ed25519.signbit (encodeCoordinates c) = true ↔ c.1.val % 2 = 1 := by
    rw [signbit_iff, encodeCoordinates_toNat]
    omega
  exact Bool.eq_iff_iff.mpr (hiff.trans decide_eq_true_iff.symm)

/-- The field prime is odd: an element and its negative have different parities. -/
theorem val_neg_parity {x : Field25519} (hx : x ≠ 0) :
    decide ((-x).val % 2 = 1) = !decide (x.val % 2 = 1) := by
  have hne : NeZero x := ⟨hx⟩
  have hodd : fieldPrime % 2 = 1 := by decide
  have hlt : x.val < fieldPrime := ZMod.val_lt x
  rw [ZMod.val_neg_of_ne_zero]
  by_cases hpar : x.val % 2 = 1
  · have hneg : (fieldPrime - x.val) % 2 = 0 := by omega
    simp [hpar, hneg]
  · have hneg : (fieldPrime - x.val) % 2 = 1 := by omega
    simp [hpar, hneg]

/-- The curve as libsodium exposes it. -/
noncomputable def curveGroup : EdwardsGroup where
  Point := (curve curveA).Point
  basepoint := basePoint
  encode T := encodeCoordinates (toEdwards edwardsC T)

theorem ycoord_neg (T : (curve curveA).Point) :
    Ed25519.ycoord (encodeCoordinates (toEdwards edwardsC (-T)))
      = Ed25519.ycoord (encodeCoordinates (toEdwards edwardsC T)) := by
  refine Key.toNat_inj.mp ?_
  rw [ycoord_encodeCoordinates, ycoord_encodeCoordinates, toEdwards_neg]

theorem signbit_self (T : (curve curveA).Point) (h : -T = T) :
    Ed25519.signbit (encodeCoordinates (toEdwards edwardsC T)) = false := by
  have hx := (toEdwards_fst_eq_zero_iff two_ne_zero_field edwardsC_ne_zero T).mpr h
  rw [signbit_encodeCoordinates, hx, ZMod.val_zero]
  rfl

theorem signbit_neg (T : (curve curveA).Point) (h : -T ≠ T) :
    Ed25519.signbit (encodeCoordinates (toEdwards edwardsC (-T)))
      = !Ed25519.signbit (encodeCoordinates (toEdwards edwardsC T)) := by
  have hx : (toEdwards edwardsC T).1 ≠ 0 := by
    rwa [Ne, toEdwards_fst_eq_zero_iff two_ne_zero_field edwardsC_ne_zero]
  rw [toEdwards_neg, signbit_encodeCoordinates, signbit_encodeCoordinates]
  exact val_neg_parity hx

theorem encode_injective : Function.Injective curveGroup.encode := by
  intro T T' (h : encodeCoordinates (toEdwards edwardsC T)
    = encodeCoordinates (toEdwards edwardsC T'))
  have hy : (toEdwards edwardsC T).2 = (toEdwards edwardsC T').2 := by
    refine ZMod.val_injective _ ?_
    rw [← ycoord_encodeCoordinates, h, ycoord_encodeCoordinates]
  rcases eq_or_eq_neg_of_toEdwards_snd two_ne_zero_field not_isSquare_curveA_sub hy with heq | heq
  · exact heq
  · -- Inverse points that are not equal differ in the sign bit.
    by_contra hne
    have hsign := signbit_neg T' (by rwa [← heq])
    rw [← heq, h] at hsign
    simp at hsign

theorem edwardsLaws : EdwardsLaws curveGroup where
  basepoint_ne_zero := WeierstrassCurve.Affine.Point.some_ne_zero base_nonsingular
  order := groupOrder_nsmul
  encode_injective := encode_injective
  ycoord_neg T := ycoord_neg T
  signbit_neg T h := signbit_neg T h
  signbit_self T h := signbit_self T h

/-- The base point is encoded as the numbers of the reference instance have it. -/
example : curveGroup.encode basePoint = Key.ofNat 32 Extended.base.encode := by
  show encodeCoordinates (edwardsC * baseU / baseV, (baseU - 1) / (baseU + 1)) = _
  decide +kernel

/-! ### Multiplying the base point -/

/-- The reference instance, with the multiplication of the base point on the curve. -/
noncomputable def curvePrimitives : Primitives :=
  { primitives with
    cryptoScalarmultEd25519BaseNoclamp := fun n =>
      curveGroup.encode ((n.toNat % 2 ^ 255) • basePoint) }

theorem curvePrimitives_scalarLaws : ScalarLaws curvePrimitives :=
  ⟨scalarLaws.compare, scalarLaws.reduce, scalarLaws.negate, scalarLaws.add, scalarLaws.sub,
    scalarLaws.mul, scalarLaws.invert_eq_none, scalarLaws.invert_eq_some⟩

theorem curvePrimitives_curveLaws : CurveLaws curvePrimitives curveGroup :=
  ⟨fun _ => rfl, curveLaws.base_canonical⟩

open Classical in
/-- The same, with the point check as what it tests: the canonical encoding of a point in the
main subgroup that is not the identity. -/
noncomputable def subgroupPrimitives : Primitives :=
  { curvePrimitives with
    cryptoCoreEd25519IsValidPoint := fun A =>
      decide (∃ T, T ≠ 0 ∧ groupOrder • T = 0 ∧ curveGroup.encode T = A) }

theorem subgroupPrimitives_scalarLaws : ScalarLaws subgroupPrimitives :=
  { curvePrimitives_scalarLaws with }

end Gcrypt.Reference
