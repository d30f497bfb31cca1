import Gcrypt.Library.PrimeOrder
import Gcrypt.Reference.Ed25519
import Gcrypt.Signatures

/-!
# Gcrypt.SigningKey

The key pair that `sign32` works with, and the **signature equation** `s B = R + h A`.

`calculate_key_pair` reads one private key twice: multiplying the base point ignores
bit 255 of it, the scalar functions do not. The group does not mind that the private key
is neither clamped nor reduced, and the negation for sign 1 fits the encoding
(`keyPair_encodes`). But `2^255` is no multiple of the group order, so with bit 255 set
the public half belongs to another scalar (`keyPair_encodes_iff`).
-/

namespace Gcrypt.XedDSA

variable {P : Primitives} {E : EdwardsGroup} {n : Nat}

/-! ### Multiples of the base point -/

namespace EdwardsLaws

variable (group : EdwardsLaws E)
include group

theorem nsmul_eq_iff {a b : Nat} :
    a • E.basepoint = b • E.basepoint ↔ a ≡ b [MOD groupOrder] :=
  PrimeOrder.nsmul_eq_iff Reference.groupOrder_prime group.order group.basepoint_ne_zero

theorem neg_nsmul (k : Nat) :
    -(k • E.basepoint) = ((groupOrder - k % groupOrder) % groupOrder) • E.basepoint := by
  rw [neg_eq_iff_add_eq_zero, ← add_nsmul, ← zero_nsmul E.basepoint, group.nsmul_eq_iff]
  have hle : k % groupOrder ≤ groupOrder := (Nat.mod_lt _ (by decide)).le
  calc k + (groupOrder - k % groupOrder) % groupOrder
      ≡ k % groupOrder + (groupOrder - k % groupOrder) [MOD groupOrder] :=
        (Nat.mod_modEq _ _).symm.add (Nat.mod_modEq _ _)
    _ = groupOrder := by omega
    _ ≡ 0 [MOD groupOrder] := Nat.modEq_zero_iff_dvd.mpr dvd_rfl

/-- A point with sign 1 is not its own inverse, and the inverse has sign 0. -/
theorem encode_neg_of_signbit {T : E.Point} (h : Ed25519.signbit (E.encode T) = true) :
    E.encode (-T) = Ed25519.ycoord (E.encode T) := by
  have hne : -T ≠ T := by
    intro hself
    rw [group.signbit_self T hself] at h
    cases h
  have hsign := group.signbit_neg T hne
  rw [h, Bool.not_true] at hsign
  rw [← group.ycoord_neg T, ycoord_of_signbit hsign]

end EdwardsLaws

/-! ### The key pair -/

/-- The point that the public half encodes: the multiple by the low 255 bits, or its
inverse. -/
theorem keyPair_public (curve : CurveLaws P E) (group : EdwardsLaws E) (K : Xckey) :
    (calculateKeyPair P K).Public = E.encode
      (if Ed25519.signbit (bpscale P K) then -((K.toNat % 2 ^ 255) • E.basepoint)
        else (K.toNat % 2 ^ 255) • E.basepoint) := by
  have hpoint : bpscale P K = E.encode ((K.toNat % 2 ^ 255) • E.basepoint) :=
    curve.base_noclamp K
  show Ed25519.ycoord (bpscale P K) = _
  cases hsign : Ed25519.signbit (bpscale P K) with
  | false =>
    rw [if_neg Bool.false_ne_true, ycoord_of_signbit hsign, hpoint]
  | true =>
    rw [hpoint] at hsign
    rw [if_pos rfl, group.encode_neg_of_signbit hsign, hpoint]

/-- The point of the private half: the multiple by all 256 bits, or its inverse. -/
theorem keyPair_private (laws : ScalarLaws P) (group : EdwardsLaws E) (K : Xckey) :
    (calculateKeyPair P K).Private.toNat • E.basepoint =
      if Ed25519.signbit (bpscale P K) then -(K.toNat • E.basepoint)
        else K.toNat • E.basepoint := by
  show (if Ed25519.signbit (bpscale P K) then P.cryptoCoreEd25519ScalarNegate K
    else kcpy K).toNat • E.basepoint = _
  cases Ed25519.signbit (bpscale P K) with
  | false => rw [if_neg Bool.false_ne_true, if_neg Bool.false_ne_true, kcpy_eq]
  | true => rw [if_pos rfl, if_pos rfl, laws.negate, group.neg_nsmul]

/-- Bit 255 counts for the scalar functions. -/
theorem mod_modEq_iff (K : Xckey) :
    K.toNat % 2 ^ 255 ≡ K.toNat [MOD groupOrder] ↔ K.toNat < 2 ^ 255 := by
  constructor
  · intro hmod
    by_contra hle
    have hlt : K.toNat < 2 ^ 256 := K.toNat_lt.trans_eq (by decide)
    have hK : K.toNat = K.toNat % 2 ^ 255 + 2 ^ 255 := by omega
    have hzero : K.toNat % 2 ^ 255 + 0 ≡ K.toNat % 2 ^ 255 + 2 ^ 255 [MOD groupOrder] := by
      rwa [Nat.add_zero, ← hK]
    have hbit := Nat.ModEq.add_left_cancel' _ hzero
    revert hbit
    decide
  · intro hlt
    rw [Nat.mod_eq_of_lt hlt]

/-- The two halves belong together exactly where bit 255 is clear. -/
theorem keyPair_encodes_iff (laws : ScalarLaws P) (curve : CurveLaws P E)
    (group : EdwardsLaws E) (K : Xckey) :
    (calculateKeyPair P K).Public
        = E.encode ((calculateKeyPair P K).Private.toNat • E.basepoint) ↔
      K.toNat < 2 ^ 255 := by
  rw [keyPair_public curve group, keyPair_private laws group, group.encode_injective.eq_iff,
    ← mod_modEq_iff, ← group.nsmul_eq_iff]
  cases Ed25519.signbit (bpscale P K) with
  | false => rw [if_neg Bool.false_ne_true, if_neg Bool.false_ne_true]
  | true => rw [if_pos rfl, if_pos rfl, neg_inj]

/-! ### The equation -/

/-- What a signature of `sign32` is made to satisfy, for `(A, a) = calculate_key_pair(K)`
and the reduced nonce `r`. -/
structure SignatureEquation (P : Primitives) (E : EdwardsGroup) (K : Xckey) (M : Key n)
    (Z : Key 64) : Prop where
  encodes : (calculateKeyPair P K).Public
    = E.encode ((calculateKeyPair P K).Private.toNat • E.basepoint)
  sign : Ed25519.signbit (calculateKeyPair P K).Public = false
  reduced : (sigS (sign32 P K M Z)).toNat < groupOrder
  commitment : sigR (sign32 P K M Z) = E.encode ((nonce P K M Z).toNat • E.basepoint)
  equation (A : E.Point) : E.encode A = (calculateKeyPair P K).Public →
    let h := (sha P (kconcat [⟨_, sigR (sign32 P K M Z)⟩,
      ⟨_, (calculateKeyPair P K).Public⟩, ⟨_, M⟩])).toNat % groupOrder
    (sigS (sign32 P K M Z)).toNat • E.basepoint
      = (nonce P K M Z).toNat • E.basepoint + h • A

/-- The scalar half of a signature, multiplied by the base point. -/
theorem sigS_nsmul (laws : ScalarLaws P) (group : EdwardsLaws E) (K : Xckey) (M : Key n)
    (Z : Key 64) :
    (sigS (sign32 P K M Z)).toNat • E.basepoint = (nonce P K M Z).toNat • E.basepoint
      + (challenge P (bpscale P (nonce P K M Z)) (calculateKeyPair P K).Public M).toNat
        • (calculateKeyPair P K).Private.toNat • E.basepoint := by
  rw [← mul_nsmul', ← add_nsmul, group.nsmul_eq_iff, sigS_sign32, laws.add, laws.mul]
  exact (Nat.mod_modEq _ _).trans ((Nat.mod_modEq _ _).add_left _)

/-- **The signature equation, exactly.** It holds of every signature of a private key
with bit 255 clear, and of none of another private key. -/
theorem signatureEquation_iff (laws : ScalarLaws P) (curve : CurveLaws P E)
    (group : EdwardsLaws E) (K : Xckey) (M : Key n) (Z : Key 64) :
    SignatureEquation P E K M Z ↔ K.toNat < 2 ^ 255 := by
  rw [← keyPair_encodes_iff laws curve group]
  constructor
  · intro h
    exact h.encodes
  · intro hencodes
    refine ⟨hencodes, signbit_ycoord _, ?_, ?_, ?_⟩
    · rw [sigS_sign32, laws.add]
      exact Nat.mod_lt _ (by decide)
    · rw [sigR_sign32, bpscale_nonce laws curve]
    · intro A hA
      rw [hencodes, group.encode_injective.eq_iff] at hA
      dsimp only
      rw [sigS_nsmul laws group, hA, sigR_sign32, ← laws.reduce]
      rfl

/-- The clamped private key of `honestPair`, on the curve. -/
theorem signatureEquation_honestPair :
    SignatureEquation Reference.curvePrimitives Reference.curveGroup honestPair.Private
      honestMessage Key.zero :=
  (signatureEquation_iff Reference.curvePrimitives_scalarLaws
    Reference.curvePrimitives_curveLaws Reference.edwardsLaws honestPair.Private
    honestMessage Key.zero).mpr (by decide +kernel)

/-- A private key with bit 255 set, which the generator can return. -/
def highPair : Xckeypair :=
  ⟨Reference.primitives.cryptoScalarmultCurve25519Base (Key.ofNat 32 (2 ^ 255 + 8)),
    Key.ofNat 32 (2 ^ 255 + 8)⟩

/-- Its signatures belong to another public key than the one they are made with. -/
theorem highPair_not_signatureEquation :
    IsBoxPair Reference.primitives highPair ∧
      ¬ SignatureEquation Reference.primitives Reference.edwards highPair.Private honestMessage
        Key.zero := by
  refine ⟨rfl, ?_⟩
  intro h
  have hencodes := h.encodes
  rw [Reference.nsmul_basepoint, Reference.encode_multiple] at hencodes
  revert hencodes
  decide +kernel

end Gcrypt.XedDSA
