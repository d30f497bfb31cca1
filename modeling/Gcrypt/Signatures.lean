import Gcrypt.Reference.Instance
import Gcrypt.Xeddsa

/-!
# Gcrypt.Signatures

Exactly when `verify32` accepts what `sign32` makes (`complete_iff`).

It need not, for a reason that `verify32_eq_true_iff` makes visible: the verifier
computes with integers modulo the group order where it should compute with field
elements and points. `forged_accepted` draws the consequence: for every message
there is a signature anyone can compute from the public key.
-/

namespace Gcrypt.XedDSA

variable {P : Primitives} {E : EdwardsGroup} {n : Nat}

/-! ### Halves -/

theorem sigR_kconcatEqual (R s : Xckey) : sigR (kconcatEqual R s) = R :=
  (kcpyFrom_kconcatEqual (n := 32) R s).1

theorem sigS_kconcatEqual (R s : Xckey) : sigS (kconcatEqual R s) = s :=
  (kcpyFrom_kconcatEqual (n := 32) R s).2

/-- A reduced scalar as the second half. -/
theorem sigS_scalar (R : Xckey) (v : Nat) :
    (sigS (kconcatEqual R (Key.ofNat 32 (v % groupOrder)))).toNat = v % groupOrder := by
  rw [sigS_kconcatEqual]
  exact Key.toNat_ofNat_of_lt ((Nat.mod_lt _ (by decide)).trans (by decide))

/-! ### Completeness -/

/-- The reduced nonce `r` of a signature. -/
def nonce (P : Primitives) (K : Xckey) (M : Key n) (Z : Key 64) : Xckey :=
  P.cryptoCoreEd25519ScalarReduce
    (hash255I P 1 (kconcat [⟨_, (calculateKeyPair P K).Private⟩, ⟨_, M⟩, ⟨_, Z⟩]))

theorem sigR_sign32 (K : Xckey) (M : Key n) (Z : Key 64) :
    sigR (sign32 P K M Z) = bpscale P (nonce P K M Z) := sigR_kconcatEqual _ _

theorem sigS_sign32 (K : Xckey) (M : Key n) (Z : Key 64) :
    sigS (sign32 P K M Z)
      = P.cryptoCoreEd25519ScalarAdd (nonce P K M Z)
          (P.cryptoCoreEd25519ScalarMul
            (challenge P (bpscale P (nonce P K M Z)) (calculateKeyPair P K).Public M)
            (calculateKeyPair P K).Private) := sigS_kconcatEqual _ _

theorem nonce_lt (laws : ScalarLaws P) (K : Xckey) (M : Key n) (Z : Key 64) :
    (nonce P K M Z).toNat < groupOrder := by
  rw [nonce, laws.reduce]
  exact Nat.mod_lt _ (by decide)

/-- The nonce point is the encoded multiple of the base point. -/
theorem bpscale_nonce (laws : ScalarLaws P) (curve : CurveLaws P E) (K : Xckey) (M : Key n)
    (Z : Key 64) :
    bpscale P (nonce P K M Z) = E.encode ((nonce P K M Z).toNat • E.basepoint) := by
  have hlt : (nonce P K M Z).toNat < 2 ^ 255 := (nonce_lt laws K M Z).trans (by decide)
  rw [bpscale, curve.base_noclamp, Nat.mod_eq_of_lt hlt]

/-- The coincidence under which the verifier's integers match the signer's group
elements: `A'` is the quotient modulo the group order and encodes a point, and the
encoding of `r B`, as an integer `R`, satisfies `r + h a ≡ R + h' A'`. -/
structure Coincides (P : Primitives) (E : EdwardsGroup) (pair : Xckeypair) (M : Key n)
    (Z : Key 64) (A' : Xckey) : Prop where
  quotient : MontgomeryY groupOrder pair.Public.toNat A'.toNat
  valid : P.cryptoCoreEd25519IsValidPoint A' = true
  reduced : (E.encode ((nonce P pair.Private M Z).toNat • E.basepoint)).toNat < groupOrder
  equation :
    let r := nonce P pair.Private M Z
    let R := E.encode (r.toNat • E.basepoint)
    let A := calculateKeyPair P pair.Private
    r.toNat + (challenge P R A.Public M).toNat * A.Private.toNat
      ≡ R.toNat + (challenge P R A' M).toNat * A'.toNat [MOD groupOrder]

/-- An honest signature satisfies the verifier's relation exactly under the
coincidence. -/
theorem integerRelation_sign32_iff (laws : ScalarLaws P) (curve : CurveLaws P E)
    {pair : Xckeypair} {M : Key n} {Z : Key 64} {A' : Xckey} :
    IntegerRelation P pair.Public M (sign32 P pair.Private M Z) A' ↔
      Coincides P E pair M Z A' := by
  have hs := congrArg Key.toNat (sigS_sign32 (P := P) pair.Private M Z)
  rw [laws.add, laws.mul, bpscale_nonce laws curve] at hs
  have hR := (sigR_sign32 (P := P) pair.Private M Z).trans (bpscale_nonce laws curve _ _ _)
  have hmod : (sigS (sign32 P pair.Private M Z)).toNat
      ≡ (nonce P pair.Private M Z).toNat
        + (challenge P (E.encode ((nonce P pair.Private M Z).toNat • E.basepoint))
            (calculateKeyPair P pair.Private).Public M).toNat
          * (calculateKeyPair P pair.Private).Private.toNat [MOD groupOrder] := by
    rw [hs]
    exact (Nat.mod_modEq _ _).trans ((Nat.mod_modEq _ _).add_left _)
  constructor
  · rintro ⟨hq, hv, hlt, heq⟩
    rw [hR] at hlt heq
    exact ⟨hq, hv, hlt, hmod.symm.trans heq⟩
  · rintro ⟨hq, hv, hlt, heq⟩
    refine ⟨hq, hv, by rwa [hR], ?_⟩
    rw [hR]
    exact hmod.trans heq

/-- **Completeness, exactly.** For a key pair as the generators make it, a signature
with a nonce other than zero verifies if and only if the coincidence holds. -/
theorem complete_iff (laws : ScalarLaws P) (curve : CurveLaws P E) {pair : Xckeypair}
    (hpair : IsBoxPair P pair) (M : Key n) (Z : Key 64) :
    ((nonce P pair.Private M Z).toNat ≠ 0 →
        verify32 P pair.Public M (sign32 P pair.Private M Z) = .ok true) ↔
      (nonce P pair.Private M Z).toNat = 0 ∨ ∃ A', Coincides P E pair M Z A' := by
  have hu : pair.Public.toNat < fieldPrime := by
    rw [hpair]
    exact curve.base_canonical _
  have hs : (sigS (sign32 P pair.Private M Z)).toNat < 2 ^ 253 := by
    rw [sigS_sign32, laws.add]
    exact (Nat.mod_lt _ (by decide)).trans groupOrder_lt
  rw [verify32_eq_true_iff laws]
  simp only [integerRelation_sign32_iff laws curve]
  constructor
  · intro h
    by_cases hr : (nonce P pair.Private M Z).toNat = 0
    · exact Or.inl hr
    · exact Or.inr (h hr).2.2
  · rintro (hr | hA) hne
    · exact absurd hr hne
    · exact ⟨hu, hs, hA⟩

/-- A generated pair whose private key is clamped already and whose point has sign 0. -/
def honestPair : Xckeypair :=
  ⟨Reference.primitives.cryptoScalarmultCurve25519Base (Key.ofNat 32 (2 ^ 254 + 8)),
    Key.ofNat 32 (2 ^ 254 + 8)⟩

def honestMessage : Key 1 := Key.zero

def honestSignature : Key 64 :=
  sign32 Reference.primitives honestPair.Private honestMessage Key.zero

theorem honestPair_isBoxPair : IsBoxPair Reference.primitives honestPair := rfl

theorem complete_iff_honestPair :
    ((nonce Reference.primitives honestPair.Private honestMessage Key.zero).toNat ≠ 0 →
        verify32 Reference.primitives honestPair.Public honestMessage
          (sign32 Reference.primitives honestPair.Private honestMessage Key.zero) = .ok true) ↔
      (nonce Reference.primitives honestPair.Private honestMessage Key.zero).toNat = 0 ∨
        ∃ A', Coincides Reference.primitives Reference.edwards honestPair honestMessage
          Key.zero A' :=
  complete_iff Reference.scalarLaws Reference.curveLaws honestPair_isBoxPair honestMessage
    Key.zero

/-- The verifier rejects what the signer makes. -/
theorem honest_signature_rejected :
    IsBoxPair Reference.primitives honestPair ∧
      (nonce Reference.primitives honestPair.Private honestMessage Key.zero).toNat ≠ 0 ∧
      verify32 Reference.primitives honestPair.Public honestMessage
        (sign32 Reference.primitives honestPair.Private honestMessage Key.zero) = .ok false :=
  ⟨honestPair_isBoxPair, by decide +kernel, by decide +kernel⟩

/-! ### Forgery -/

/-- A signature for any message, computed from the public key alone. -/
def forged (P : Primitives) (A R : Xckey) (M : Key n) : Key 64 :=
  kconcatEqual R
    (Key.ofNat 32 ((R.toNat + (challenge P R A M).toNat * A.toNat) % groupOrder))

theorem sigR_forged (A R : Xckey) (M : Key n) : sigR (forged P A R M) = R :=
  sigR_kconcatEqual _ _

theorem sigS_forged (A R : Xckey) (M : Key n) :
    (sigS (forged P A R M)).toNat
      = (R.toNat + (challenge P R A M).toNat * A.toNat) % groupOrder := sigS_scalar _ _

/-- Under every key whose quotient `A` encodes a point, every message has a forged
signature that is accepted, for every first half below the group order. -/
theorem forged_accepted (laws : ScalarLaws P) {mkPub A R : Xckey} (M : Key n)
    (hu : mkPub.toNat < fieldPrime) (hA : MontgomeryY groupOrder mkPub.toNat A.toNat)
    (hvalid : P.cryptoCoreEd25519IsValidPoint A = true) (hR : R.toNat < groupOrder) :
    verify32 P mkPub M (forged P A R M) = .ok true := by
  have hlt : (R.toNat + (challenge P R A M).toNat * A.toNat) % groupOrder < groupOrder :=
    Nat.mod_lt _ (by decide)
  rw [verify32_eq_true_iff laws, sigS_forged]
  refine ⟨hu, hlt.trans groupOrder_lt, A, hA, hvalid, ?_, ?_⟩
  · rwa [sigR_forged]
  · rw [sigS_forged, sigR_forged]
    exact Nat.mod_modEq _ _

end Gcrypt.XedDSA
