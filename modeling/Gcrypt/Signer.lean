import Gcrypt.Signatures

/-!
# Gcrypt.Signer

What `sign32` hands out: whether its signatures are in the verifier's bounds, and which
byte strings it hashes.

* `sig_in_bounds` tests bit 255 of `R` although this bit is the sign of the point
  (`inBounds_iff`), so it turns away every signature whose nonce point has sign 1
  (`sigInBounds_sign32_iff`).
* The nonce is hashed behind the prefix `2^256 - 2`, which is no encoding of a point,
  and not in bounds either; so no nonce hash is a challenge hash
  (`nonceInput_ne_challengeInput`). That these are the hashes that are made is
  `sign32_eq_of_hashes` and `verify32_eq_of_hash`.
-/

namespace Gcrypt.XedDSA

variable {P : Primitives} {E : EdwardsGroup} {n m : Nat}

/-! ### Bounds -/

/-- What the bounds check is for: a field element, an encoded `y` of 255 bits under any
sign bit, and a scalar of 253 bits. -/
structure InBounds (mkPub R s : Xckey) : Prop where
  mkPub : mkPub.toNat < fieldPrime
  ycoord : R.toNat % 2 ^ 255 < 2 ^ 255
  s : s.toNat < 2 ^ 253

theorem inBounds_iff {mkPub R s : Xckey} :
    InBounds mkPub R s ↔ mkPub.toNat < fieldPrime ∧ s.toNat < 2 ^ 253 := by
  constructor
  · intro h
    exact ⟨h.mkPub, h.s⟩
  · rintro ⟨hu, hs⟩
    exact ⟨hu, Nat.mod_lt _ (by decide), hs⟩

/-- The check is right exactly where `R` has sign 0, or another bound decides. -/
theorem sigInBounds_iff_inBounds (laws : ScalarLaws P) (mkPub R s : Xckey) :
    (sigInBounds P mkPub R s = true ↔ InBounds mkPub R s) ↔
      fieldPrime ≤ mkPub.toNat ∨ 2 ^ 253 ≤ s.toNat ∨ Ed25519.signbit R = false := by
  rw [sigInBounds_iff laws, inBounds_iff, signbit_eq_false_iff, ← Nat.not_lt, ← Nat.not_lt]
  by_cases hu : mkPub.toNat < fieldPrime
  · by_cases hs : s.toNat < 2 ^ 253
    · simp only [hu, hs, true_and, and_true, iff_true, not_true_eq_false, false_or]
    · simp only [hs, and_false, not_false_eq_true, true_or, or_true]
  · simp only [hu, false_and, not_false_eq_true, true_or]

/-- The scalar half of a signature is always in bounds. -/
theorem sigS_sign32_lt (laws : ScalarLaws P) (K : Xckey) (M : Key n) (Z : Key 64) :
    (sigS (sign32 P K M Z)).toNat < groupOrder := by
  rw [sigS_sign32, laws.add]
  exact Nat.mod_lt _ (by decide)

/-- A signature passes the check under a field element exactly where its nonce point has
sign 0. -/
theorem sigInBounds_sign32_iff (laws : ScalarLaws P) {mkPub : Xckey}
    (hu : mkPub.toNat < fieldPrime) (K : Xckey) (M : Key n) (Z : Key 64) :
    sigInBounds P mkPub (sigR (sign32 P K M Z)) (sigS (sign32 P K M Z)) = true ↔
      Ed25519.signbit (bpscale P (nonce P K M Z)) = false := by
  have hs : (sigS (sign32 P K M Z)).toNat < 2 ^ 253 :=
    (sigS_sign32_lt laws K M Z).trans groupOrder_lt
  rw [sigInBounds_iff laws, signbit_eq_false_iff, sigR_sign32]
  simp only [hu, hs, true_and, and_true]

/-- **The bounds check, exactly**, on all inputs and on what the signer makes. -/
theorem sigInBounds_exact_iff (laws : ScalarLaws P) :
    (∀ mkPub R s : Xckey, (sigInBounds P mkPub R s = true ↔ InBounds mkPub R s) ↔
      fieldPrime ≤ mkPub.toNat ∨ 2 ^ 253 ≤ s.toNat ∨ Ed25519.signbit R = false) ∧
    ∀ {n : Nat} (K : Xckey) (M : Key n) (Z : Key 64) (mkPub : Xckey),
      mkPub.toNat < fieldPrime →
      (sigInBounds P mkPub (sigR (sign32 P K M Z)) (sigS (sign32 P K M Z)) = true ↔
        Ed25519.signbit (bpscale P (nonce P K M Z)) = false) :=
  ⟨sigInBounds_iff_inBounds laws, fun K M Z _ hu => sigInBounds_sign32_iff laws hu K M Z⟩

/-- Random bytes under which the nonce point of `honestPair` has sign 1. -/
def signOneRandom : Key 64 := Key.ofNat 64 1

theorem honestPair_lt : honestPair.Public.toNat < fieldPrime := by decide +kernel

theorem sigInBounds_exact_honestPair :
    ((sigInBounds Reference.primitives honestPair.Public (sigR honestSignature)
          (sigS honestSignature) = true ↔
        InBounds honestPair.Public (sigR honestSignature) (sigS honestSignature)) ↔
      fieldPrime ≤ honestPair.Public.toNat ∨ 2 ^ 253 ≤ (sigS honestSignature).toNat ∨
        Ed25519.signbit (sigR honestSignature) = false) ∧
    (sigInBounds Reference.primitives honestPair.Public
        (sigR (sign32 Reference.primitives honestPair.Private honestMessage signOneRandom))
        (sigS (sign32 Reference.primitives honestPair.Private honestMessage signOneRandom))
        = true ↔
      Ed25519.signbit (bpscale Reference.primitives
        (nonce Reference.primitives honestPair.Private honestMessage signOneRandom)) = false) :=
  ⟨(sigInBounds_exact_iff Reference.scalarLaws).1 _ _ _,
    (sigInBounds_exact_iff Reference.scalarLaws).2 _ _ _ _ honestPair_lt⟩

/-- An honest signature whose nonce point has sign 1 is out of bounds. -/
theorem signOne_out_of_bounds :
    InBounds honestPair.Public
        (sigR (sign32 Reference.primitives honestPair.Private honestMessage signOneRandom))
        (sigS (sign32 Reference.primitives honestPair.Private honestMessage signOneRandom)) ∧
      sigInBounds Reference.primitives honestPair.Public
        (sigR (sign32 Reference.primitives honestPair.Private honestMessage signOneRandom))
        (sigS (sign32 Reference.primitives honestPair.Private honestMessage signOneRandom))
        = false := by
  have hs := sigS_sign32_lt Reference.scalarLaws honestPair.Private honestMessage signOneRandom
  exact ⟨inBounds_iff.mpr ⟨honestPair_lt, hs.trans groupOrder_lt⟩, by decide +kernel⟩

/-! ### Hash inputs -/

/-- The prefix `2^256 - 1 - i` of `hash255_i`, at `i = 1`. -/
def noncePrefix : Xckey := ⟨(0xFF - 1) :: List.replicate 31 0xFF, rfl⟩

/-- What `sign32` hashes for its nonce. -/
def nonceInput (P : Primitives) (K : Xckey) (M : Key n) (Z : Key 64) : List UInt8 :=
  noncePrefix.bytes ++ (kconcat [⟨_, (calculateKeyPair P K).Private⟩, ⟨_, M⟩, ⟨_, Z⟩]).bytes

/-- What `sign32` and `verify32` hash for the challenge. -/
def challengeInput (R A : Xckey) (M : Key n) : List UInt8 :=
  (kconcat [⟨_, R⟩, ⟨_, A⟩, ⟨_, M⟩]).bytes

/-- The nonce hash is the SHA-512 of the message behind the prefix. -/
theorem hash255I_one (message : Key n) :
    hash255I P 1 message = P.cryptoHashSha512 (noncePrefix.bytes ++ message.bytes) := rfl

/-- What `sign32` makes of its two digests; the second one depends on the nonce point. -/
def signDigests (P : Primitives) (K : Xckey) (nonceDigest : Key 64)
    (challengeDigest : Xckey → Key 64) : Key 64 :=
  let r := P.cryptoCoreEd25519ScalarReduce nonceDigest
  let h := P.cryptoCoreEd25519ScalarReduce (challengeDigest (bpscale P r))
  kconcatEqual (bpscale P r)
    (P.cryptoCoreEd25519ScalarAdd r
      (P.cryptoCoreEd25519ScalarMul h (calculateKeyPair P K).Private))

/-- What `verify32` makes of its digest, once the key has the point `A`. -/
def verifyDigest (P : Primitives) (A : Xckey) (rcs digest : Key 64) : Bool :=
  P.cryptoCoreEd25519IsValidPoint A &&
    kmatch (P.cryptoCoreEd25519ScalarSub (sigS rcs)
      (P.cryptoCoreEd25519ScalarMul (P.cryptoCoreEd25519ScalarReduce digest) A)) (sigR rcs)

/-- The signer hashes the two inputs, and nothing else. -/
theorem sign32_eq_of_hashes (K : Xckey) (M : Key n) (Z : Key 64) :
    sign32 P K M Z = signDigests P K (P.cryptoHashSha512 (nonceInput P K M Z)) fun R =>
      P.cryptoHashSha512 (challengeInput R (calculateKeyPair P K).Public M) := by
  dsimp only [sign32]
  rw [hash255I_one]
  rfl

/-- The verifier hashes the challenge input, and nothing else. -/
theorem verify32_eq_of_hash {mkPub A : Xckey} {M : Key n} {rcs : Key 64}
    (h : sigInBounds P mkPub (sigR rcs) (sigS rcs) = true) (hA : convertMont P mkPub = .ok A) :
    verify32 P mkPub M rcs
      = .ok (verifyDigest P A rcs (P.cryptoHashSha512 (challengeInput (sigR rcs) A M))) :=
  verify32_of_point h hA

/-- The `y` of a canonical encoding is a field element; the sign bit is free. -/
def CanonicalEncoding (R : Xckey) : Prop := R.toNat % 2 ^ 255 < fieldPrime

theorem noncePrefix_toNat : noncePrefix.toNat = 2 ^ 256 - 2 := by decide

/-- The prefix is not the canonical encoding of a point: its `y` is `2^255 - 2`. -/
theorem not_canonical_noncePrefix : ¬ CanonicalEncoding noncePrefix := by
  rw [CanonicalEncoding, noncePrefix_toNat]
  decide

/-- Nor is it an `R` in bounds. -/
theorem sigInBounds_noncePrefix (mkPub s : Xckey) :
    sigInBounds P mkPub noncePrefix s = false := by
  have hbit : (noncePrefix.byteAt 31 &&& 0x80 != 0) = true := by decide
  simp [sigInBounds, hbit]

/-- Equal inputs start with equal 32 bytes. -/
theorem noncePrefix_eq_of_inputs {K R A : Xckey} {M : Key n} {M' : Key m} {Z : Key 64}
    (h : nonceInput P K M Z = challengeInput R A M') : R = noncePrefix := by
  have hch : challengeInput R A M' = R.bytes ++ (A.bytes ++ M'.bytes) := by
    simp [challengeInput]
  rw [nonceInput, hch] at h
  have hprefix := (List.append_inj h (by rw [noncePrefix.size_eq, R.size_eq])).1
  exact (Key.ext hprefix).symm

/-- **Separation.** The signer hashes a nonce input and a challenge input, a verifier that gets
past the bounds hashes a challenge input, and no nonce input is one of these challenge inputs,
the signer's nonce point being canonically encoded. -/
theorem nonceInput_ne_challengeInput (K : Xckey) (M : Key n) (Z : Key 64) :
    (sign32 P K M Z = signDigests P K (P.cryptoHashSha512 (nonceInput P K M Z)) fun R =>
      P.cryptoHashSha512 (challengeInput R (calculateKeyPair P K).Public M)) ∧
    (∀ {m : Nat} (K' : Xckey) (M' : Key m) (Z' : Key 64),
      CanonicalEncoding (bpscale P (nonce P K' M' Z')) →
      nonceInput P K M Z
        ≠ challengeInput (bpscale P (nonce P K' M' Z')) (calculateKeyPair P K').Public M') ∧
    ∀ {m : Nat} (mkPub A : Xckey) (M' : Key m) (rcs : Key 64),
      sigInBounds P mkPub (sigR rcs) (sigS rcs) = true → convertMont P mkPub = .ok A →
      verify32 P mkPub M' rcs
          = .ok (verifyDigest P A rcs (P.cryptoHashSha512 (challengeInput (sigR rcs) A M'))) ∧
        nonceInput P K M Z ≠ challengeInput (sigR rcs) A M' := by
  refine ⟨sign32_eq_of_hashes K M Z, ?_, ?_⟩
  · intro m K' M' Z' hcan heq
    rw [noncePrefix_eq_of_inputs heq] at hcan
    exact not_canonical_noncePrefix hcan
  · intro m mkPub A M' rcs hb hA
    refine ⟨verify32_eq_of_hash hb hA, ?_⟩
    intro heq
    rw [noncePrefix_eq_of_inputs heq, sigInBounds_noncePrefix] at hb
    cases hb

theorem nonceInput_ne_challengeInput_honestPair :
    nonceInput Reference.primitives honestPair.Private honestMessage Key.zero
        ≠ challengeInput (bpscale Reference.primitives
            (nonce Reference.primitives honestPair.Private honestMessage signOneRandom))
          (calculateKeyPair Reference.primitives honestPair.Private).Public honestMessage ∧
      ∃ A, convertMont Reference.primitives honestPair.Public = .ok A ∧
        verify32 Reference.primitives honestPair.Public honestMessage honestSignature
          = .ok (verifyDigest Reference.primitives A honestSignature
              (Reference.primitives.cryptoHashSha512
                (challengeInput (sigR honestSignature) A honestMessage))) ∧
        nonceInput Reference.primitives honestPair.Private honestMessage Key.zero
          ≠ challengeInput (sigR honestSignature) A honestMessage := by
  obtain ⟨-, hsign, hverify⟩ :=
    nonceInput_ne_challengeInput (P := Reference.primitives) honestPair.Private honestMessage
      Key.zero
  have hcan : CanonicalEncoding (bpscale Reference.primitives
      (nonce Reference.primitives honestPair.Private honestMessage signOneRandom)) := by
    unfold CanonicalEncoding
    decide +kernel
  have hne : (honestPair.Public.toNat % 2 ^ 255 + 1) % groupOrder ≠ 0 := by decide +kernel
  obtain ⟨A, -, hA, -, -⟩ := convertMont_of_ne_zero Reference.scalarLaws hne
  exact ⟨hsign _ _ _ hcan, A, hA, hverify honestPair.Public A honestMessage honestSignature
    (by decide +kernel) hA⟩

end Gcrypt.XedDSA
