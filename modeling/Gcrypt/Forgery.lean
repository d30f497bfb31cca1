import Gcrypt.Authentication

/-!
# Gcrypt.Forgery

Who can make a signature that `verify32` accepts: nobody, or everybody.

The verifier computes with the integers that the keys and the halves of the signature are,
not with the points they encode. So `s = R + h A` has a solution that needs no secret, and
`forge` computes it from the public key. It is accepted under every key under which
anything is (`forge_accepted_iff`), and with it the signatures of a bundle exclude nothing
(`forged_session_iff`). An accepted signature is not the only one with its first half
(`malleable_iff`).
-/

namespace Gcrypt.XedDSA

variable {P : Primitives} {n : Nat}

/-! ### Signatures -/

/-- A signature for `M`, from the public key alone. -/
def forge (P : Primitives) (mkPub : Xckey) (M : Key n) : Key 64 :=
  match convertMont P mkPub with
  | .ok A => forged P A Key.zero M
  | .error _ => Key.zero

/-- What acceptance asks of the key. -/
structure Forgeable (P : Primitives) (mkPub A : Xckey) : Prop where
  canonical : mkPub.toNat < fieldPrime
  quotient : MontgomeryY groupOrder mkPub.toNat A.toNat
  valid : P.cryptoCoreEd25519IsValidPoint A = true

theorem forgeable_of_accepted (laws : ScalarLaws P) {mkPub : Xckey} {M : Key n} {rcs : Key 64}
    (h : verify32 P mkPub M rcs = .ok true) : ∃ A, Forgeable P mkPub A := by
  obtain ⟨hu, -, A, hrel⟩ := (verify32_eq_true_iff laws).mp h
  exact ⟨A, hu, hrel.quotient, hrel.valid⟩

theorem Forgeable.forge_accepted (laws : ScalarLaws P) {mkPub A : Xckey}
    (h : Forgeable P mkPub A) (M : Key n) : verify32 P mkPub M (forge P mkPub M) = .ok true := by
  have hA : convertMont P mkPub = .ok A := by
    rw [convertMont_eq_ok_iff laws, mod_of_lt_fieldPrime h.canonical]
    exact h.quotient
  rw [forge, hA]
  exact forged_accepted laws M h.canonical h.quotient h.valid (by simp [groupOrder])

/-- **Nobody or everybody.** A key under which one signature of one message is accepted is one
under which every message has a forged signature that is. -/
theorem forge_accepted_iff (laws : ScalarLaws P) (mkPub : Xckey) :
    (∃ (m : Nat) (M : Key m) (rcs : Key 64), verify32 P mkPub M rcs = .ok true) ↔
      ∀ (m : Nat) (M : Key m), verify32 P mkPub M (forge P mkPub M) = .ok true := by
  constructor
  · rintro ⟨m, M, rcs, h⟩ m' M'
    obtain ⟨A, hA⟩ := forgeable_of_accepted laws h
    exact hA.forge_accepted laws M'
  · intro h
    exact ⟨0, Key.zero, _, h 0 Key.zero⟩

/-- Under Bob's key. -/
theorem forge_accepted_iff_bobPair :
    (∃ (m : Nat) (M : Key m) (rcs : Key 64),
        verify32 Reference.primitives Handshake.bobPair.Public M rcs = .ok true) ↔
      ∀ (m : Nat) (M : Key m), verify32 Reference.primitives Handshake.bobPair.Public M
        (forge Reference.primitives Handshake.bobPair.Public M) = .ok true :=
  forge_accepted_iff Reference.scalarLaws Handshake.bobPair.Public

/-! ### Malleability -/

/-- A signature is its halves. -/
theorem sig_ext {rcs rcs' : Key 64} (hR : sigR rcs' = sigR rcs) (hs : sigS rcs' = sigS rcs) :
    rcs' = rcs := by
  have hhalves (k : Key 64) : k.bytes = (sigR k).bytes ++ (sigS k).bytes := by
    rw [sigR, sigS, kcpyFrom_bytes k (by decide), kcpyFrom_bytes k (by decide)]
    simp [Bytes.slice, List.take_of_length_le]
  apply Key.ext
  rw [hhalves rcs, hhalves rcs', hR, hs]

/-- With the first half of an accepted signature, exactly the second halves in bounds that are
the same scalar are accepted. -/
theorem same_scalar_iff (laws : ScalarLaws P) {mkPub : Xckey} {M : Key n} {rcs rcs' : Key 64}
    (h : verify32 P mkPub M rcs = .ok true) (hR : sigR rcs' = sigR rcs) :
    verify32 P mkPub M rcs' = .ok true ↔
      (sigS rcs').toNat < 2 ^ 253 ∧ (sigS rcs').toNat ≡ (sigS rcs).toNat [MOD groupOrder] := by
  obtain ⟨hu, hs, A, hrel⟩ := (verify32_eq_true_iff laws).mp h
  have hA : convertMont P mkPub = .ok A := by
    rw [convertMont_eq_ok_iff laws, mod_of_lt_fieldPrime hu]
    exact hrel.quotient
  constructor
  · intro h'
    obtain ⟨-, hs', A', hrel'⟩ := (verify32_eq_true_iff laws).mp h'
    -- Both are checked against the quotient of the key.
    have hA' : convertMont P mkPub = .ok A' := by
      rw [convertMont_eq_ok_iff laws, mod_of_lt_fieldPrime hu]
      exact hrel'.quotient
    obtain rfl : A = A' := Except.ok.inj (hA.symm.trans hA')
    have hequation := hrel'.equation
    rw [hR] at hequation
    exact ⟨hs', hequation.trans hrel.equation.symm⟩
  · rintro ⟨hs', hscalar⟩
    refine (verify32_eq_true_iff laws).mpr ⟨hu, hs', A, hrel.quotient, hrel.valid, ?_, ?_⟩
    · rw [hR]
      exact hrel.reduced
    · rw [hR]
      exact hscalar.trans hrel.equation

/-- Of two integers that are the same scalar one is at least the group order. -/
theorem mod_add_groupOrder_le {a b : Nat} (h : a ≡ b [MOD groupOrder]) (hne : a ≠ b) :
    b % groupOrder + groupOrder ≤ a ∨ b % groupOrder + groupOrder ≤ b := by
  have hlarge {c : Nat} (hc : groupOrder ≤ c) : c % groupOrder + groupOrder ≤ c := by
    rw [Nat.mod_eq_sub_mod hc]
    have := Nat.mod_le (c - groupOrder) groupOrder
    omega
  unfold Nat.ModEq at h
  rcases Nat.lt_or_ge a groupOrder with ha | ha
  · rcases Nat.lt_or_ge b groupOrder with hb | hb
    · rw [Nat.mod_eq_of_lt ha, Nat.mod_eq_of_lt hb] at h
      exact absurd h hne
    · exact Or.inr (hlarge hb)
  · rw [← h]
    exact Or.inl (hlarge ha)

/-- **Malleability.** An accepted signature has a second encoding that is accepted too if and
only if its scalar leaves room for the group order under the bound of `sig_in_bounds`. -/
theorem malleable_iff (laws : ScalarLaws P) {mkPub : Xckey} {M : Key n} {rcs : Key 64}
    (h : verify32 P mkPub M rcs = .ok true) :
    (∃ rcs', rcs' ≠ rcs ∧ sigR rcs' = sigR rcs ∧ verify32 P mkPub M rcs' = .ok true) ↔
      (sigS rcs).toNat % groupOrder + groupOrder < 2 ^ 253 := by
  have hbound : groupOrder < 2 ^ 253 := by decide
  obtain ⟨-, hs, -⟩ := (verify32_eq_true_iff laws).mp h
  constructor
  · rintro ⟨rcs', hne, hR, h'⟩
    obtain ⟨hs', hscalar⟩ := (same_scalar_iff laws h hR).mp h'
    have hdistinct : (sigS rcs').toNat ≠ (sigS rcs).toNat := fun heq =>
      hne (sig_ext hR (Key.toNat_inj.mp heq))
    rcases mod_add_groupOrder_le hscalar hdistinct with hle | hle
    · exact hle.trans_lt hs'
    · exact hle.trans_lt hs
  · intro hroom
    -- The other of the two scalars below `2 ^ 253`.
    obtain ⟨v, hv, hne, hmod⟩ : ∃ v < 2 ^ 253, v ≠ (sigS rcs).toNat ∧
        v ≡ (sigS rcs).toNat [MOD groupOrder] := by
      by_cases hsmall : (sigS rcs).toNat < groupOrder
      · refine ⟨(sigS rcs).toNat + groupOrder, ?_, ?_, Nat.add_modEq_right⟩
        · rwa [Nat.mod_eq_of_lt hsmall] at hroom
        · simp [groupOrder]
      · refine ⟨(sigS rcs).toNat % groupOrder, by omega, ?_, Nat.mod_modEq _ _⟩
        have hlt := Nat.mod_lt (sigS rcs).toNat (by decide : 0 < groupOrder)
        omega
    have hhalves := kcpyFrom_kconcatEqual (sigR rcs) (Key.ofNat 32 v)
    have hnat : (sigS (kconcatEqual (sigR rcs) (Key.ofNat 32 v))).toNat = v := by
      rw [sigS, hhalves.2, Key.toNat_ofNat_of_lt (hv.trans (by decide))]
    refine ⟨kconcatEqual (sigR rcs) (Key.ofNat 32 v), ?_, hhalves.1, ?_⟩
    · intro heq
      rw [heq] at hnat
      exact hne hnat.symm
    · refine (same_scalar_iff laws h hhalves.1).mpr ?_
      rw [hnat]
      exact ⟨hv, hmod⟩

/-- At a forged signature of Bob's. -/
theorem malleable_iff_forgedByBob :
    (∃ rcs', rcs' ≠ Handshake.forgedByBob (Key.zero : Key 32) ∧
        sigR rcs' = sigR (Handshake.forgedByBob (Key.zero : Key 32)) ∧
        verify32 Reference.primitives Handshake.bobPair.Public (Key.zero : Key 32) rcs'
          = .ok true) ↔
      (sigS (Handshake.forgedByBob (Key.zero : Key 32))).toNat % groupOrder + groupOrder
        < 2 ^ 253 :=
  malleable_iff Reference.scalarLaws (Handshake.forgedByBob_accepted Key.zero)

end Gcrypt.XedDSA

namespace Gcrypt.Handshake

open Effect Agreement XedDSA

variable {P : Primitives} {id : Xckey} {spk : Xcikey} {quantum : Qpubikey}
  {oneTime : Option Xcikey}

/-! ### Sessions -/

/-- A bundle under the identity key of somebody else, on prekeys of one's own. -/
def forgedBundle (P : Primitives) (id : Xckey) (spk : Xcikey) (quantum : Qpubikey)
    (oneTime : Option Xcikey) : ForeignPrekeyBundle where
  identityKey := id
  signedPreKey := { toIdkey := spk, signature := forge P id spk.key }
  qpubsidkey := .inl { toIdkey := quantum, signature := forge P id quantum.key }
  oneTimePreKey := oneTime

theorem forgedBundle_authenticated (laws : ScalarLaws P) {A : Xckey} (h : Forgeable P id A) :
    Authenticated P id (forgedBundle P id spk quantum oneTime) where
  identity := rfl
  signedPreKey := h.forge_accepted laws spk.key
  quantumPreKey k hk := by
    cases hk
    exact h.forge_accepted laws quantum.key

/-- **Impersonation.** If anybody ever got a session with the owner of an identity key, then
everybody gets one from every bundle that somebody else makes under that key: the steps after
the signature checks are all that can fail. -/
theorem forged_session_iff (laws : ScalarLaws P) {alice : Xckeypair} {keys : ForeignPrekeyBundle}
    {w w' : World} {res : SessionInitResult}
    (h : createOutboundSession P alice id keys w = .ok (some res) w') (spk : Xcikey)
    (quantum : Qpubikey) (oneTime : Option Xcikey) (alice' : Xckeypair) (v : World) :
    (∃ res' v', createOutboundSession P alice' id (forgedBundle P id spk quantum oneTime) v
        = .ok (some res') v') ↔
      ∃ ct ss ds SK, P.mlkimplEnc quantum.key (encapsulationCoins v) = .ok (ct, ss) ∧
        secrets (dh P) (outboundQueries alice' (ephemeral P v)
          (forgedBundle P id spk quantum oneTime)) = some ds ∧
        derive P ds (outboundOptional (ephemeral P v)
          (forgedBundle P id spk quantum oneTime)) ss = some SK := by
  constructor
  · rintro ⟨res', v', h'⟩
    obtain ⟨ct, ss, ds, SK, -, henc, hds, hSK, -⟩ := outbound_eq_some h'
    exact ⟨ct, ss, ds, SK, henc, hds, hSK⟩
  · rintro ⟨ct, ss, ds, SK, henc, hds, hSK⟩
    -- The signed prekey of the one session shows that the key is forgeable.
    obtain ⟨hauth, -⟩ := authenticated_of_session h
    obtain ⟨A, hA⟩ := forgeable_of_accepted laws hauth.signedPreKey
    obtain ⟨v', hv'⟩ := outbound_of_steps
      (verifyForeignBundle_eq_true_iff.mpr (forgedBundle_authenticated laws hA)) henc hds
    rw [hSK, Option.map_some] at hv'
    exact ⟨_, v', hv'⟩

/-- Alice has a session with Bob, and may get one with whom she takes for Bob. -/
theorem forged_session_iff_bobPair :
    (∃ res' v', createOutboundSession Reference.primitives bobPair bobPair.Public
        (forgedBundle Reference.primitives bobPair.Public ⟨alicePair.Public, 7⟩
          (lastResort Reference.zeroSeedPair.Public) none) zeroWorld = .ok (some res') v') ↔
      ∃ ct ss ds SK, Reference.primitives.mlkimplEnc Reference.zeroSeedPair.Public
          (encapsulationCoins zeroWorld) = .ok (ct, ss) ∧
        secrets (dh Reference.primitives) (outboundQueries bobPair
          (ephemeral Reference.primitives zeroWorld)
          (forgedBundle Reference.primitives bobPair.Public ⟨alicePair.Public, 7⟩
            (lastResort Reference.zeroSeedPair.Public) none)) = some ds ∧
        derive Reference.primitives ds (outboundOptional
          (ephemeral Reference.primitives zeroWorld)
          (forgedBundle Reference.primitives bobPair.Public ⟨alicePair.Public, 7⟩
            (lastResort Reference.zeroSeedPair.Public) none)) ss = some SK := by
  obtain ⟨ct, ss, henc, -⟩ := Reference.zeroSeedPair_roundtrip
  obtain ⟨SK, w', hout⟩ := session_with_bob (.inl signedQuantum) (by simp) henc
  exact forged_session_iff Reference.scalarLaws hout _ _ _ _ _

end Gcrypt.Handshake
