import Gcrypt.Handshake
import Gcrypt.Signatures

/-!
# Gcrypt.Authentication

What the initiator has checked when it returns a session, and which inputs of a
peer make the handshake functions throw.

`Authenticated` is the meaning of `verify_foreign_bundle`: the signed prekey is
always checked, the KEM key only where the bundle offers it with a signature.
-/

namespace Gcrypt.Handshake

open Effect Agreement XedDSA

/-- The bundle belongs to `id`, and every key in it that comes with a signature has
one that `verify32` accepts under `id`. -/
structure Authenticated (P : Primitives) (id : Xckey) (keys : ForeignPrekeyBundle) : Prop where
  identity : keys.identityKey = id
  signedPreKey : verify32 P id keys.signedPreKey.key keys.signedPreKey.signature = .ok true
  quantumPreKey : ∀ k, keys.qpubsidkey = .inl k → verify32 P id k.key k.signature = .ok true

variable {P : Primitives}

/-! ### The verdict -/

section Verdict

variable {id : Xckey} {keys : ForeignPrekeyBundle}

theorem verifyForeignBundle_of_foreign (h : keys.identityKey ≠ id) :
    verifyForeignBundle P id keys = .ok false := by
  have hmatch : kmatch id keys.identityKey = false := by
    rw [Bool.eq_false_iff, Ne, kmatch_eq_true]
    exact fun heq => h heq.symm
  simp only [verifyForeignBundle, hmatch]
  rfl

/-- Under the right identity the first verdict decides, unless it is positive. -/
theorem verifyForeignBundle_of_signedPreKey {b : Bool} (h : keys.identityKey = id)
    (hs : verify32 P id keys.signedPreKey.key keys.signedPreKey.signature = .ok b) :
    verifyForeignBundle P id keys
      = if b then
          match keys.qpubsidkey with
          | .inl k => verify32 P id k.key k.signature
          | .inr _ => .ok true
        else .ok false := by
  have hmatch : kmatch id keys.identityKey = true := kmatch_eq_true.mpr h.symm
  simp only [verifyForeignBundle, hmatch, hs]
  cases b <;> rfl

theorem verifyForeignBundle_of_error {e : Fault} (h : keys.identityKey = id)
    (hs : verify32 P id keys.signedPreKey.key keys.signedPreKey.signature = .error e) :
    verifyForeignBundle P id keys = .error e := by
  have hmatch : kmatch id keys.identityKey = true := kmatch_eq_true.mpr h.symm
  simp only [verifyForeignBundle, hmatch, hs]
  rfl

/-- **Specification** of `verify_foreign_bundle`. -/
theorem verifyForeignBundle_eq_true_iff :
    verifyForeignBundle P id keys = .ok true ↔ Authenticated P id keys := by
  by_cases hid : keys.identityKey = id
  · cases hs : verify32 P id keys.signedPreKey.key keys.signedPreKey.signature with
    | error e =>
      rw [verifyForeignBundle_of_error hid hs]
      constructor
      · intro herror
        cases herror
      · intro h
        rw [h.signedPreKey] at hs
        cases hs
    | ok b =>
      rw [verifyForeignBundle_of_signedPreKey hid hs]
      cases b with
      | false =>
        constructor
        · intro hfalse
          simp at hfalse
        · intro h
          rw [h.signedPreKey] at hs
          cases hs
      | true =>
        rw [if_pos rfl]
        constructor
        · intro hq
          refine ⟨hid, hs, ?_⟩
          intro k hk
          rwa [hk] at hq
        · intro h
          cases hq : keys.qpubsidkey with
          | inl k => exact h.quantumPreKey k hq
          | inr k => rfl
  · rw [verifyForeignBundle_of_foreign hid]
    constructor
    · intro hfalse
      simp at hfalse
    · intro h
      exact absurd h.identity hid

end Verdict

/-! ### Authenticated sessions -/

section Authenticated

variable {alice : Xckeypair} {id : Xckey} {keys : ForeignPrekeyBundle} {w w' : World}
  {res : SessionInitResult}

theorem authenticated_of_session
    (h : createOutboundSession P alice id keys w = .ok (some res) w') :
    Authenticated P id keys ∧ res.session.remoteIdentityKey = id ∧
      ∃ ss, P.mlkimplEnc keys.quantumKey (encapsulationCoins w)
        = .ok (res.handshakeMessage.cipherText, ss) := by
  obtain ⟨ct, ss, ds, SK, hv, henc, -, -, rfl⟩ := outbound_eq_some h
  have hauth := verifyForeignBundle_eq_true_iff.mp hv
  exact ⟨hauth, hauth.identity, ss, henc⟩

/-- A signature check under a key that has accepted one signature returns. -/
theorem verify32_returns {n m : Nat} {M : Key n} {rcs : Key 64}
    (h : verify32 P id M rcs = .ok true) (M' : Key m) (rcs' : Key 64) :
    ∃ b, verify32 P id M' rcs' = .ok b := by
  cases hb' : sigInBounds P id (sigR rcs') (sigS rcs') with
  | false => exact ⟨false, verify32_of_out_of_bounds hb'⟩
  | true =>
    cases hb : sigInBounds P id (sigR rcs) (sigS rcs) with
    | false =>
      rw [verify32_of_out_of_bounds hb] at h
      cases h
    | true =>
      cases hA : convertMont P id with
      | error e =>
        rw [verify32_of_error hb hA] at h
        cases h
      | ok A => exact ⟨_, verify32_of_point hb' hA⟩

/-- The box pair of a private key. Clamping clears the three low bits, so keys that shall
differ are different multiples of 8. -/
def boxPair (n : Nat) : Xckeypair :=
  ⟨Reference.primitives.cryptoScalarmultCurve25519Base (Key.ofNat 32 n), Key.ofNat 32 n⟩

def alicePair : Xckeypair := boxPair 8
def bobPair : Xckeypair := boxPair (2 ^ 254 + 8 * 22)
def signedPair : Xckeypair := boxPair 16
def oneTimePair : Xckeypair := boxPair 24

/-- The quotient the verifier computes from Bob's identity key. -/
def bobPoint : Xckey := (convertMont Reference.primitives bobPair.Public).toOption.getD Key.zero

/-- A signature of Bob's that nobody needed his private key for. -/
def forgedByBob {n : Nat} (M : Key n) : Key 64 := forged Reference.primitives bobPoint Key.zero M

theorem forgedByBob_accepted {n : Nat} (M : Key n) :
    verify32 Reference.primitives bobPair.Public M (forgedByBob M) = .ok true :=
  forged_accepted Reference.scalarLaws M (by decide +kernel) (by decide +kernel)
    (by decide +kernel) (by decide)

/-- Bob's bundle, with a KEM key of either kind. -/
def bobBundle (quantum : Qsidkey ⊕ Qpubikey) : ForeignPrekeyBundle where
  identityKey := bobPair.Public
  signedPreKey := {
    key := signedPair.Public
    identifier := 1
    signature := forgedByBob signedPair.Public }
  qpubsidkey := quantum
  oneTimePreKey := some { key := oneTimePair.Public, identifier := 2 }

def signedQuantum : Qsidkey where
  key := Reference.zeroSeedPair.Public
  identifier := 3
  signature := forgedByBob Reference.zeroSeedPair.Public

theorem bobBundle_authenticated {quantum : Qsidkey ⊕ Qpubikey}
    (h : ∀ k, quantum = .inl k → k = signedQuantum) :
    Authenticated Reference.primitives bobPair.Public (bobBundle quantum) where
  identity := rfl
  signedPreKey := forgedByBob_accepted signedPair.Public
  quantumPreKey k hk := by
    rw [h k hk]
    exact forgedByBob_accepted Reference.zeroSeedPair.Public

/-- A world without a store in which every random byte is zero. -/
def zeroWorld : World := ⟨none, fun _ => 0, []⟩

theorem zeroWorld_coins : encapsulationCoins zeroWorld = Key.zero := by decide

/-- Every Diffie-Hellman value of the handshake exists. -/
theorem bobBundle_secrets (quantum : Qsidkey ⊕ Qpubikey) :
    (secrets (dh Reference.primitives)
        (outboundQueries alicePair (ephemeral Reference.primitives zeroWorld)
          (bobBundle quantum))).isSome ∧
      (secrets (dh Reference.primitives)
        (outboundOptional (ephemeral Reference.primitives zeroWorld)
          (bobBundle quantum))).isSome := by
  refine ⟨?_, ?_⟩
  · show (secrets (dh Reference.primitives) [(alicePair.Private, signedPair.Public),
      ((ephemeral Reference.primitives zeroWorld).Private, bobPair.Public),
      ((ephemeral Reference.primitives zeroWorld).Private, signedPair.Public)]).isSome = true
    decide +kernel
  · show (secrets (dh Reference.primitives)
      [((ephemeral Reference.primitives zeroWorld).Private, oneTimePair.Public)]).isSome = true
    decide +kernel

/-- An HKDF that never fails on 32 bytes always delivers a root key. -/
theorem rootKey_of_total {P : Primitives} (ks : List (Key 32))
    (hextract : ∀ salt ikm, (P.cryptoKdfHkdfSha256Extract salt ikm).isSome)
    (hexpand : ∀ info prk, (P.cryptoKdfHkdfSha256Expand 32 info prk).isSome) :
    ∃ SK, rootKey P ks = some SK := by
  unfold rootKey HKDF.kdf
  obtain ⟨prk, hprk⟩ := Option.isSome_iff_exists.mp (hextract
    (Keygen.filled 32 0x00).bytes
    (kconcatTwo (Keygen.filled 32 0xFF) (kconcat (ks.map fun k => (⟨32, k⟩ : AnyKey)))).bytes)
  obtain ⟨okm, hokm⟩ := Option.isSome_iff_exists.mp (hexpand "PQX3DH".toUTF8.toList prk.bytes)
  refine ⟨okm, ?_⟩
  simp only [HKDF.extract, hprk, HKDF.expand, bind, Except.bind, hokm, Except.toOption]

theorem rootKey_reference (ks : List (Key 32)) :
    ∃ SK, rootKey Reference.primitives ks = some SK :=
  rootKey_of_total ks (fun _ _ => rfl) (fun _ _ => rfl)

/-- Alice gets a session with Bob, whatever KEM key the bundle names, if it is one. -/
theorem session_with_bob (quantum : Qsidkey ⊕ Qpubikey)
    (h : ∀ k, quantum = .inl k → k = signedQuantum)
    {ct : Key mlkemCtb} {ss : Key mlkemBytes}
    (henc : Reference.primitives.mlkimplEnc (bobBundle quantum).quantumKey Key.zero
      = .ok (ct, ss)) :
    ∃ SK w', createOutboundSession Reference.primitives alicePair bobPair.Public
        (bobBundle quantum) zeroWorld
      = .ok (some (finalizeOutboundSession alicePair.Public
          (ephemeral Reference.primitives zeroWorld).Public ct SK (bobBundle quantum))) w' := by
  obtain ⟨hmand, hopt⟩ := bobBundle_secrets quantum
  obtain ⟨ds, hds⟩ := Option.isSome_iff_exists.mp hmand
  obtain ⟨es, hes⟩ := Option.isSome_iff_exists.mp hopt
  obtain ⟨SK, hSK⟩ := rootKey_reference (ds ++ es ++ [ss])
  obtain ⟨w', hw'⟩ := outbound_of_steps
    (verifyForeignBundle_eq_true_iff.mpr (bobBundle_authenticated h))
    (by rw [zeroWorld_coins]; exact henc) hds
  refine ⟨SK, w', ?_⟩
  rw [hw', derive, hes, Option.bind_some, hSK, Option.map_some]

/-- A key of last resort. -/
def lastResort (k : Qpubkey) : Qpubikey := { key := k, identifier := 3 }

end Authenticated

/-! ### Throwing -/

section Throwing

variable {alice bob : Xckeypair} {id spk : Xckey} {opk : Option Xckey} {qsk : Qprivkey}
  {keys : ForeignPrekeyBundle} {hs : InitialMessageHandshake} {w v : World}

/-- The verification throws exactly where the signed prekey's signature is in bounds
and the key is `-1` modulo the group order. -/
theorem verifyForeignBundle_returns_iff (laws : ScalarLaws P) :
    (∃ b, verifyForeignBundle P id keys = .ok b) ↔
      ¬ (keys.identityKey = id ∧
        sigInBounds P id (sigR keys.signedPreKey.signature) (sigS keys.signedPreKey.signature)
          = true ∧ (id.toNat + 1) % groupOrder = 0) := by
  rw [← verify32_eq_error_iff laws (M := keys.signedPreKey.key)]
  by_cases hid : keys.identityKey = id
  · cases hs : verify32 P id keys.signedPreKey.key keys.signedPreKey.signature with
    | error e => simp [verifyForeignBundle_of_error hid hs, hid]
    | ok b =>
      rw [verifyForeignBundle_of_signedPreKey hid hs]
      refine ⟨nofun, fun _ => ?_⟩
      cases b with
      | false => exact ⟨false, rfl⟩
      | true =>
        rw [if_pos rfl]
        cases keys.qpubsidkey with
        | inl k => exact verify32_returns hs k.key k.signature
        | inr k => exact ⟨true, rfl⟩
  · simp [verifyForeignBundle_of_foreign hid, hid]

theorem inbound_returns_iff :
    Returns (createInboundSessionExplicit P bob spk opk qsk hs) v ↔
      (∃ ss, P.mlkimplDec hs.cipherText qsk = .ok ss) ∧
        ∃ ds, secrets (dh P) (inboundQueries bob spk hs) = some ds := by
  constructor
  · intro h
    rw [returns_iff_not_throws] at h
    cases hdec : P.mlkimplDec hs.cipherText qsk with
    | error ret => exact absurd (inbound_of_dec_error hdec) h
    | ok ss =>
      refine ⟨⟨ss, rfl⟩, ?_⟩
      cases hd : secrets (dh P) (inboundQueries bob spk hs) with
      | none => exact absurd (inbound_of_ssecret_none hdec hd) h
      | some ds => exact ⟨ds, rfl⟩
  · rintro ⟨⟨ss, hdec⟩, ds, hd⟩
    obtain ⟨v', hv'⟩ := inbound_of_steps (w := v) opk hdec hd
    exact ⟨_, v', hv'⟩

/-- **No throw, exactly.** The three functions return on a peer's input if and only if
the key is not `-1` modulo the group order under a signature in bounds, and no step
outside a `try` block fails: the encapsulation and the first three Diffie-Hellman
values of the initiator (once the bundle is authenticated), the decapsulation and
the first three of the responder. -/
theorem returns_iff (laws : ScalarLaws P) :
    ((∃ b, verifyForeignBundle P id keys = .ok b) ∧
        Returns (createOutboundSession P alice id keys) w ∧
        Returns (createInboundSessionExplicit P bob spk opk qsk hs) v) ↔
      ¬ (keys.identityKey = id ∧
        sigInBounds P id (sigR keys.signedPreKey.signature) (sigS keys.signedPreKey.signature)
          = true ∧ (id.toNat + 1) % groupOrder = 0) ∧
      (Authenticated P id keys →
        (∃ kem, P.mlkimplEnc keys.quantumKey (encapsulationCoins w) = .ok kem) ∧
        ∃ ds, secrets (dh P) (outboundQueries alice (ephemeral P w) keys) = some ds) ∧
      (∃ ss, P.mlkimplDec hs.cipherText qsk = .ok ss) ∧
        ∃ ds, secrets (dh P) (inboundQueries bob spk hs) = some ds := by
  rw [outbound_returns_iff, inbound_returns_iff, verifyForeignBundle_eq_true_iff,
    verifyForeignBundle_returns_iff laws]
  constructor
  · rintro ⟨hv, ⟨-, hout⟩, hin⟩
    exact ⟨hv, hout, hin⟩
  · rintro ⟨hv, hout, hin⟩
    exact ⟨hv, ⟨hv, hout⟩, hin⟩

/-- A bundle under the identity key `-1` modulo the group order, with a zero signature. -/
def minusOneBundle : ForeignPrekeyBundle where
  identityKey := Key.ofNat 32 (groupOrder - 1)
  signedPreKey := { key := Key.zero, identifier := 0, signature := Key.zero }
  qpubsidkey := .inr { key := Key.zero, identifier := 0 }
  oneTimePreKey := none

/-- A handshake with the low-order identity key zero. -/
def lowOrderHandshake (ct : Key mlkemCtb) : InitialMessageHandshake where
  identityKey := Key.zero
  ephermoralKey := alicePair.Public
  cipherText := ct
  usedPreKeys := [1]
  usedQuantumPreKeys := [3]

theorem returns_iff_minusOneBundle :
    ((∃ b, verifyForeignBundle Reference.primitives minusOneBundle.identityKey minusOneBundle
          = .ok b) ∧
        Returns (createOutboundSession Reference.primitives alicePair
          minusOneBundle.identityKey minusOneBundle) zeroWorld ∧
        Returns (createInboundSessionExplicit Reference.primitives bobPair signedPair.Private
          none Reference.zeroSeedPair.Private (lowOrderHandshake Key.zero)) zeroWorld) ↔
      ¬ (minusOneBundle.identityKey = minusOneBundle.identityKey ∧
        sigInBounds Reference.primitives minusOneBundle.identityKey
          (sigR minusOneBundle.signedPreKey.signature)
          (sigS minusOneBundle.signedPreKey.signature) = true ∧
        (minusOneBundle.identityKey.toNat + 1) % groupOrder = 0) ∧
      (Authenticated Reference.primitives minusOneBundle.identityKey minusOneBundle →
        (∃ kem, Reference.primitives.mlkimplEnc minusOneBundle.quantumKey
          (encapsulationCoins zeroWorld) = .ok kem) ∧
        ∃ ds, secrets (dh Reference.primitives) (outboundQueries alicePair
          (ephemeral Reference.primitives zeroWorld) minusOneBundle) = some ds) ∧
      (∃ ss, Reference.primitives.mlkimplDec (lowOrderHandshake Key.zero).cipherText
        Reference.zeroSeedPair.Private = .ok ss) ∧
        ∃ ds, secrets (dh Reference.primitives)
          (inboundQueries bobPair signedPair.Private (lowOrderHandshake Key.zero)) = some ds :=
  returns_iff Reference.scalarLaws

/-- All three functions throw: the first two on the key, the third on a low-order point. -/
theorem throws_on_remote_input :
    (∃ e, verifyForeignBundle Reference.primitives minusOneBundle.identityKey minusOneBundle
        = .error e) ∧
      Throws (createOutboundSession Reference.primitives alicePair
        minusOneBundle.identityKey minusOneBundle) zeroWorld ∧
      ∃ ct, Throws (createInboundSessionExplicit Reference.primitives bobPair
        signedPair.Private none Reference.zeroSeedPair.Private (lowOrderHandshake ct))
        zeroWorld := by
  have hv : verifyForeignBundle Reference.primitives minusOneBundle.identityKey minusOneBundle
      = .error (.invalidArgument "Invalid scalar of ed25519 denominator (=0)") := by
    decide +kernel
  obtain ⟨ct, ss, -, hdec⟩ := Reference.zeroSeedPair_roundtrip
  have hlow : secrets (dh Reference.primitives)
      (inboundQueries bobPair signedPair.Private (lowOrderHandshake ct)) = none := by
    rw [secrets_eq_none]
    refine ⟨(signedPair.Private, Key.zero), by simp [inboundQueries, lowOrderHandshake], ?_⟩
    decide +kernel
  exact ⟨⟨_, hv⟩, outbound_of_verify_error hv, ct, inbound_of_ssecret_none hdec hlow⟩

end Throwing

end Gcrypt.Handshake
