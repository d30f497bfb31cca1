import Gcrypt.KeyAgreement

/-!
# Gcrypt.Transcript

What the two roles feed to HKDF: `F || DH_1 || DH_2 || DH_3 [|| DH_4] || SS`, and that
this byte string determines the secrets.

A `Derivation` is one call of either role, and `HasSecrets` says which secrets it works
with. `rootKey_of_hasSecrets` ties the two to the code: the root key of such a call is
HKDF of `Secrets.transcript`, for whatever function extraction is. That transcripts
can be told apart is then a fact about concatenations of 32-byte blocks
(`Bytes.flatten_blocks_inj`), and covers both roles and both shapes at once.
-/

namespace Gcrypt.Handshake

open Effect Agreement

/-! ### Secrets -/

/-- The secrets of a derivation, under the names of the source. -/
structure Secrets where
  DH_1 : Xckey
  DH_2 : Xckey
  DH_3 : Xckey
  DH_4 : Option Xckey
  SS : Key mlkemBytes

namespace Secrets

/-- In the order in which both roles concatenate them. -/
def inOrder (s : Secrets) : List (Key 32) := [s.DH_1, s.DH_2, s.DH_3] ++ s.DH_4.toList ++ [s.SS]

/-- `F || secretKeyMaterial`, the input of `HKDF::extract`. -/
def transcript (s : Secrets) : List UInt8 :=
  (kconcatTwo (Keygen.filled 32 0xFF : Key 32)
    (kconcat (s.inOrder.map fun k => (⟨32, k⟩ : AnyKey)))).bytes

theorem transcript_eq (s : Secrets) :
    s.transcript = List.replicate 32 0xFF ++ (s.inOrder.map (·.bytes)).flatten := by
  simp [transcript, Keygen.filled, Function.comp_def]

/-- Keys of one size can be told apart in their concatenation. -/
theorem inOrder_inj_of_transcript {s s' : Secrets} (h : s.transcript = s'.transcript) :
    s.inOrder = s'.inOrder := by
  have hblock : ∀ t : Secrets, ∀ b ∈ t.inOrder.map (·.bytes), b.length = 32 := by
    intro t b hb
    obtain ⟨k, -, rfl⟩ := List.mem_map.mp hb
    exact k.size_eq
  rw [transcript_eq, transcript_eq] at h
  have hflat := List.append_cancel_left h
  have hmap := (Bytes.flatten_blocks_inj (by decide) (hblock s) (hblock s')).mp hflat
  exact (List.map_inj_right fun _ _ => Key.ext).mp hmap

/-- The number of secrets tells whether there is a fourth one. -/
theorem inOrder_inj {s s' : Secrets} : s.inOrder = s'.inOrder ↔
    s.DH_1 = s'.DH_1 ∧ s.DH_2 = s'.DH_2 ∧ s.DH_3 = s'.DH_3 ∧ s.DH_4 = s'.DH_4 ∧
      s.SS = s'.SS := by
  unfold inOrder
  cases s.DH_4 <;> cases s'.DH_4 <;> simp

theorem transcript_inj {s s' : Secrets} : s.transcript = s'.transcript ↔
    s.DH_1 = s'.DH_1 ∧ s.DH_2 = s'.DH_2 ∧ s.DH_3 = s'.DH_3 ∧ s.DH_4 = s'.DH_4 ∧
      s.SS = s'.SS := by
  rw [← inOrder_inj]
  constructor
  · exact inOrder_inj_of_transcript
  · intro h
    rw [transcript_eq, transcript_eq, h]

end Secrets

/-! ### Derivations -/

/-- A call of either role. -/
inductive Derivation
  | outbound (localIdentityKey : Xckeypair) (identityToVerifyAgainst : Xckey)
      (keys : ForeignPrekeyBundle) (w : World)
  | inbound (localIdentityKey : Xckeypair) (usedPrivateSignedPreKey : Xckey)
      (usedPrivateOneTimePreKey : Option Xckey) (usedPrivateQuantumPreKey : Qprivkey)
      (handshake : InitialMessageHandshake) (w : World)

/-- The root key the call delivers: a fault, `nullopt`, or the one in the session. -/
def Derivation.rootKey (P : Primitives) : Derivation → Except Fault (Option (Key 32))
  | .outbound alice id keys w =>
    (outcome (createOutboundSession P alice id keys w)).map
      (Option.map fun res => res.session.rootKey)
  | .inbound bob spk opk qsk hs w =>
    (outcome (createInboundSessionExplicit P bob spk opk qsk hs w)).map
      (Option.map fun session => session.rootKey)

/-- The secrets of an initiator's call: the bundle verifies, every step succeeds, and
there is a fourth secret where the bundle has a one-time prekey. -/
structure OutboundSecrets (P : Primitives) (alice : Xckeypair) (id : Xckey)
    (keys : ForeignPrekeyBundle) (w : World) (s : Secrets) : Prop where
  verified : verifyForeignBundle P id keys = .ok true
  encapsulated : ∃ ct, P.mlkimplEnc keys.quantumKey (encapsulationCoins w) = .ok (ct, s.SS)
  DH_1 : dh P alice.Private keys.signedPreKey.key = some s.DH_1
  DH_2 : dh P (ephemeral P w).Private keys.identityKey = some s.DH_2
  DH_3 : dh P (ephemeral P w).Private keys.signedPreKey.key = some s.DH_3
  DH_4 : keys.oneTimePreKey.map (fun k => dh P (ephemeral P w).Private k.key)
    = s.DH_4.map some

/-- The secrets of a responder's call. -/
structure InboundSecrets (P : Primitives) (bob : Xckeypair) (spk : Xckey) (opk : Option Xckey)
    (qsk : Qprivkey) (hs : InitialMessageHandshake) (s : Secrets) : Prop where
  decapsulated : P.mlkimplDec hs.cipherText qsk = .ok s.SS
  DH_1 : dh P spk hs.identityKey = some s.DH_1
  DH_2 : dh P bob.Private hs.ephermoralKey = some s.DH_2
  DH_3 : dh P spk hs.ephermoralKey = some s.DH_3
  DH_4 : opk.map (fun k => dh P k hs.ephermoralKey) = s.DH_4.map some

/-- The call reaches its key derivation, with these secrets. -/
def Derivation.HasSecrets (P : Primitives) (s : Secrets) : Derivation → Prop
  | .outbound alice id keys w => OutboundSecrets P alice id keys w s
  | .inbound bob spk opk qsk hs _ => InboundSecrets P bob spk opk qsk hs s

variable {P : Primitives}

/-- `HKDF::KDF<32>` from its extraction on. -/
def extractAndExpand (P : Primitives) (KM : List UInt8) : Option (Key 32) :=
  (P.cryptoKdfHkdfSha256Extract (List.replicate 32 0x00) KM).bind fun prk =>
    P.cryptoKdfHkdfSha256Expand 32 "PQX3DH".toUTF8.toList prk.bytes

/-- `HKDF::extract` is called on the transcript. -/
theorem rootKey_inOrder (s : Secrets) :
    Handshake.rootKey P s.inOrder = extractAndExpand P s.transcript := by
  unfold Handshake.rootKey HKDF.kdf extractAndExpand
  show (HKDF.extract P _ _ >>= fun prk => HKDF.expand P 32 prk "PQX3DH").toOption = _
  unfold HKDF.extract Secrets.transcript
  dsimp only [Keygen.filled]
  cases P.cryptoKdfHkdfSha256Extract (List.replicate 32 0x00) _ with
  | none => rfl
  | some prk =>
    show (HKDF.expand P 32 prk "PQX3DH").toOption = _
    unfold HKDF.expand
    rw [Option.bind_some]
    cases P.cryptoKdfHkdfSha256Expand 32 _ prk.bytes <;> rfl

/-- The optional query delivers the fourth secret, or there is none. -/
theorem derive_of_optional {s : Secrets} {optional : Option (Xckey × Xckey)}
    (h : optional.map (fun q => dh P q.1 q.2) = s.DH_4.map some) :
    derive P [s.DH_1, s.DH_2, s.DH_3] optional.toList s.SS
      = extractAndExpand P s.transcript := by
  rw [← rootKey_inOrder]
  unfold derive Secrets.inOrder
  cases optional with
  | none =>
    cases hs : s.DH_4 with
    | none => rfl
    | some d => simp [hs] at h
  | some q =>
    cases hs : s.DH_4 with
    | none => simp [hs] at h
    | some d =>
      have hd : dh P q.1 q.2 = some d := by simpa [hs] using h
      simp only [Option.toList_some, secrets, hd, Option.bind_some, Option.map_some]

theorem secrets_three_iff {q₁ q₂ q₃ : Xckey × Xckey} {d₁ d₂ d₃ : Xckey} :
    secrets (dh P) [q₁, q₂, q₃] = some [d₁, d₂, d₃] ↔
      dh P q₁.1 q₁.2 = some d₁ ∧ dh P q₂.1 q₂.2 = some d₂ ∧ dh P q₃.1 q₃.2 = some d₃ := by
  constructor
  · intro h
    obtain ⟨k₁, l₁, h₁, hl₁, heq₁⟩ := (secrets_cons_eq_some _).mp h
    obtain ⟨k₂, l₂, h₂, hl₂, rfl⟩ := (secrets_cons_eq_some _).mp hl₁
    obtain ⟨k₃, l₃, h₃, -, rfl⟩ := (secrets_cons_eq_some _).mp hl₂
    cases heq₁
    exact ⟨h₁, h₂, h₃⟩
  · rintro ⟨h₁, h₂, h₃⟩
    simp only [secrets, h₁, h₂, h₃, Option.bind_some, Option.map_some]

theorem outboundOptional_toList (ek : Xckeypair) (keys : ForeignPrekeyBundle) :
    outboundOptional ek keys = (keys.oneTimePreKey.map fun k => (ek.Private, k.key)).toList := by
  unfold outboundOptional
  cases keys.oneTimePreKey <;> rfl

theorem inboundOptional_toList (opk : Option Xckey) (hs : InitialMessageHandshake) :
    inboundOptional opk hs = (opk.map fun k => (k, hs.ephermoralKey)).toList := by
  unfold inboundOptional
  cases opk <;> rfl

theorem rootKey_of_outboundSecrets {alice : Xckeypair} {id : Xckey}
    {keys : ForeignPrekeyBundle} {w : World} {s : Secrets}
    (h : OutboundSecrets P alice id keys w s) :
    (Derivation.outbound alice id keys w).rootKey P
      = .ok (extractAndExpand P s.transcript) := by
  obtain ⟨ct, henc⟩ := h.encapsulated
  have hds : secrets (dh P) (outboundQueries alice (ephemeral P w) keys)
      = some [s.DH_1, s.DH_2, s.DH_3] := secrets_three_iff.mpr ⟨h.DH_1, h.DH_2, h.DH_3⟩
  obtain ⟨w', hout⟩ := outbound_of_steps h.verified henc hds
  rw [outboundOptional_toList, derive_of_optional (by rw [← h.DH_4, Option.map_map]; rfl)] at hout
  rw [Derivation.rootKey, hout]
  cases extractAndExpand P s.transcript <;> rfl

theorem rootKey_of_inboundSecrets {bob : Xckeypair} {spk : Xckey} {opk : Option Xckey}
    {qsk : Qprivkey} {hs : InitialMessageHandshake} {w : World} {s : Secrets}
    (h : InboundSecrets P bob spk opk qsk hs s) :
    (Derivation.inbound bob spk opk qsk hs w).rootKey P
      = .ok (extractAndExpand P s.transcript) := by
  have hds : secrets (dh P) (inboundQueries bob spk hs) = some [s.DH_1, s.DH_2, s.DH_3] :=
    secrets_three_iff.mpr ⟨h.DH_1, h.DH_2, h.DH_3⟩
  obtain ⟨w', hin⟩ := inbound_of_steps (w := w) opk h.decapsulated hds
  rw [inboundOptional_toList, derive_of_optional (by rw [← h.DH_4, Option.map_map]; rfl)] at hin
  rw [Derivation.rootKey, hin]
  cases extractAndExpand P s.transcript <;> rfl

/-- Both roles extract from the transcript of their secrets. -/
theorem rootKey_of_hasSecrets {d : Derivation} {s : Secrets} (h : d.HasSecrets P s) :
    d.rootKey P = .ok (extractAndExpand P s.transcript) := by
  cases d with
  | outbound alice id keys w => exact rootKey_of_outboundSecrets h
  | inbound bob spk opk qsk hs w => exact rootKey_of_inboundSecrets h

/-- A derivation that delivers a key has found its optional secret. -/
theorem exists_fourth_of_derive {ds : List Xckey} {optional : Option (Xckey × Xckey)}
    {ss SK : Key 32} (h : derive P ds optional.toList ss = some SK) :
    ∃ d : Option Xckey, optional.map (fun q => dh P q.1 q.2) = d.map some := by
  cases optional with
  | none => exact ⟨none, rfl⟩
  | some q =>
    obtain ⟨ds', hds', -⟩ := Option.bind_eq_some_iff.mp h
    obtain ⟨d, l, hd, -⟩ := (secrets_cons_eq_some _).mp hds'
    exact ⟨some d, by simp [hd]⟩

/-- Conversely, behind every session there are secrets. -/
theorem exists_secrets_of_rootKey {d : Derivation} {SK : Key 32}
    (h : d.rootKey P = .ok (some SK)) : ∃ s, d.HasSecrets P s := by
  cases d with
  | outbound alice id keys w =>
    cases hrun : createOutboundSession P alice id keys w with
    | error e w' => simp [Derivation.rootKey, hrun, Except.map] at h
    | ok r w' =>
      cases r with
      | none => simp [Derivation.rootKey, hrun, Except.map] at h
      | some res =>
        obtain ⟨ct, ss, ds, SK', hv, henc, hds, hSK, -⟩ := outbound_eq_some hrun
        obtain ⟨d₁, d₂, d₃, rfl⟩ := secrets_three hds
        obtain ⟨h₁, h₂, h₃⟩ := secrets_three_iff.mp hds
        rw [outboundOptional_toList] at hSK
        obtain ⟨d₄, h₄⟩ := exists_fourth_of_derive hSK
        rw [Option.map_map] at h₄
        exact ⟨⟨d₁, d₂, d₃, d₄, ss⟩, hv, ⟨ct, henc⟩, h₁, h₂, h₃, h₄⟩
  | inbound bob spk opk qsk hs w =>
    cases hrun : outcome (createInboundSessionExplicit P bob spk opk qsk hs w) with
    | error e => simp [Derivation.rootKey, hrun, Except.map] at h
    | ok r =>
      cases r with
      | none => simp [Derivation.rootKey, hrun, Except.map] at h
      | some session =>
        obtain ⟨SK', ⟨ss, ds, hdec, hds, hSK⟩, -⟩ :=
          inboundAnswer_eq_session.mp (inbound_outcome_iff.mp hrun)
        obtain ⟨d₁, d₂, d₃, rfl⟩ := secrets_three hds
        obtain ⟨h₁, h₂, h₃⟩ := secrets_three_iff.mp hds
        rw [inboundOptional_toList] at hSK
        obtain ⟨d₄, h₄⟩ := exists_fourth_of_derive hSK
        rw [Option.map_map] at h₄
        exact ⟨⟨d₁, d₂, d₃, d₄, ss⟩, hdec, h₁, h₂, h₃, h₄⟩

/-- **Injectivity.** Two derivations of any roles feed extraction the same bytes if and
only if their secrets agree position by position, the fourth one also in its absence. -/
theorem derivations_extract_same_iff {P P' : Primitives} {d d' : Derivation} {s s' : Secrets}
    (h : d.HasSecrets P s) (h' : d'.HasSecrets P' s') :
    d.rootKey P = .ok (extractAndExpand P s.transcript) ∧
      d'.rootKey P' = .ok (extractAndExpand P' s'.transcript) ∧
      (s.transcript = s'.transcript ↔
        s.DH_1 = s'.DH_1 ∧ s.DH_2 = s'.DH_2 ∧ s.DH_3 = s'.DH_3 ∧ s.DH_4 = s'.DH_4 ∧
          s.SS = s'.SS) :=
  ⟨rootKey_of_hasSecrets h, rootKey_of_hasSecrets h', Secrets.transcript_inj⟩

/-! Alice's call and Bob's. -/

def aliceDerivation : Derivation :=
  .outbound alicePair bobPair.Public (bobBundle (.inl signedQuantum)) zeroWorld

def bobDerivation (hs : InitialMessageHandshake) : Derivation :=
  .inbound bobKeys.identity bobKeys.signedPreKey.Private (bobKeys.oneTimePreKey.map (·.Private))
    bobKeys.quantumPreKey.Private hs zeroWorld

theorem derivations_extract_same_alice_bob : ∃ hs s s',
    aliceDerivation.HasSecrets Reference.primitives s ∧
      (bobDerivation hs).HasSecrets Reference.primitives s' ∧
      aliceDerivation.rootKey Reference.primitives
        = .ok (extractAndExpand Reference.primitives s.transcript) ∧
      (bobDerivation hs).rootKey Reference.primitives
        = .ok (extractAndExpand Reference.primitives s'.transcript) ∧
      (s.transcript = s'.transcript ↔
        s.DH_1 = s'.DH_1 ∧ s.DH_2 = s'.DH_2 ∧ s.DH_3 = s'.DH_3 ∧ s.DH_4 = s'.DH_4 ∧
          s.SS = s'.SS) := by
  obtain ⟨ct, ss, henc, hdec⟩ := Reference.zeroSeedPair_roundtrip
  obtain ⟨SK, w₁, hout⟩ := session_with_bob (.inl signedQuantum) (by simp) henc
  obtain ⟨session, v₁, hin⟩ :=
    inbound_of_succeeds (bobKeys_succeed hdec : ResponderSucceeds _ _
      (finalizeOutboundSession _ _ ct SK _).handshakeMessage) zeroWorld
  generalize (finalizeOutboundSession _ _ ct SK _).handshakeMessage = hs at hin
  have halice : aliceDerivation.rootKey Reference.primitives = .ok (some SK) := by
    rw [aliceDerivation, Derivation.rootKey, hout]
    rfl
  have hbob : (bobDerivation hs).rootKey Reference.primitives = .ok (some session.rootKey) := by
    rw [bobDerivation, Derivation.rootKey, hin]
    rfl
  obtain ⟨s, hsecrets⟩ := exists_secrets_of_rootKey halice
  obtain ⟨s', hsecrets'⟩ := exists_secrets_of_rootKey hbob
  exact ⟨hs, s, s', hsecrets, hsecrets', derivations_extract_same_iff hsecrets hsecrets'⟩

end Gcrypt.Handshake
