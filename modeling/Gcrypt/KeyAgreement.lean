import Gcrypt.Authentication

/-!
# Gcrypt.KeyAgreement

PQXDH key agreement: an initiator and a responder that use one bundle end with the
same root key.

Both roles are instances of one **agenda** (`Agreement`): the four couples of key
pairs of the protocol, of which the initiator holds the first members and the
responder the second. That the two lists of queries come from one agenda is the
whole content of the handshake's argument order; the library's
`initiator_eq_responder` then gives equal secrets.
-/

namespace Gcrypt.Handshake

open Effect Agreement

/-- The key pairs a responder has behind a bundle. -/
structure ResponderKeys where
  identity : Xckeypair
  signedPreKey : Xckeypair
  quantumPreKey : Qkeypair
  oneTimePreKey : Option Xckeypair

/-- The bundle offers exactly the public halves of `bob`, the KEM key under either
alternative of the variant. Identifiers and signatures are free. -/
structure Offers (keys : ForeignPrekeyBundle) (bob : ResponderKeys) : Prop where
  identity : keys.identityKey = bob.identity.Public
  signedPreKey : keys.signedPreKey.key = bob.signedPreKey.Public
  quantumPreKey : keys.quantumKey = bob.quantumPreKey.Public
  oneTimePreKey : keys.oneTimePreKey.map (·.key) = bob.oneTimePreKey.map (·.Public)

/-! ### One agenda for both roles -/

/-- A key pair as the library on agreement takes it. -/
def couple (pair : Xckeypair) : Pair Xckey Xckey := ⟨pair.Private, pair.Public⟩

/-- `DH_1`, `DH_2`, `DH_3`, as couples of key pairs. -/
def agenda (alice ek : Xckeypair) (bob : ResponderKeys) :
    List (Pair Xckey Xckey × Pair Xckey Xckey) :=
  [(couple alice, couple bob.signedPreKey), (couple ek, couple bob.identity),
    (couple ek, couple bob.signedPreKey)]

/-- `DH_4`, where there is a one-time prekey. -/
def optionalAgenda (ek : Xckeypair) (bob : ResponderKeys) :
    List (Pair Xckey Xckey × Pair Xckey Xckey) :=
  bob.oneTimePreKey.toList.map fun k => (couple ek, couple k)

section Queries

variable {alice ek : Xckeypair} {bob : ResponderKeys} {keys : ForeignPrekeyBundle}
  {hs : InitialMessageHandshake}

theorem outboundQueries_eq (ho : Offers keys bob) :
    outboundQueries alice ek keys = initiator (agenda alice ek bob) := by
  simp only [outboundQueries, ho.signedPreKey, ho.identity]
  rfl

theorem outboundOptional_eq (ho : Offers keys bob) :
    outboundOptional ek keys = initiator (optionalAgenda ek bob) := by
  have hkeys : outboundOptional ek keys
      = (keys.oneTimePreKey.map (·.key)).toList.map fun k => (ek.Private, k) := by
    unfold outboundOptional
    cases keys.oneTimePreKey <;> rfl
  rw [hkeys, ho.oneTimePreKey]
  unfold optionalAgenda
  cases bob.oneTimePreKey <;> rfl

theorem inboundQueries_eq (alice ek : Xckeypair) (hid : hs.identityKey = alice.Public)
    (hek : hs.ephermoralKey = ek.Public) :
    inboundQueries bob.identity bob.signedPreKey.Private hs
      = responder (agenda alice ek bob) := by
  simp only [inboundQueries, hid, hek]
  rfl

theorem inboundOptional_eq (ek : Xckeypair) (hek : hs.ephermoralKey = ek.Public) :
    inboundOptional (bob.oneTimePreKey.map (·.Private)) hs
      = responder (optionalAgenda ek bob) := by
  unfold inboundOptional optionalAgenda
  rw [hek]
  cases bob.oneTimePreKey <;> rfl

end Queries

/-! ### Agreement -/

variable {P : Primitives}

/-- The KEM and the Diffie-Hellman function agree on the key pairs of a handshake. -/
structure PrimitivesAgree (P : Primitives) (alice ek : Xckeypair) (bob : ResponderKeys)
    (coins : Key 32) : Prop where
  identity_signed : KeysAgree P alice bob.signedPreKey
  ephemeral_identity : KeysAgree P ek bob.identity
  ephemeral_signed : KeysAgree P ek bob.signedPreKey
  ephemeral_oneTime : ∀ k ∈ bob.oneTimePreKey, KeysAgree P ek k
  kem : KemAgrees P bob.quantumPreKey coins

section

variable {alice ek : Xckeypair} {bob : ResponderKeys} {coins : Key 32}

theorem agenda_agree (h : PrimitivesAgree P alice ek bob coins) :
    ∀ c ∈ agenda alice ek bob, Agree (dh P) c.1 c.2 := by
  intro c hc
  simp only [agenda, List.mem_cons, List.not_mem_nil, or_false] at hc
  rcases hc with rfl | rfl | rfl
  · exact h.identity_signed
  · exact h.ephemeral_identity
  · exact h.ephemeral_signed

theorem optionalAgenda_agree (h : PrimitivesAgree P alice ek bob coins) :
    ∀ c ∈ optionalAgenda ek bob, Agree (dh P) c.1 c.2 := by
  intro c hc
  unfold optionalAgenda at hc
  obtain ⟨k, hk, rfl⟩ := List.mem_map.mp hc
  exact h.ephemeral_oneTime k (Option.mem_toList.mp hk)

end

/-- No step of the responder fails: decapsulation, and every Diffie-Hellman value. -/
structure ResponderSucceeds (P : Primitives) (bob : ResponderKeys)
    (hs : InitialMessageHandshake) : Prop where
  decapsulation : ∃ ss, P.mlkimplDec hs.cipherText bob.quantumPreKey.Private = .ok ss
  mandatory : ∃ ds,
    secrets (dh P) (inboundQueries bob.identity bob.signedPreKey.Private hs) = some ds
  optional : ∃ ds, secrets (dh P)
    (inboundOptional (bob.oneTimePreKey.map (·.Private)) hs) = some ds

/-- **PQXDH key agreement.** A responder that holds the private halves of the bundle
gets a session from the initiator's handshake message; the root keys are equal, and
each side names the other's public identity key. -/
theorem sessions_agree {alice : Xckeypair} {bob : ResponderKeys} {keys : ForeignPrekeyBundle}
    {w w₁ : World} {res : SessionInitResult} (v : World) (ho : Offers keys bob)
    (hp : PrimitivesAgree P alice (ephemeral P w) bob (encapsulationCoins w))
    (hout : createOutboundSession P alice bob.identity.Public keys w = .ok (some res) w₁)
    (hbob : ResponderSucceeds P bob res.handshakeMessage) :
    ∃ s v₁, createInboundSessionExplicit P bob.identity bob.signedPreKey.Private
        (bob.oneTimePreKey.map (·.Private)) bob.quantumPreKey.Private res.handshakeMessage v
        = .ok (some s) v₁ ∧
      s.rootKey = res.session.rootKey ∧
      res.session.remoteIdentityKey = bob.identity.Public ∧
      s.remoteIdentityKey = alice.Public := by
  obtain ⟨ct, ss, ds, SK, -, henc, hds, hSK, rfl⟩ := outbound_eq_some hout
  obtain ⟨⟨ss', hdec⟩, ⟨ds', hds'⟩, ⟨es', hes'⟩⟩ := hbob
  -- The KEM secret: the cipher text in the message is the one encapsulated.
  have hss : ss = ss' := by
    rw [ho.quantumPreKey] at henc
    exact hp.kem ct ss ss' henc hdec
  -- The mandatory secrets: both lists of queries come from the agenda.
  have hmand : ds = ds' := by
    rw [outboundQueries_eq ho] at hds
    rw [inboundQueries_eq alice (ephemeral P w) rfl rfl] at hds'
    exact initiator_eq_responder (agenda_agree hp) hds hds'
  -- The optional one: it exists for the initiator, who derived a key from it.
  obtain ⟨es, hes, hroot⟩ := Option.bind_eq_some_iff.mp hSK
  have hopt : es = es' := by
    rw [outboundOptional_eq ho] at hes
    rw [inboundOptional_eq (ephemeral P w) rfl] at hes'
    exact initiator_eq_responder (optionalAgenda_agree hp) hes hes'
  subst hss hmand hopt
  obtain ⟨v₁, hin⟩ := inbound_of_steps (w := v) (bob.oneTimePreKey.map (·.Private))
    hdec hds'
  have hderive : derive P ds (inboundOptional (bob.oneTimePreKey.map (·.Private))
      (finalizeOutboundSession alice.Public (ephemeral P w).Public ct SK keys).handshakeMessage) ss
      = some SK := by
    unfold derive
    rw [hes']
    exact hroot
  rw [hderive] at hin
  exact ⟨_, v₁, hin, rfl, ho.identity, rfl⟩

/-! Alice and Bob, at the reference primitives. -/

def bobKeys : ResponderKeys where
  identity := bobPair
  signedPreKey := signedPair
  quantumPreKey := Reference.zeroSeedPair
  oneTimePreKey := some oneTimePair

theorem keysAgree_of_eq {a b : Xckeypair}
    (h : dh P a.Private b.Public = dh P b.Private a.Public) : KeysAgree P a b := by
  intro k k' hk hk'
  exact Option.some.inj (hk.symm.trans (h.trans hk'))

theorem bobKeys_agree : PrimitivesAgree Reference.primitives alicePair
    (ephemeral Reference.primitives zeroWorld) bobKeys (encapsulationCoins zeroWorld) where
  identity_signed := keysAgree_of_eq (by decide +kernel)
  ephemeral_identity := keysAgree_of_eq (by decide +kernel)
  ephemeral_signed := keysAgree_of_eq (by decide +kernel)
  ephemeral_oneTime := by
    rintro k ⟨⟩
    exact keysAgree_of_eq (by decide +kernel)
  kem := by
    intro ct ss ss' henc hdec
    obtain ⟨ct₀, ss₀, henc₀, hdec₀⟩ := Reference.zeroSeedPair_roundtrip
    rw [zeroWorld_coins] at henc
    cases henc.symm.trans henc₀
    cases hdec.symm.trans hdec₀
    rfl

/-- Bob decapsulates what is encapsulated to him, and finds every secret. -/
theorem bobKeys_succeed {ct : Key mlkemCtb} {ss SK : Key 32}
    (hdec : Reference.primitives.mlkimplDec ct Reference.zeroSeedPair.Private = .ok ss) :
    ResponderSucceeds Reference.primitives bobKeys
      (finalizeOutboundSession alicePair.Public
        (ephemeral Reference.primitives zeroWorld).Public ct SK
        (bobBundle (.inl signedQuantum))).handshakeMessage := by
  refine ⟨⟨ss, hdec⟩, ?_, ?_⟩
  · have hsome : (secrets (dh Reference.primitives) [(signedPair.Private, alicePair.Public),
        (bobPair.Private, (ephemeral Reference.primitives zeroWorld).Public),
        (signedPair.Private, (ephemeral Reference.primitives zeroWorld).Public)]).isSome
          = true := by
      decide +kernel
    exact Option.isSome_iff_exists.mp hsome
  · have hsome : (secrets (dh Reference.primitives)
        [(oneTimePair.Private, (ephemeral Reference.primitives zeroWorld).Public)]).isSome
          = true := by
      decide +kernel
    exact Option.isSome_iff_exists.mp hsome

/-- At the reference primitives, a responder whose steps succeed gets a session. -/
theorem inbound_of_succeeds {bob : ResponderKeys} {hs : InitialMessageHandshake}
    (h : ResponderSucceeds Reference.primitives bob hs) (v : World) :
    ∃ s v₁, createInboundSessionExplicit Reference.primitives bob.identity
      bob.signedPreKey.Private (bob.oneTimePreKey.map (·.Private)) bob.quantumPreKey.Private hs v
      = .ok (some s) v₁ := by
  obtain ⟨⟨ss, hdec⟩, ⟨ds, hds⟩, ⟨es, hes⟩⟩ := h
  obtain ⟨SK, hSK⟩ := rootKey_reference (ds ++ es ++ [ss])
  obtain ⟨v₁, hin⟩ := inbound_of_steps (w := v) (bob.oneTimePreKey.map (·.Private)) hdec hds
  rw [derive, hes, Option.bind_some, hSK, Option.map_some] at hin
  exact ⟨_, v₁, hin⟩

theorem sessions_agree_bob : ∃ res w₁ s v₁,
    createOutboundSession Reference.primitives alicePair bobPair.Public
        (bobBundle (.inl signedQuantum)) zeroWorld = .ok (some res) w₁ ∧
      createInboundSessionExplicit Reference.primitives bobPair signedPair.Private
        (some oneTimePair.Private) Reference.zeroSeedPair.Private res.handshakeMessage zeroWorld
        = .ok (some s) v₁ ∧
      s.rootKey = res.session.rootKey ∧
      res.session.remoteIdentityKey = bobPair.Public ∧
      s.remoteIdentityKey = alicePair.Public := by
  obtain ⟨ct, ss, henc, hdec⟩ := Reference.zeroSeedPair_roundtrip
  obtain ⟨SK, w₁, hout⟩ := session_with_bob (.inl signedQuantum) (by simp) henc
  have hoffers : Offers (bobBundle (.inl signedQuantum)) bobKeys := ⟨rfl, rfl, rfl, rfl⟩
  obtain ⟨s, v₁, hin, hagree⟩ := sessions_agree zeroWorld hoffers bobKeys_agree hout
    (bobKeys_succeed hdec)
  exact ⟨_, w₁, s, v₁, hout, hin, hagree⟩

end Gcrypt.Handshake
