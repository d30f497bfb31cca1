import Mathlib.Data.List.AList
import Gcrypt.Algorithms

/-!
# Gcrypt.Pqxdh

`pqxdh.hpp` and `pqxdh.cpp`: the bundles, and the functions of the handshake.

* **Publishing**: `makeLkb` generates a device's keys and stores the identity pair,
  `refill` generates and stores further one-time keys, `makeServerPayload` signs
  the public halves for the server.
* **Initiating**: `verifyForeignBundle`, `createOutboundSession` and
  `finalizeOutboundSession`.
* **Responding**: `createInboundSessionExplicit` (the overload with five
  arguments) and `createInboundSession` (the overload that queries the store).

A `try` block whose handler returns `std::nullopt` is `attempt`. A statement that
returns early nests the rest of the function.
-/

namespace Gcrypt

open Effect Keygen

/-! ### Bundles and messages -/

/-- `refill_payload`. -/
structure RefillPayload where
  oneTimePreKeys : List Xcikey
  signedOneTimeQuantumPreKeys : List Qsidkey

/-- `std::unordered_map<uint32_t, V>`: entries with distinct keys. -/
abbrev UnorderedMap (V : Type) := AList fun _ : UInt32 => V

/-- `map.insert({id, v})`: an entry that is there stays. -/
def UnorderedMap.insertNew {V : Type} (map : UnorderedMap V) (id : UInt32) (v : V) :
    UnorderedMap V :=
  if id ∈ map then map else map.insert id v

/-- `local_key_bundle`. -/
structure LocalKeyBundle where
  IdentityKey : Xckeypair
  SignedPreKey : Xcikeypair
  QuantumPreKey : Qikeypair
  OneTimePreKeys : UnorderedMap Xckeypair
  OneTimeQuantumKeys : UnorderedMap Qkeypair

/-- `foreign_prekey_bundle`. The variant holds a signed one-time key or the
unsigned key of last resort. -/
structure ForeignPrekeyBundle where
  identityKey : Xckey
  signedPreKey : Xcsikey
  qpubsidkey : Qsidkey ⊕ Qpubikey
  oneTimePreKey : Option Xcikey

/-- The key in either alternative of the variant. -/
def ForeignPrekeyBundle.quantumKey (keys : ForeignPrekeyBundle) : Qpubkey :=
  match keys.qpubsidkey with
  | .inl k => k.key
  | .inr k => k.key

/-- `std::visit([](const auto& k) { return k.identifier; }, keys.qpubsidkey)`. -/
def ForeignPrekeyBundle.quantumKeyId (keys : ForeignPrekeyBundle) : UInt32 :=
  match keys.qpubsidkey with
  | .inl k => k.identifier
  | .inr k => k.identifier

/-- `initial_message_handshake`. -/
structure InitialMessageHandshake where
  identityKey : Xckey
  ephermoralKey : Xckey
  cipherText : Qpubkey
  usedPreKeys : List UInt32
  usedQuantumPreKeys : List UInt32

/-- `session_init_result`. -/
structure SessionInitResult where
  session : MessagingSession
  handshakeMessage : InitialMessageHandshake

variable (P : Primitives)

/-! ### Publishing -/

/-- The result of a generator, or its `descriptive_error` thrown. -/
def valueOrThrow {α : Type} : Except KeyGenError α → GcryptM α
  | .ok a => pure a
  | .error err => throw (.text (descriptiveError err))

/-- The loop of `make_lkb` that fills `OneTimePreKeys`. -/
def fillOneTimePreKeys : Nat → UnorderedMap Xckeypair → GcryptM (UnorderedMap Xckeypair)
  | 0, map => return map
  | i + 1, map => do
    let val ← valueOrThrow (← X25519.makePair P)
    fillOneTimePreKeys i (map.insertNew (keyid P val.Public) val)

/-- The loop of `make_lkb` that fills `OneTimeQuantumKeys`. -/
def fillOneTimeQuantumKeys : Nat → UnorderedMap Qkeypair → GcryptM (UnorderedMap Qkeypair)
  | 0, map => return map
  | i + 1, map => do
    let val ← valueOrThrow (← Mlkem32.makePair P)
    fillOneTimeQuantumKeys i (map.insertNew (keyid P val.Public) val)

/-- `make_lkb`. The device id is not used. -/
def makeLkb (_deviceId : UInt32) : GcryptM LocalKeyBundle := do
  assertStore
  let IdentityKey ← valueOrThrow (← Ed25519.makePair P)
  let SignedPreKey ← valueOrThrow (← X25519.makeIdPair P)
  let QuantumPreKey ← valueOrThrow (← Mlkem32.makeIdPair P)
  let OneTimePreKeys ← fillOneTimePreKeys P initialPrekeyBundleCount ∅
  let OneTimeQuantumKeys ← fillOneTimeQuantumKeys P initialPrekeyBundleCount ∅
  let bytes := keyBytes [⟨_, IdentityKey.Public⟩, ⟨_, IdentityKey.Private⟩]
  if !(← storeIdentityKeyPair bytes) then
    throw (.runtimeError "Gcrypt::store_identity_key_pair failed.")
  else
    return { IdentityKey, SignedPreKey, QuantumPreKey, OneTimePreKeys, OneTimeQuantumKeys }

/-- Generate one X25519 pair, store it, and return its public entry: the first half
of the loop body of `refill`. -/
def refillPreKey : GcryptM Xcikey := do
  let pair ← valueOrThrow (← X25519.makePair P)
  let id := keyid P pair.Public
  let bytes := keyBytes [⟨_, pair.Public⟩, ⟨_, pair.Private⟩]
  if !(← storeOneTimePrekey id .prekey bytes) then
    throw (.runtimeError "Gcrypt::store_one_time_prekey failed.")
  else
    return { key := pair.Public, identifier := id }

/-- Generate one ML-KEM pair, store it, and return its signed public entry: the
second half of the loop body of `refill`. -/
def refillQuantumPreKey (privIdentityKey : Xckey) : GcryptM Qsidkey := do
  let pair ← valueOrThrow (← Mlkem32.makePair P)
  let id := keyid P pair.Public
  let bytes := keyBytes [⟨_, pair.Public⟩, ⟨_, pair.Private⟩]
  if !(← storeOneTimePrekey id .quantum bytes) then
    throw (.runtimeError "Gcrypt::store_one_time_prekey failed.")
  else do
    let Z_N ← Keygen.random 64
    return {
      key := pair.Public
      identifier := id
      signature := XedDSA.sign32 P privIdentityKey pair.Public Z_N }

/-- The loop of `refill`, with the payload built so far. -/
def refillLoop (privIdentityKey : Xckey) : Nat → RefillPayload → GcryptM RefillPayload
  | 0, payload => return payload
  | i + 1, payload => do
    let x ← refillPreKey P
    let q ← refillQuantumPreKey P privIdentityKey
    refillLoop privIdentityKey i {
      oneTimePreKeys := payload.oneTimePreKeys ++ [x]
      signedOneTimeQuantumPreKeys := payload.signedOneTimeQuantumPreKeys ++ [q] }

/-- `refill`. -/
def refill (privIdentityKey : Xckey) (Count : UInt32) : GcryptM RefillPayload := do
  assertStore
  refillLoop P privIdentityKey Count.toNat ⟨[], []⟩

/-- `public_server_payload<N>`. `quantumPreKey` is typed by its initialiser: the size
of its key is part of the value. -/
structure PublicServerPayload where
  registration : UInt32
  deviceId : UInt32
  identityKey : Xckey
  signedPreKey : Xcsikey
  quantumPreKey : (n : Nat) × Sidkey n signatureSize
  oneTimePreKeys : List Xcikey
  signedOneTimeQuantumPreKeys : List Qsidkey

/-- `GCRYPT_MAX_REGISTRATION_VALUE`. -/
def maxRegistrationValue : UInt32 := 16380

/-- `map[i]`: the value under the **key** `i`, value-initialised where there is none. -/
def UnorderedMap.at {V : Type} (map : UnorderedMap V) (i : UInt32) (init : V) : V :=
  (map.lookup i).getD init

/-- The loop of `make_server_payload`. The loop counter is used as a map key, and an
entry found under `i` has the identifier `i`. -/
def serverPayloadLoop (keys : LocalKeyBundle) :
    Nat → Nat → List Xcikey → List Qsidkey → GcryptM (List Xcikey × List Qsidkey)
  | 0, _, pOtpk, pOtQpk => return (pOtpk, pOtQpk)
  | remaining + 1, i, pOtpk, pOtQpk => do
    let id := UInt32.ofNat i
    let okey := keys.OneTimePreKeys.at id Xckeypair.zero
    let qkey := keys.OneTimeQuantumKeys.at id ⟨Key.zero, Key.zero⟩
    let Z_N ← Keygen.random 64
    serverPayloadLoop keys remaining (i + 1)
      (pOtpk ++ [{ key := okey.Public, identifier := id }])
      (pOtQpk ++ [{
        key := qkey.Public
        identifier := id
        signature := XedDSA.sign32 P keys.IdentityKey.Private qkey.Public Z_N }])

/-- `make_server_payload<N>(deviceId, keys)`. The template is never instantiated and
does not compile as it stands (commas are missing in the last initialiser, and
members are named that the pairs do not have); it is read here as it is written:
`keys.SignedPreKey.Public` stands for its key, an entry's identifier for its map key.

`randombytes_uniform` draws a word of 4 bytes, and another one where that would make the
result uneven; here it draws the first one only. -/
def makeServerPayload (oneTimePreKeyCount : Nat) (deviceId : UInt32) (keys : LocalKeyBundle) :
    GcryptM PublicServerPayload := do
  let Z_SPK ← Keygen.random 64
  let Z_PQSPK ← Keygen.random 64
  let word ← randombytesBuf 4
  let registration := P.randombytesUniform maxRegistrationValue word + 1
  let (pOtpk, pOtQpk) ← serverPayloadLoop P keys oneTimePreKeyCount 0 [] []
  return {
    registration := registration
    deviceId := deviceId
    identityKey := keys.IdentityKey.Public
    signedPreKey := {
      key := keys.SignedPreKey.Public.key
      identifier := keys.SignedPreKey.Public.identifier
      signature := XedDSA.sign32 P keys.IdentityKey.Private keys.SignedPreKey.Public.key Z_SPK }
    quantumPreKey := ⟨_, {
      key := keys.SignedPreKey.Public.key
      identifier := keys.SignedPreKey.Public.identifier
      signature :=
        XedDSA.sign32 P keys.IdentityKey.Private keys.QuantumPreKey.Public.key Z_PQSPK }⟩
    oneTimePreKeys := pOtpk
    signedOneTimeQuantumPreKeys := pOtQpk }

/-! ### Initiating a session -/

/-- `verify_foreign_bundle`. -/
def verifyForeignBundle (userIdentityKey : Xckey) (bundle : ForeignPrekeyBundle) :
    Except Fault Bool :=
  if !kmatch userIdentityKey bundle.identityKey then .ok false
  else do
    if !(← XedDSA.verify32 P userIdentityKey bundle.signedPreKey.key
        bundle.signedPreKey.signature) then
      return false
    -- only check signature if it is qsidkey
    match bundle.qpubsidkey with
    | .inl signedQKey => XedDSA.verify32 P userIdentityKey signedQKey.key signedQKey.signature
    | .inr _ => return true

/-- `_internal::finalize_outbound_session`. -/
def finalizeOutboundSession (localPublicIdentityKey publicEphemeralKey : Xckey)
    (cipherText : Key mlkemCtb) (KDFSecretKey : Key 32) (keys : ForeignPrekeyBundle) :
    SessionInitResult where
  session := { MessagingSession.init with
    remoteIdentityKey := keys.identityKey
    rootKey := KDFSecretKey
    sendSequence := 0 }
  handshakeMessage := {
    identityKey := localPublicIdentityKey
    ephermoralKey := publicEphemeralKey
    cipherText := cipherText
    usedPreKeys := keys.signedPreKey.identifier ::
      (match keys.oneTimePreKey with
        | some k => [k.identifier]
        | none => [])
    usedQuantumPreKeys := [keys.quantumKeyId] }

/-- The `try` block of `create_outbound_session`: the fourth Diffie-Hellman, if the
bundle has a one-time prekey, and the key derivation. -/
def outboundDerivation (EK : Xckeypair) (keys : ForeignPrekeyBundle) (DH_1 DH_2 DH_3 : Xckey)
    (sharedSecret : Key mlkemBytes) : GcryptM (Key 32) :=
  match keys.oneTimePreKey with
  | some oneTimePreKey => do
    let DH_4 ← X25519.ssecret P EK.Private oneTimePreKey.key
    let input := kconcat [⟨_, DH_1⟩, ⟨_, DH_2⟩, ⟨_, DH_3⟩, ⟨_, DH_4⟩, ⟨_, sharedSecret⟩]
    liftExcept (HKDF.kdf P 32 input)
  | none =>
    let input := kconcat [⟨_, DH_1⟩, ⟨_, DH_2⟩, ⟨_, DH_3⟩, ⟨_, sharedSecret⟩]
    liftExcept (HKDF.kdf P 32 input)

/-- `create_outbound_session`. -/
def createOutboundSession (localIdentityKey : Xckeypair) (identityToVerifyAgainst : Xckey)
    (keys : ForeignPrekeyBundle) : GcryptM (Option SessionInitResult) := do
  if !(← liftExcept (verifyForeignBundle P identityToVerifyAgainst keys)) then
    return none
  else match ← X25519.makePair P with
  | .error _ => return none
  | .ok EK => do
    let PQPK ← Mlkem32.encapsulate P keys.quantumKey
    let DH_1 ← X25519.ssecret P localIdentityKey.Private keys.signedPreKey.key
    let DH_2 ← X25519.ssecret P EK.Private keys.identityKey
    let DH_3 ← X25519.ssecret P EK.Private keys.signedPreKey.key
    match ← attempt Fault.isRuntimeError
      (outboundDerivation P EK keys DH_1 DH_2 DH_3 PQPK.sharedSecret) with
    | none => return none
    | some SK =>
      return some (finalizeOutboundSession localIdentityKey.Public EK.Public PQPK.cipherText SK keys)

/-! ### Responding to a handshake -/

/-- The `try` block of the five-argument `create_inbound_session`. -/
def inboundDerivation (usedPrivateOneTimePreKey : Option Xckey)
    (handshake : InitialMessageHandshake) (DH_1 DH_2 DH_3 : Xckey) (PQSS : Key mlkemBytes) :
    GcryptM (Key 32) :=
  match usedPrivateOneTimePreKey with
  | some usedPrivateOneTimePreKey => do
    let DH_4 ← X25519.ssecret P usedPrivateOneTimePreKey handshake.ephermoralKey
    let input := kconcat [⟨_, DH_1⟩, ⟨_, DH_2⟩, ⟨_, DH_3⟩, ⟨_, DH_4⟩, ⟨_, PQSS⟩]
    liftExcept (HKDF.kdf P 32 input)
  | none =>
    let input := kconcat [⟨_, DH_1⟩, ⟨_, DH_2⟩, ⟨_, DH_3⟩, ⟨_, PQSS⟩]
    liftExcept (HKDF.kdf P 32 input)

/-- `create_inbound_session`, the overload with five arguments. -/
def createInboundSessionExplicit (localIdentityKey : Xckeypair) (usedPrivateSignedPreKey : Xckey)
    (usedPrivateOneTimePreKey : Option Xckey) (usedPrivateQuantumPreKey : Qprivkey)
    (handshake : InitialMessageHandshake) : GcryptM (Option MessagingSession) := do
  let PQSS ← Mlkem32.decapsulate P handshake.cipherText usedPrivateQuantumPreKey
  let DH_1 ← X25519.ssecret P usedPrivateSignedPreKey handshake.identityKey
  let DH_2 ← X25519.ssecret P localIdentityKey.Private handshake.ephermoralKey
  let DH_3 ← X25519.ssecret P usedPrivateSignedPreKey handshake.ephermoralKey
  match ← attempt Fault.isRuntimeError
    (inboundDerivation P usedPrivateOneTimePreKey handshake DH_1 DH_2 DH_3 PQSS) with
  | none => return none
  | some extract =>
    return some { MessagingSession.init with
      remoteIdentityKey := handshake.identityKey
      remoteRatchetKey := handshake.ephermoralKey
      rootKey := extract }

/-- `v[i]`: no bounds check, and no defined result past the end. -/
def vectorAt (v : List UInt32) (i : Nat) : Except Fault UInt32 :=
  match v[i]? with
  | some id => .ok id
  | none => .error .undefinedBehaviour

/-- The guarded load of a prekey's private half, as `create_inbound_session` writes
it three times: look the blob up, load `n` bytes at `offset`, and return `nullopt`
if there was no blob **or the load succeeded**. `some` is the zero-initialised key
as the load left it. -/
def loadPrekeyHalf (n : Nat) (id : UInt32) (type : KeyType) (offset : Nat) :
    GcryptM (Option (Key n)) := do
  match ← loadOneTimePrekey id type with
  | none => return none
  | some blob => do
    let (loaded, ref, _) ← liftExcept (loadKeybS blob (Key.zero : Key n) offset)
    return if loaded then none else some ref

/-- The guarded load of the identity pair: both halves from one blob, with the same
polarity. -/
def loadIdentityHalves : GcryptM (Option Xckeypair) := do
  match ← loadIdentityKeyPair with
  | none => return none
  | some pik => do
    let (loaded, Public, pik) ← liftExcept (loadKeybS pik (Key.zero : Xckey) 0)
    if loaded then return none
    else do
      let (loaded, Private, _) ← liftExcept (loadKeybS pik (Key.zero : Xckey) 32)
      return if loaded then none else some { Public, Private }

/-- The guarded load of the one-time prekey: `some none` where the handshake names
none, `none` where the function returns `nullopt`. -/
def loadOneTimeHalf (handshake : InitialMessageHandshake) : GcryptM (Option (Option Xckey)) := do
  if handshake.usedPreKeys.length > 1 then
    let oneTimeId ← liftExcept (vectorAt handshake.usedPreKeys 1)
    match ← loadPrekeyHalf 32 oneTimeId .prekey 32 with
    | none => return none
    | some usedPrivateOneTimePreKey => return some (some usedPrivateOneTimePreKey)
  else
    return some none

/-- `create_inbound_session`, the overload that queries the store. -/
def createInboundSession (handshake : InitialMessageHandshake) :
    GcryptM (Option MessagingSession) := do
  assertStore
  if handshake.usedPreKeys.length < 1 then
    return none
  else match ← loadIdentityHalves with
  | none => return none
  | some localIdentityKey => do
    let signedId ← liftExcept (vectorAt handshake.usedPreKeys 0)
    match ← loadPrekeyHalf 32 signedId .prekey 32 with
    | none => return none
    | some usedPrivateSignedPreKey => do
      match ← loadOneTimeHalf handshake with
      | none => return none
      | some usedPrivateOneTimePreKey => do
        let quantumId ← liftExcept (vectorAt handshake.usedPreKeys 1)
        match ← loadPrekeyHalf mlkemSkb quantumId .quantum mlkemSkb with
        | none => return none
        | some usedPrivateQuantumPreKey =>
          createInboundSessionExplicit P localIdentityKey usedPrivateSignedPreKey
            usedPrivateOneTimePreKey usedPrivateQuantumPreKey handshake

end Gcrypt
