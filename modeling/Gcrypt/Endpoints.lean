import Gcrypt.Marshalling
import Gcrypt.KeyAgreement
import Gcrypt.Interleavings
import Gcrypt.Randomness

/-!
# Gcrypt.Endpoints

`ext/java/jnib.cpp`: the native functions, as Java calls them one after the other.

The process keeps one thing between calls, the session of the last bundle made. A native
function that is left by an exception ends the process, and so does `restart`; the store and
the random bytes outlive it.

* Java receives no private key and no root key (`nothing_disclosed`).
* What it receives from the handshake functions is a message of an identity key that was
  generated here, to the owner of an authenticated bundle (`delivered_handshake`). The two
  functions differ in one comparison (`initializeExistingSession_eq`).
* A message survives the way through Java (`handshake_crosses_iff`), and the responder derives
  the initiator's root key from it (`delivered_message_agrees`).
-/

namespace Gcrypt.JniOM

open Effect Handshake

/-! ### Handshakes from Java -/

/-- An `IntArray` as the identifiers it holds. Null holds none. -/
def toIds (array : Option (List Int32)) : List UInt32 :=
  match array with
  | none => []
  | some array => array.map Int32.toUInt32

/-- `to::initial_handshake`. -/
def toInitialHandshake (jHandshake : Option GcryptInitialMessageHandshake) :
    Option InitialMessageHandshake :=
  match jHandshake with
  | none => none
  | some jHandshake =>
    match toKey x25519KeySize jHandshake.identityKey with
    | none => none
    | some identityKey =>
      match toKey x25519KeySize jHandshake.ephemeralKey with
      | none => none
      | some ephermoralKey =>
        match toKey mlkemPkb jHandshake.cipherText with
        | none => none
        | some cipherText => some {
            identityKey := identityKey
            ephermoralKey := ephermoralKey
            cipherText := cipherText
            usedPreKeys := toIds jHandshake.usedPreKeys
            usedQuantumPreKeys := toIds jHandshake.usedQuantumPreKeys }

theorem toIds_map (ids : List UInt32) : toIds (some (ids.map UInt32.toInt32)) = ids := by
  simp [toIds, Function.comp_def]

/-- The object has the bytes of the handshake, and its identifiers. -/
structure CarriesHandshake (j : GcryptInitialMessageHandshake) (hs : InitialMessageHandshake) :
    Prop where
  identityKey : j.identityKey = some (fromKey hs.identityKey)
  ephemeralKey : j.ephemeralKey = some (fromKey hs.ephermoralKey)
  cipherText : j.cipherText = some (fromKey hs.cipherText)
  usedPreKeys : toIds j.usedPreKeys = hs.usedPreKeys
  usedQuantumPreKeys : toIds j.usedQuantumPreKeys = hs.usedQuantumPreKeys

theorem toInitialHandshake_eq_some {j : GcryptInitialMessageHandshake}
    {hs : InitialMessageHandshake} :
    toInitialHandshake (some j) = some hs ↔ CarriesHandshake j hs := by
  constructor
  · intro h
    simp only [toInitialHandshake] at h
    cases hid : toKey x25519KeySize j.identityKey with
    | none => simp [hid] at h
    | some identityKey =>
      cases hek : toKey x25519KeySize j.ephemeralKey with
      | none => simp [hid, hek] at h
      | some ephermoralKey =>
        cases hct : toKey mlkemPkb j.cipherText with
        | none => simp [hid, hek, hct] at h
        | some cipherText =>
          simp only [hid, hek, hct, Option.some.injEq] at h
          rw [← h]
          exact ⟨toKey_eq_some.mp hid, toKey_eq_some.mp hek, toKey_eq_some.mp hct, rfl, rfl⟩
  · intro h
    have hid := toKey_eq_some.mpr h.identityKey
    have hek := toKey_eq_some.mpr h.ephemeralKey
    have hct : toKey mlkemPkb j.cipherText = some hs.cipherText := toKey_eq_some.mpr h.cipherText
    simp only [toInitialHandshake, hid, hek, hct, h.usedPreKeys, h.usedQuantumPreKeys]

theorem javaInitialHandshake_carries (hs : InitialMessageHandshake) :
    CarriesHandshake (javaInitialHandshake hs) hs where
  identityKey := rfl
  ephemeralKey := rfl
  cipherText := rfl
  usedPreKeys := toIds_map _
  usedQuantumPreKeys := toIds_map _

/-- **Round trip.** -/
theorem toInitialHandshake_java (hs : InitialMessageHandshake) :
    toInitialHandshake (some (javaInitialHandshake hs)) = some hs :=
  toInitialHandshake_eq_some.mpr (javaInitialHandshake_carries hs)

/-- **Round trip of a message.** A handshake reaches the library on the other side through
Java if and only if the class of the message is declared with all its fields, and then as it
was sent. -/
theorem handshake_crosses_iff (loader : ClassLoader)
    (handshake received : InitialMessageHandshake) :
    (∃ obj, initialHandshake loader handshake false = .ok (some obj) false ∧
        toInitialHandshake (some obj) = some received) ↔
      DeclaresObject loader .initialMessageHandshake initialHandshakeFields ∧
        received = handshake := by
  have hclean : Clean (DeclaresObject loader .initialMessageHandshake initialHandshakeFields)
      (initialHandshake loader handshake) (some (javaInitialHandshake handshake)) :=
    initialHandshake_clean handshake
  constructor
  · rintro ⟨obj, hobj, hreceived⟩
    obtain ⟨hdeclared, hobj⟩ := hclean.iff.mp hobj
    cases hobj
    rw [toInitialHandshake_java] at hreceived
    cases hreceived
    exact ⟨hdeclared, rfl⟩
  · rintro ⟨hdeclared, rfl⟩
    exact ⟨_, hclean.returns hdeclared, toInitialHandshake_java _⟩

/-! ### The process -/

/-- `jni_session`. -/
structure JniSession where
  IdentityKey : Xckeypair
  SignedPreKey : Xcikeypair

/-- The part of a bundle that is kept. -/
def JniSession.ofBundle (ref : LocalKeyBundle) : JniSession where
  IdentityKey := ref.IdentityKey
  SignedPreKey := ref.SignedPreKey

/-- The process with its `_GlobalSession`, and the world around it. -/
structure Device where
  session : Option JniSession
  world : World

/-- A native function, in the process that Java calls it in. -/
abbrev JavaM := EStateM Fault Device

/-- A call of the library. -/
def native {α : Type} (x : GcryptM α) : JavaM α := fun d =>
  match x d.world with
  | .ok a w => .ok a { d with world := w }
  | .error e w => .error e { d with world := w }

/-- The object a mapper returns to Java. With an exception pending Java gets that one
instead, which is not told apart from null. -/
def toJava {α : Type} (x : JniM (Option α)) : JavaM (Option α) := fun d =>
  match x false with
  | .ok obj pending => .ok (if pending then none else obj) d
  | .error e _ => .error e d

/-- `_GlobalSession` is read. -/
def globalSession : JavaM (Option JniSession) := fun d => .ok d.session d

/-- `_GlobalSession` is replaced. -/
def setGlobalSession (session : Option JniSession) : JavaM Unit := fun d =>
  .ok () { d with session := session }

variable (P : Primitives) (loader : ClassLoader)

/-! ### Native functions -/

/-- `makeLocalKeyBundle`. -/
def makeLocalKeyBundle (deviceId : Int32) : JavaM (Option GcryptLocalKeyBundle) := do
  let udId := deviceId.toUInt32
  let kbundle ← native (makeLkb P udId)
  setGlobalSession (some (.ofBundle kbundle))
  toJava (localKeyBundle loader kbundle)

/-- `refill`. -/
def refill (numKeys : Int32) : JavaM (Option GcryptKeyRefillPayload) := do
  match ← globalSession with
  | none => return none
  | some session => do
    let count := numKeys.toUInt32
    let payload ← native (Gcrypt.refill P session.IdentityKey.Private count)
    toJava (refillPayload loader payload)

/-- The second half of the two functions that initialize a session. -/
def initializeSession (session : JniSession) (identityToVerifyAgainst : Xckey)
    (bundle : ForeignPrekeyBundle) : JavaM (Option GcryptSessionInitResult) := do
  match ← native (createOutboundSession P session.IdentityKey identityToVerifyAgainst bundle) with
  | none => return none
  | some result => toJava (sessionInitResult loader result)

/-- `foreignpk_bundle`, of an object that Java passes. -/
def readBundle (foreignBundle : Option GcryptForeignPreKeyBundle) :
    JavaM (Option ForeignPrekeyBundle) := fun d =>
  match foreignpkBundle foreignBundle with
  | .ok bundle => .ok bundle d
  | .error e => .error e d

/-- `initializeNewSession`: the signatures are verified against the bundle's own key. -/
def initializeNewSession (foreignBundle : Option GcryptForeignPreKeyBundle) :
    JavaM (Option GcryptSessionInitResult) := do
  match ← globalSession with
  | none => return none
  | some session => do
    match ← readBundle foreignBundle with
    | none => return none
    | some bundle => initializeSession P loader session bundle.identityKey bundle

/-- `initializeExistingSession`: they are verified against a key that Java keeps. -/
def initializeExistingSession (_longTermIdentityKey : Option JbyteArray)
    (foreignBundle : Option GcryptForeignPreKeyBundle) :
    JavaM (Option GcryptSessionInitResult) := do
  match ← globalSession with
  | none => return none
  | some session => do
    match ← readBundle foreignBundle with
    | none => return none
    | some bundle =>
      match toKey x25519KeySize _longTermIdentityKey with
      | none => return none
      | some longTermIdentityKey => initializeSession P loader session longTermIdentityKey bundle

/-- `handleInitialHandshake`: the message is decoded, and that is all. -/
def handleInitialHandshake (message : Option GcryptInitialMessageHandshake) :
    JavaM (Option GcryptMessagingSession) := do
  match ← globalSession with
  | none => return none
  | some _ =>
    match toInitialHandshake message with
    | none => return none
    | some _ => return none

/-! ### Calls from Java -/

/-- A call of a native method, with the Java objects it is passed, or the end of the process and
the start of a new one. -/
inductive JavaCall
  | makeLocalKeyBundle (deviceId : Int32)
  | refill (numKeys : Int32)
  | initializeNewSession (foreignBundle : Option GcryptForeignPreKeyBundle)
  | initializeExistingSession (longTermIdentityKey : Option JbyteArray)
      (foreignBundle : Option GcryptForeignPreKeyBundle)
  | handleInitialHandshake (message : Option GcryptInitialMessageHandshake)
  | restart

/-- The object that Java gets, or null. -/
inductive JavaAnswer
  | localKeyBundle (obj : Option GcryptLocalKeyBundle)
  | refillPayload (obj : Option GcryptKeyRefillPayload)
  | sessionInitResult (obj : Option GcryptSessionInitResult)
  | messagingSession (obj : Option GcryptMessagingSession)
  | restarted

/-- The call in the process it is made in. -/
def JavaCall.enter : JavaCall → JavaM JavaAnswer
  | makeLocalKeyBundle deviceId => do
    return .localKeyBundle (← JniOM.makeLocalKeyBundle P loader deviceId)
  | refill numKeys => do
    return .refillPayload (← JniOM.refill P loader numKeys)
  | initializeNewSession foreignBundle => do
    return .sessionInitResult (← JniOM.initializeNewSession P loader foreignBundle)
  | initializeExistingSession longTermIdentityKey foreignBundle => do
    return .sessionInitResult
      (← JniOM.initializeExistingSession P loader longTermIdentityKey foreignBundle)
  | handleInitialHandshake message => do
    return .messagingSession (← JniOM.handleInitialHandshake message)
  | restart => do
    setGlobalSession none
    return .restarted

/-- A call, after which there is a new process where it threw. -/
def JavaCall.run (c : JavaCall) : JavaM JavaAnswer := fun d =>
  match c.enter P loader d with
  | .ok a d' => .ok a d'
  | .error e d' => .error e { d' with session := none }

/-! ### What one call does -/

section Calls

variable {P : Primitives} {loader : ClassLoader} {d d' : Device} {α : Type}

/-- A call of the library changes the world and nothing else. -/
theorem native_eq_ok {x : GcryptM α} {a : α} :
    native x d = .ok a d' ↔ x d.world = .ok a d'.world ∧ d'.session = d.session := by
  obtain ⟨session, world⟩ := d
  obtain ⟨session', world'⟩ := d'
  unfold native
  cases h : x world with
  | ok b w =>
    simp only [EStateM.Result.ok.injEq, Device.mk.injEq]
    tauto
  | error e w => simp

/-- Java gets what the mapper returns with no exception pending, or null. -/
theorem toJava_eq_ok {x : JniM (Option α)} {obj : Option α} (h : toJava x d = .ok obj d') :
    d' = d ∧ (obj = none ∨ x false = .ok obj false) := by
  unfold toJava at h
  cases hx : x false with
  | error e pending =>
    rw [hx] at h
    cases h
  | ok obj' pending =>
    rw [hx] at h
    cases pending with
    | true =>
      cases h
      exact ⟨rfl, Or.inl rfl⟩
    | false =>
      cases h
      exact ⟨rfl, Or.inr rfl⟩

/-- `makeLocalKeyBundle` starts a session, and returns null. -/
theorem makeLocalKeyBundle_returned {deviceId : Int32} {obj : Option GcryptLocalKeyBundle}
    (h : makeLocalKeyBundle P loader deviceId d = .ok obj d') :
    obj = none ∧ ∃ kbundle, makeLkb P deviceId.toUInt32 d.world = .ok kbundle d'.world ∧
      d'.session = some (.ofBundle kbundle) := by
  obtain ⟨kbundle, d₁, hmake, h⟩ := bind_eq_ok.mp h
  obtain ⟨hmake, -⟩ := native_eq_ok.mp hmake
  obtain ⟨⟨⟩, d₂, hset, h⟩ := bind_eq_ok.mp h
  cases hset
  obtain ⟨rfl, hobj⟩ := toJava_eq_ok h
  refine ⟨?_, kbundle, hmake, rfl⟩
  rcases hobj with hnull | hdelivered
  · exact hnull
  · exact absurd hdelivered (localKeyBundle_blocked hmake loader obj)

theorem globalSession_bind {f : Option JniSession → JavaM α} :
    (globalSession >>= f) d = f d.session d := bind_of_ok rfl

/-- It decodes, and answers null. -/
theorem handleInitialHandshake_eq (message : Option GcryptInitialMessageHandshake) :
    handleInitialHandshake message d = .ok none d := by
  rw [handleInitialHandshake, globalSession_bind]
  cases d.session with
  | none => rfl
  | some session => cases toInitialHandshake message <;> rfl

/-- A result that Java gets from the second half is one of the library. -/
theorem initializeSession_delivered {session : JniSession} {id : Xckey}
    {bundle : ForeignPrekeyBundle} {obj : GcryptSessionInitResult}
    (h : initializeSession P loader session id bundle d = .ok (some obj) d') :
    ∃ res, createOutboundSession P session.IdentityKey id bundle d.world
        = .ok (some res) d'.world ∧ obj = javaSessionInitResult res := by
  obtain ⟨r, d₁, hout, h⟩ := bind_eq_ok.mp h
  obtain ⟨hout, -⟩ := native_eq_ok.mp hout
  cases r with
  | none => cases h
  | some res =>
    obtain ⟨rfl, hnull | hdelivered⟩ := toJava_eq_ok h
    · cases hnull
    · obtain ⟨-, hobj⟩ := (sessionInitResult_clean res).iff.mp hdelivered
      exact ⟨res, hout, Option.some.inj hobj⟩

/-- The bundle is decoded, or the function ends there. -/
theorem readBundle_bind {foreignBundle : Option GcryptForeignPreKeyBundle}
    {f : Option ForeignPrekeyBundle → JavaM α} {a : α}
    (h : (readBundle foreignBundle >>= f) d = .ok a d') :
    ∃ bundle, foreignpkBundle foreignBundle = .ok bundle ∧ f bundle d = .ok a d' := by
  obtain ⟨bundle, d₁, hread, h⟩ := bind_eq_ok.mp h
  unfold readBundle at hread
  cases hf : foreignpkBundle foreignBundle with
  | error e =>
    rw [hf] at hread
    cases hread
  | ok bundle' =>
    rw [hf] at hread
    cases hread
    exact ⟨bundle, rfl, h⟩

theorem initializeNewSession_delivered {foreignBundle : Option GcryptForeignPreKeyBundle}
    {obj : GcryptSessionInitResult}
    (h : initializeNewSession P loader foreignBundle d = .ok (some obj) d') :
    ∃ session keys, d.session = some session ∧ foreignpkBundle foreignBundle = .ok (some keys) ∧
      initializeSession P loader session keys.identityKey keys d = .ok (some obj) d' := by
  rw [initializeNewSession, globalSession_bind] at h
  cases hs : d.session with
  | none =>
    rw [hs] at h
    cases h
  | some session =>
    rw [hs] at h
    obtain ⟨bundle, hread, h⟩ := readBundle_bind h
    cases bundle with
    | none => cases h
    | some keys => exact ⟨session, keys, rfl, hread, h⟩

theorem initializeExistingSession_delivered {longTerm : Option JbyteArray}
    {foreignBundle : Option GcryptForeignPreKeyBundle} {obj : GcryptSessionInitResult}
    (h : initializeExistingSession P loader longTerm foreignBundle d = .ok (some obj) d') :
    ∃ session keys id, d.session = some session ∧
      foreignpkBundle foreignBundle = .ok (some keys) ∧ toKey x25519KeySize longTerm = some id ∧
      initializeSession P loader session id keys d = .ok (some obj) d' := by
  rw [initializeExistingSession, globalSession_bind] at h
  cases hs : d.session with
  | none =>
    rw [hs] at h
    cases h
  | some session =>
    rw [hs] at h
    obtain ⟨bundle, hread, h⟩ := readBundle_bind h
    cases bundle with
    | none => cases h
    | some keys =>
      cases hid : toKey x25519KeySize longTerm with
      | none =>
        simp only [hid] at h
        cases h
      | some id =>
        simp only [hid] at h
        exact ⟨session, keys, id, rfl, hread, rfl, h⟩

theorem run_eq_ok {c : JavaCall} {a : JavaAnswer}
    (h : outcome (c.run P loader d) = .ok a) : ∃ d₁, c.enter P loader d = .ok a d₁ := by
  unfold JavaCall.run at h
  cases henter : c.enter P loader d with
  | ok b d₁ =>
    rw [henter] at h
    cases h
    exact ⟨d₁, rfl⟩
  | error e d₁ =>
    rw [henter] at h
    cases h

/-- The bundle is that of the key that Java keeps, if it is one. -/
def expects (longTermIdentityKey : Option JbyteArray)
    (foreignBundle : Option GcryptForeignPreKeyBundle) : Bool :=
  match foreignpkBundle foreignBundle with
  | .ok (some keys) => toKey x25519KeySize longTermIdentityKey = some keys.identityKey
  | _ => true

theorem expects_of_keys {longTerm : Option JbyteArray}
    {foreignBundle : Option GcryptForeignPreKeyBundle} {keys : ForeignPrekeyBundle}
    (h : foreignpkBundle foreignBundle = .ok (some keys)) :
    expects longTerm foreignBundle
      = decide (toKey x25519KeySize longTerm = some keys.identityKey) := by
  simp only [expects, h]

/-- A bundle of another identity is refused before anything is drawn. -/
theorem initializeSession_of_foreign (loader : ClassLoader) {session : JniSession} {id : Xckey}
    {keys : ForeignPrekeyBundle} (h : keys.identityKey ≠ id) (d : Device) :
    initializeSession P loader session id keys d = .ok none d := by
  have hout : native (createOutboundSession P session.IdentityKey id keys) d = .ok none d :=
    native_eq_ok.mpr ⟨outbound_of_rejected (verifyForeignBundle_of_foreign h), rfl⟩
  exact bind_of_ok hout

/-- **The two ways to initialize a session** are one program: with a key that Java keeps it is
run if the bundle has that key, and else nothing is done at all. -/
theorem initializeExistingSession_eq (P : Primitives) (loader : ClassLoader)
    (longTerm : Option JbyteArray) (foreignBundle : Option GcryptForeignPreKeyBundle) :
    initializeExistingSession P loader longTerm foreignBundle
      = if expects longTerm foreignBundle then initializeNewSession P loader foreignBundle
        else pure none := by
  funext d
  rw [apply_ite (fun x : JavaM (Option GcryptSessionInitResult) => x d),
    initializeExistingSession, initializeNewSession, globalSession_bind, globalSession_bind]
  cases d.session with
  | none => exact (ite_self _).symm
  | some session =>
    cases hread : foreignpkBundle foreignBundle with
    | error e =>
      have hexpects : expects longTerm foreignBundle = true := by simp only [expects, hread]
      have herror : readBundle foreignBundle d = .error e d := by simp only [readBundle, hread]
      rw [if_pos hexpects]
      exact (bind_of_error herror).trans (bind_of_error herror).symm
    | ok bundle =>
      have hok : readBundle foreignBundle d = .ok bundle d := by simp only [readBundle, hread]
      cases bundle with
      | none =>
        have hexpects : expects longTerm foreignBundle = true := by simp only [expects, hread]
        rw [if_pos hexpects]
        refine (bind_of_ok hok).trans (Eq.trans ?_ (bind_of_ok hok).symm)
        rfl
      | some keys =>
        rw [expects_of_keys hread]
        refine (bind_of_ok hok).trans ?_
        cases toKey x25519KeySize longTerm with
        | none => rw [if_neg (by simp)]
        | some id =>
          by_cases heq : keys.identityKey = id
          · rw [if_pos (by simp [heq])]
            refine Eq.trans ?_ (bind_of_ok hok).symm
            simp only [heq]
          · have hne : ¬ decide (some id = some keys.identityKey) = true := by
              simpa using fun h : id = keys.identityKey => heq h.symm
            rw [if_neg hne]
            exact initializeSession_of_foreign loader heq d

/-- The call is one that initializes a session over `keys`, and does not expect another key. -/
def JavaCall.Contacts (keys : ForeignPrekeyBundle) : JavaCall → Prop
  | initializeNewSession foreignBundle => foreignpkBundle foreignBundle = .ok (some keys)
  | initializeExistingSession longTermIdentityKey foreignBundle =>
    foreignpkBundle foreignBundle = .ok (some keys) ∧
      toKey x25519KeySize longTermIdentityKey = some keys.identityKey
  | _ => False

/-- **Inversion** of a call that delivers a result. -/
theorem JavaCall.delivered {c : JavaCall} {obj : GcryptSessionInitResult}
    (h : c.enter P loader d = .ok (.sessionInitResult (some obj)) d') :
    ∃ session keys res, d.session = some session ∧ c.Contacts keys ∧
      createOutboundSession P session.IdentityKey keys.identityKey keys d.world
        = .ok (some res) d'.world ∧ obj = javaSessionInitResult res := by
  cases c with
  | initializeNewSession foreignBundle =>
    obtain ⟨r, d₁, hinit, h⟩ := bind_eq_ok.mp h
    cases h
    obtain ⟨session, keys, hs, hread, hinit⟩ := initializeNewSession_delivered hinit
    obtain ⟨res, hout, hobj⟩ := initializeSession_delivered hinit
    exact ⟨session, keys, res, hs, hread, hout, hobj⟩
  | initializeExistingSession longTerm foreignBundle =>
    obtain ⟨r, d₁, hinit, h⟩ := bind_eq_ok.mp h
    cases h
    obtain ⟨session, keys, id, hs, hread, hid, hinit⟩ :=
      initializeExistingSession_delivered hinit
    obtain ⟨res, hout, hobj⟩ := initializeSession_delivered hinit
    -- A bundle of another identity would have been refused.
    have hauth : keys.identityKey = id := (authenticated_of_session hout).1.identity
    rw [← hauth] at hid hout
    exact ⟨session, keys, res, hs, ⟨hread, hid⟩, hout, hobj⟩
  | makeLocalKeyBundle deviceId =>
    obtain ⟨r, d₁, -, h⟩ := bind_eq_ok.mp h
    cases h
  | refill numKeys =>
    obtain ⟨r, d₁, -, h⟩ := bind_eq_ok.mp h
    cases h
  | handleInitialHandshake message =>
    obtain ⟨r, d₁, -, h⟩ := bind_eq_ok.mp h
    cases h
  | restart =>
    obtain ⟨r, d₁, -, h⟩ := bind_eq_ok.mp h
    cases h

end Calls

/-! ### Alice and Bob, over Java

Processes at the reference primitives, with the classes of `Structures.kt`. -/

/-- The encoding of a bundle. -/
def javaForeignBundle (keys : ForeignPrekeyBundle) : GcryptForeignPreKeyBundle where
  identityKey := some (fromKey keys.identityKey)
  signedPreKey := some (fromSidKey keys.signedPreKey)
  quantumPreKey := some (fromQuantumPreKey keys.qpubsidkey)
  oneTimePreKey := keys.oneTimePreKey.map fromIdKey

theorem foreignpkBundle_java (keys : ForeignPrekeyBundle) :
    foreignpkBundle (some (javaForeignBundle keys)) = .ok (some keys) :=
  foreignpkBundle_of_carries ⟨rfl, rfl, rfl, rfl⟩

section Contact

variable {P : Primitives} {loader : ClassLoader}

/-- Where the classes are declared, Java receives what the library returns. -/
theorem contact_run {session : JniSession} {keys : ForeignPrekeyBundle} {res : SessionInitResult}
    {w w' : World}
    (hjava : sessionInitResult loader res false = .ok (some (javaSessionInitResult res)) false)
    (hout : createOutboundSession P session.IdentityKey keys.identityKey keys w
      = .ok (some res) w') :
    (JavaCall.initializeNewSession (some (javaForeignBundle keys))).run P loader ⟨some session, w⟩
      = .ok (.sessionInitResult (some (javaSessionInitResult res))) ⟨some session, w'⟩ := by
  have hread : readBundle (some (javaForeignBundle keys)) ⟨some session, w⟩
      = .ok (some keys) ⟨some session, w⟩ := by
    simp only [readBundle, foreignpkBundle_java]
  have hnative : native (createOutboundSession P session.IdentityKey keys.identityKey keys)
      ⟨some session, w⟩ = .ok (some res) ⟨some session, w'⟩ := native_eq_ok.mpr ⟨hout, rfl⟩
  have hreceived : toJava (sessionInitResult loader res) ⟨some session, w'⟩
      = .ok (some (javaSessionInitResult res)) ⟨some session, w'⟩ := by
    simp only [toJava, hjava]
    rfl
  have hinit : initializeNewSession P loader (some (javaForeignBundle keys)) ⟨some session, w⟩
      = .ok (some (javaSessionInitResult res)) ⟨some session, w'⟩ := by
    rw [initializeNewSession, globalSession_bind]
    refine (bind_of_ok hread).trans ?_
    exact (bind_of_ok hnative).trans hreceived
  have henter : (JavaCall.initializeNewSession (some (javaForeignBundle keys))).enter P loader
      ⟨some session, w⟩
        = .ok (.sessionInitResult (some (javaSessionInitResult res))) ⟨some session, w'⟩ :=
    bind_of_ok hinit
  simp only [JavaCall.run, henter]

end Contact

def bobsBundle : ForeignPrekeyBundle := bobBundle (.inl signedQuantum)

/-- The call that initializes a session with Bob. -/
def contactBob : JavaCall := .initializeNewSession (some (javaForeignBundle bobsBundle))

theorem contactBob_contacts : contactBob.Contacts bobsBundle := foreignpkBundle_java _

theorem contactBob_run (session : JniSession) {res : SessionInitResult} {w w' : World}
    (hout : createOutboundSession Reference.primitives session.IdentityKey bobPair.Public
      bobsBundle w = .ok (some res) w') :
    contactBob.run Reference.primitives structuresKt ⟨some session, w⟩
      = .ok (.sessionInitResult (some (javaSessionInitResult res))) ⟨some session, w'⟩ := by
  have hid : bobsBundle.identityKey = bobPair.Public := rfl
  rw [← hid] at hout
  exact contact_run (sessionInitResult_structuresKt res) hout

/-- A new process on a new device. -/
def newProcess : Device := ⟨none, newDevice⟩

/-- Java receives no bundle, but the process has a session. -/
theorem makeLocalKeyBundle_run {P : Primitives} {deviceId : Int32} {kbundle : LocalKeyBundle}
    (session : Option JniSession) {w w' : World}
    (hmake : makeLkb P deviceId.toUInt32 w = .ok kbundle w') :
    (JavaCall.makeLocalKeyBundle deviceId).run P structuresKt ⟨session, w⟩
      = .ok (.localKeyBundle none) ⟨some (.ofBundle kbundle), w'⟩ := by
  have hnative : native (makeLkb P deviceId.toUInt32) ⟨session, w⟩ = .ok kbundle ⟨session, w'⟩ :=
    native_eq_ok.mpr ⟨hmake, rfl⟩
  have hbundle : makeLocalKeyBundle P structuresKt deviceId ⟨session, w⟩
      = .ok none ⟨some (.ofBundle kbundle), w'⟩ := by
    refine (bind_of_ok hnative).trans ?_
    rfl
  have henter : (JavaCall.makeLocalKeyBundle deviceId).enter P structuresKt ⟨session, w⟩
      = .ok (.localKeyBundle none) ⟨some (.ofBundle kbundle), w'⟩ := bind_of_ok hbundle
  simp only [JavaCall.run, henter]

/-- Alice's first pair, and everything drawn for a session with Bob. -/
theorem session_of_newDevice {w : World} (hw : w.entropy = zeroWorld.entropy) :
    ∃ res w', createOutboundSession Reference.primitives
      (Keygen.nextBoxPair Reference.primitives newDevice) bobPair.Public bobsBundle w
        = .ok (some res) w' := by
  obtain ⟨ct, ss, henc, -⟩ := Reference.zeroSeedPair_roundtrip
  have heph : ephemeral Reference.primitives w = ephemeral Reference.primitives zeroWorld :=
    nextBoxPair_congr hw
  have hcoins : encapsulationCoins w = Key.zero :=
    (peek_congr (skip_entropy_congr hw 32) 32).trans zeroWorld_coins
  have hmand : (Agreement.secrets (dh Reference.primitives)
      [((Keygen.nextBoxPair Reference.primitives newDevice).Private, signedPair.Public),
        ((ephemeral Reference.primitives zeroWorld).Private, bobPair.Public),
        ((ephemeral Reference.primitives zeroWorld).Private, signedPair.Public)]).isSome := by
    decide +kernel
  obtain ⟨ds, hds⟩ := Option.isSome_iff_exists.mp hmand
  obtain ⟨es, hes⟩ := Option.isSome_iff_exists.mp (bobBundle_secrets (.inl signedQuantum)).2
  obtain ⟨SK, hSK⟩ := rootKey_reference (ds ++ es ++ [ss])
  rw [← heph] at hds hes
  rw [← hcoins] at henc
  have hauthentic : Authenticated Reference.primitives bobPair.Public
      (bobBundle (.inl signedQuantum)) := bobBundle_authenticated (by simp)
  obtain ⟨w', hw'⟩ := outbound_of_steps (verifyForeignBundle_eq_true_iff.mpr hauthentic) henc hds
  rw [derive, hes, Option.bind_some, hSK, Option.map_some] at hw'
  exact ⟨_, w', hw'⟩

/-- A first bundle, and a first session. -/
theorem newProcess_contacts : ∃ obj,
    (contactBob, .ok (.sessionInitResult (some obj)))
      ∈ answers (JavaCall.run Reference.primitives structuresKt)
        [.makeLocalKeyBundle 0, contactBob] newProcess := by
  obtain ⟨lkb, w, hlkb⟩ := makeLkb_returns reference_mlkimplKeypair (0 : Int32).toUInt32
    (show newDevice.manager = some _ from rfl) rfl
  obtain ⟨m, g, -, -, hg, rfl, hentropy⟩ := makeLkb_drawn hlkb
  have hmade := makeLocalKeyBundle_run none hlkb
  have hzero : w.entropy = zeroWorld.entropy := by
    rw [hentropy]
    funext i
    exact if_pos (Or.inr (Nat.le_add_right 9728 i))
  obtain ⟨res, w', hout⟩ := session_of_newDevice hzero
  rw [← hg.identity] at hout
  have hcontact := contactBob_run (.ofBundle (g.bundle Reference.primitives)) hout
  refine ⟨javaSessionInitResult res, ?_⟩
  rw [answers, newProcess, hmade, finalState_ok, answers, hcontact, outcome_ok]
  exact List.mem_cons_of_mem _ List.mem_cons_self

/-! ### Runs -/

section Runs

variable {P : Primitives} {loader : ClassLoader} {d d' : Device} {α : Type}

/-- The answer has a private key or a root key in it. -/
def JavaAnswer.Discloses : JavaAnswer → Prop
  | localKeyBundle obj => obj.isSome
  | sessionInitResult obj => ∃ result, obj = some result ∧ result.session.isSome
  | messagingSession obj => obj.isSome
  | refillPayload _ | restarted => False

/-- **No secret reaches Java** in any run, whatever classes it has: the bundle of
`makeLocalKeyBundle` is never delivered, and a session is never converted. -/
theorem nothing_disclosed (P : Primitives) (loader : ClassLoader) {calls : List JavaCall}
    {d : Device} {c : JavaCall} {a : JavaAnswer}
    (h : (c, .ok a) ∈ answers (JavaCall.run P loader) calls d) : ¬ a.Discloses := by
  obtain ⟨before, after, -, hanswer⟩ := mem_answers h
  obtain ⟨d₁, hrun⟩ := run_eq_ok hanswer.symm
  cases a with
  | localKeyBundle obj =>
    cases c with
    | makeLocalKeyBundle deviceId =>
      obtain ⟨r, d₂, hmake, hret⟩ := bind_eq_ok.mp hrun
      cases hret
      rw [(makeLocalKeyBundle_returned hmake).1]
      exact Bool.false_ne_true
    | _ =>
      obtain ⟨r, d₂, -, hret⟩ := bind_eq_ok.mp hrun
      cases hret
  | sessionInitResult obj =>
    rintro ⟨result, rfl, hsession⟩
    obtain ⟨session, keys, res, -, -, -, rfl⟩ := JavaCall.delivered hrun
    exact Bool.false_ne_true hsession
  | messagingSession obj =>
    cases c with
    | handleInitialHandshake message =>
      obtain ⟨r, d₂, hhandle, hret⟩ := bind_eq_ok.mp hrun
      cases hret
      rw [handleInitialHandshake_eq] at hhandle
      cases hhandle
      exact Bool.false_ne_true
    | _ =>
      obtain ⟨r, d₂, -, hret⟩ := bind_eq_ok.mp hrun
      cases hret
  | refillPayload obj => exact id
  | restarted => exact id

theorem nothing_disclosed_newProcess : ∃ obj : GcryptSessionInitResult,
    ¬ (JavaAnswer.sessionInitResult (some obj)).Discloses := by
  obtain ⟨obj, h⟩ := newProcess_contacts
  exact ⟨obj, nothing_disclosed Reference.primitives structuresKt h⟩

/-- What a call other than `makeLocalKeyBundle` and `restart` leaves. -/
structure Continues (d d' : Device) : Prop where
  session : d'.session = d.session
  grows : TraceGrows d.world d'.world

theorem continues_frame : Frame Continues where
  refl _ := ⟨rfl, traceGrows_of_same rfl⟩
  trans h h' :=
    ⟨h'.session.trans h.session, traceGrows_publishFrame.frame.trans h.grows h'.grows⟩

theorem native_continues {x : GcryptM α} (hx : Keeps TraceGrows x) :
    Keeps Continues (native x) := by
  intro d
  have hgrows := hx d.world
  unfold native
  cases h : x d.world with
  | ok a w =>
    rw [h] at hgrows
    exact ⟨rfl, hgrows⟩
  | error e w =>
    rw [h] at hgrows
    exact ⟨rfl, hgrows⟩

theorem toJava_continues (x : JniM (Option α)) : Keeps Continues (toJava x) := by
  intro d
  unfold toJava
  cases x false <;> exact continues_frame.refl d

theorem globalSession_continues : Keeps Continues globalSession := continues_frame.refl

theorem readBundle_continues (foreignBundle : Option GcryptForeignPreKeyBundle) :
    Keeps Continues (readBundle foreignBundle) := by
  intro d
  unfold readBundle
  cases foreignpkBundle foreignBundle <;> exact continues_frame.refl d

theorem refill_continues (numKeys : Int32) : Keeps Continues (refill P loader numKeys) := by
  refine Keeps.bind continues_frame globalSession_continues fun session => ?_
  cases session with
  | none => exact Keeps.pure continues_frame none
  | some session =>
    refine Keeps.bind continues_frame
      (native_continues (keeps_refill traceGrows_publishFrame _ _)) fun payload => ?_
    exact toJava_continues _

theorem initializeSession_continues (session : JniSession) (id : Xckey)
    (bundle : ForeignPrekeyBundle) :
    Keeps Continues (initializeSession P loader session id bundle) := by
  refine Keeps.bind continues_frame (native_continues
    (traceGrows_publishFrame.draws.createOutboundSession _ _ _)) fun r => ?_
  cases r with
  | none => exact Keeps.pure continues_frame none
  | some result => exact toJava_continues _

theorem initializeNewSession_continues (foreignBundle : Option GcryptForeignPreKeyBundle) :
    Keeps Continues (initializeNewSession P loader foreignBundle) := by
  refine Keeps.bind continues_frame globalSession_continues fun session => ?_
  cases session with
  | none => exact Keeps.pure continues_frame none
  | some session =>
    refine Keeps.bind continues_frame (readBundle_continues foreignBundle) fun bundle => ?_
    cases bundle with
    | none => exact Keeps.pure continues_frame none
    | some bundle => exact initializeSession_continues session _ bundle

theorem initializeExistingSession_continues (longTerm : Option JbyteArray)
    (foreignBundle : Option GcryptForeignPreKeyBundle) :
    Keeps Continues (initializeExistingSession P loader longTerm foreignBundle) := by
  refine Keeps.bind continues_frame globalSession_continues fun session => ?_
  cases session with
  | none => exact Keeps.pure continues_frame none
  | some session =>
    refine Keeps.bind continues_frame (readBundle_continues foreignBundle) fun bundle => ?_
    cases bundle with
    | none => exact Keeps.pure continues_frame none
    | some bundle =>
      dsimp only
      cases toKey x25519KeySize longTerm with
      | none => exact Keeps.pure continues_frame none
      | some id => exact initializeSession_continues session id bundle

/-- The identity key of the session was generated since `w`. -/
structure Device.Rooted (w : World) (d : Device) : Prop where
  grows : TraceGrows w d.world
  generated : ∀ session, d.session = some session →
    .boxKeypair session.IdentityKey ∈ w.newEvents d.world

theorem Device.Rooted.continues {w : World} (h : d.Rooted w) (hd : Continues d d') :
    d'.Rooted w := by
  refine ⟨traceGrows_publishFrame.frame.trans h.grows hd.grows, ?_⟩
  intro session hsession
  rw [newEvents_trans h.grows hd.grows]
  exact List.mem_append_left _ (h.generated session (hd.session.symm.trans hsession))

/-- The bundle that starts a session was generated in the call. -/
theorem Device.Rooted.made {w : World} (h : d.Rooted w) {deviceId : UInt32}
    {kbundle : LocalKeyBundle} (hmake : makeLkb P deviceId d.world = .ok kbundle d'.world)
    (hsession : d'.session = some (.ofBundle kbundle)) : d'.Rooted w := by
  obtain ⟨g, -, -, htrace, rfl⟩ := makeLkb_returned hmake
  have hgrows : TraceGrows d.world d'.world := ⟨_, htrace⟩
  refine ⟨traceGrows_publishFrame.frame.trans h.grows hgrows, ?_⟩
  intro session hsession'
  rw [newEvents_trans h.grows hgrows, htrace.newEvents]
  cases hsession'.symm.trans hsession
  exact List.mem_append_right _ (List.mem_append_left _ (List.mem_append_left _
    List.mem_cons_self))

/-! Whatever is called, and however it ends, the trace only grows. -/

/-- The trace of the world has only grown. -/
def Grows (d d' : Device) : Prop := TraceGrows d.world d'.world

theorem grows_frame : Frame Grows where
  refl _ := traceGrows_of_same rfl
  trans h h' := traceGrows_publishFrame.frame.trans h h'

theorem Continues.keepsGrows {x : JavaM α} (hx : Keeps Continues x) : Keeps Grows x :=
  fun d => (hx d).grows

theorem JavaCall.enter_grows (c : JavaCall) : Keeps Grows (c.enter P loader) := by
  have hthen {α : Type} {x : JavaM α} (f : α → JavaAnswer) (hx : Keeps Continues x) :
      Keeps Grows (x >>= fun a => pure (f a)) :=
    Continues.keepsGrows (Keeps.bind continues_frame hx fun _ => Keeps.pure continues_frame _)
  cases c with
  | makeLocalKeyBundle deviceId =>
    refine Keeps.bind grows_frame ?_ fun _ => Keeps.pure grows_frame _
    refine Keeps.bind grows_frame (Continues.keepsGrows
      (native_continues (keeps_makeLkb traceGrows_publishFrame _))) fun kbundle => ?_
    refine Keeps.bind grows_frame (fun d => grows_frame.refl d) fun _ => ?_
    exact Continues.keepsGrows (toJava_continues _)
  | refill numKeys => exact hthen _ (refill_continues numKeys)
  | initializeNewSession foreignBundle =>
    exact hthen _ (initializeNewSession_continues foreignBundle)
  | initializeExistingSession longTerm foreignBundle =>
    exact hthen _ (initializeExistingSession_continues longTerm foreignBundle)
  | handleInitialHandshake message =>
    refine hthen _ fun d => ?_
    rw [handleInitialHandshake_eq]
    exact continues_frame.refl d
  | restart =>
    exact Keeps.bind grows_frame (fun d => grows_frame.refl d) fun _ => Keeps.pure grows_frame _

theorem Device.Rooted.of_no_session {w : World} (hgrows : TraceGrows w d.world)
    (hsession : d.session = none) : d.Rooted w := by
  refine ⟨hgrows, fun session h => ?_⟩
  rw [hsession] at h
  cases h

/-- **Step.** If the identity key of the session was generated since `w`, then so it was after
one more call, whatever the call does to the session. -/
theorem Device.Rooted.run {w : World} (h : d.Rooted w) (c : JavaCall) :
    (finalState (c.run P loader d)).Rooted w := by
  have hgrows : Grows d (finalState (c.enter P loader d)) := c.enter_grows d
  unfold JavaCall.run
  cases henter : c.enter P loader d with
  | error e d₁ =>
    rw [henter] at hgrows
    exact .of_no_session (traceGrows_publishFrame.frame.trans h.grows hgrows) rfl
  | ok a d₁ =>
    have hthen {α : Type} {x : JavaM α} {f : α → JavaAnswer} (hx : Keeps Continues x)
        (hret : (x >>= fun a => pure (f a)) d = .ok a d₁) : d₁.Rooted w :=
      h.continues ((Keeps.bind continues_frame hx fun _ =>
        Keeps.pure continues_frame _).of_ok hret)
    cases c with
    | makeLocalKeyBundle deviceId =>
      obtain ⟨obj, d₂, hmake, hret⟩ := bind_eq_ok.mp henter
      cases hret
      obtain ⟨-, kbundle, hmake, hsession⟩ := makeLocalKeyBundle_returned hmake
      exact h.made hmake hsession
    | refill numKeys => exact hthen (refill_continues numKeys) henter
    | initializeNewSession foreignBundle =>
      exact hthen (initializeNewSession_continues foreignBundle) henter
    | initializeExistingSession longTerm foreignBundle =>
      exact hthen (initializeExistingSession_continues longTerm foreignBundle) henter
    | handleInitialHandshake message =>
      refine hthen (fun d => ?_) henter
      rw [handleInitialHandshake_eq]
      exact continues_frame.refl d
    | restart =>
      rw [henter] at hgrows
      cases henter
      exact .of_no_session (traceGrows_publishFrame.frame.trans h.grows hgrows) rfl

/-- **Run.** The same after any calls. -/
theorem Device.Rooted.runEnd {w : World} (h : d.Rooted w) (calls : List JavaCall) :
    (runEnd (JavaCall.run P loader) calls d).Rooted w := by
  induction calls generalizing d with
  | nil => exact h
  | cons c calls ih => exact ih (h.run c)

theorem runEnd_grows (calls : List JavaCall) (d : Device) :
    Grows d (Effect.runEnd (JavaCall.run P loader) calls d) := by
  refine runEnd_keeps grows_frame (fun c d => ?_) calls d
  have hgrows : Grows d (finalState (c.enter P loader d)) := c.enter_grows d
  unfold JavaCall.run
  cases henter : c.enter P loader d with
  | ok a d₁ =>
    rw [henter] at hgrows
    exact hgrows
  | error e d₁ =>
    rw [henter] at hgrows
    exact hgrows

/-- **Handshakes that Java receives.** In every run that begins with a new process, a result
that Java receives has no session, and its message decodes to a handshake: of an identity
key that was generated in the run, with the owner of a bundle that is authenticated under
the key it was to be verified against, over the prekeys of that bundle. -/
theorem delivered_handshake (P : Primitives) (loader : ClassLoader) {calls : List JavaCall}
    {d : Device} {c : JavaCall} {obj : GcryptSessionInitResult} (hnew : d.session = none)
    (h : (c, .ok (.sessionInitResult (some obj))) ∈ answers (JavaCall.run P loader) calls d) :
    ∃ pair keys hs,
      .boxKeypair pair ∈ d.world.newEvents (runEnd (JavaCall.run P loader) calls d).world ∧
      c.Contacts keys ∧ Authenticated P keys.identityKey keys ∧
      obj.session = none ∧ toInitialHandshake obj.handshakeMessage = some hs ∧
      hs.identityKey = pair.Public ∧
      hs.usedPreKeys = keys.signedPreKey.identifier ::
        (keys.oneTimePreKey.map (·.identifier)).toList ∧
      hs.usedQuantumPreKeys = [keys.quantumKeyId] ∧
      ∃ coins ss, P.mlkimplEnc keys.quantumKey coins = .ok (hs.cipherText, ss) := by
  obtain ⟨before, after, rfl, hanswer⟩ := mem_answers h
  obtain ⟨d₁, hrun⟩ := run_eq_ok hanswer.symm
  obtain ⟨session, keys, res, hsession, hcontacts, hout, rfl⟩ := JavaCall.delivered hrun
  -- The session of the process is as the calls before left it.
  have hrooted : (Effect.runEnd (JavaCall.run P loader) before d).Rooted d.world :=
    (Device.Rooted.of_no_session (traceGrows_of_same rfl) hnew).runEnd before
  have hlater : Grows (Effect.runEnd (JavaCall.run P loader) before d)
      (Effect.runEnd (JavaCall.run P loader) (c :: after)
        (Effect.runEnd (JavaCall.run P loader) before d)) := runEnd_grows (c :: after) _
  have hpair : .boxKeypair session.IdentityKey ∈ d.world.newEvents
      (Effect.runEnd (JavaCall.run P loader) (before ++ c :: after) d).world := by
    rw [runEnd_append, newEvents_trans hrooted.grows hlater]
    exact List.mem_append_left _ (hrooted.generated session hsession)
  obtain ⟨ct, ss, ds, SK, hverified, henc, -, -, rfl⟩ := outbound_eq_some hout
  refine ⟨session.IdentityKey, keys, _, hpair, hcontacts,
    verifyForeignBundle_eq_true_iff.mp hverified, rfl, toInitialHandshake_java _, rfl, ?_, rfl,
    _, ss, henc⟩
  unfold finalizeOutboundSession
  cases keys.oneTimePreKey <;> rfl

theorem delivered_handshake_newProcess : ∃ (obj : GcryptSessionInitResult) (pair : Xckeypair)
    (keys : ForeignPrekeyBundle) (hs : InitialMessageHandshake),
    .boxKeypair pair ∈ newProcess.world.newEvents
      (runEnd (JavaCall.run Reference.primitives structuresKt)
        [.makeLocalKeyBundle 0, contactBob] newProcess).world ∧
    contactBob.Contacts keys ∧ Authenticated Reference.primitives keys.identityKey keys ∧
    obj.session = none ∧ toInitialHandshake obj.handshakeMessage = some hs ∧
    hs.identityKey = pair.Public ∧
    hs.usedPreKeys = keys.signedPreKey.identifier ::
      (keys.oneTimePreKey.map (·.identifier)).toList ∧
    hs.usedQuantumPreKeys = [keys.quantumKeyId] ∧
    ∃ coins ss, Reference.primitives.mlkimplEnc keys.quantumKey coins
      = .ok (hs.cipherText, ss) := by
  obtain ⟨obj, h⟩ := newProcess_contacts
  exact ⟨obj, delivered_handshake Reference.primitives structuresKt rfl h⟩

end Runs

/-! ### Agreement -/

section Agreement

variable {P : Primitives} {loader : ClassLoader}

theorem JavaCall.Contacts.unique {c : JavaCall} {keys keys' : ForeignPrekeyBundle}
    (h : c.Contacts keys) (h' : c.Contacts keys') : keys = keys' := by
  cases c with
  | initializeNewSession foreignBundle =>
    exact Option.some.inj (Except.ok.inj (Eq.trans (Eq.symm h) h'))
  | initializeExistingSession longTerm foreignBundle =>
    exact Option.some.inj (Except.ok.inj (h.1.symm.trans h'.1))
  | _ => exact h.elim

/-- The responder's derivation, where both sides use the key pairs of one agenda. -/
theorem inboundAnswer_of_agree {alice ek : Xckeypair} {bob : ResponderKeys} {coins : Key 32}
    {keys : ForeignPrekeyBundle} {ct : Key mlkemCtb} {ss : Key mlkemBytes} {ds : List Xckey}
    {SK : Key 32} (ho : Offers keys bob) (hp : PrimitivesAgree P alice ek bob coins)
    (henc : P.mlkimplEnc keys.quantumKey coins = .ok (ct, ss))
    (hds : Agreement.secrets (dh P) (outboundQueries alice ek keys) = some ds)
    (hSK : derive P ds (outboundOptional ek keys) ss = some SK)
    (hbob : ResponderSucceeds P bob
      (finalizeOutboundSession alice.Public ek.Public ct SK keys).handshakeMessage) :
    inboundAnswer P bob.identity bob.signedPreKey.Private (bob.oneTimePreKey.map (·.Private))
        bob.quantumPreKey.Private
        (finalizeOutboundSession alice.Public ek.Public ct SK keys).handshakeMessage
      = some (some (inboundSession
          (finalizeOutboundSession alice.Public ek.Public ct SK keys).handshakeMessage SK)) := by
  obtain ⟨⟨ss', hdec⟩, ⟨ds', hds'⟩, ⟨es', hes'⟩⟩ := hbob
  obtain ⟨es, hes, hroot⟩ := Option.bind_eq_some_iff.mp hSK
  have hss : ss' = ss := by
    rw [ho.quantumPreKey] at henc
    exact (hp.kem ct ss ss' henc hdec).symm
  have hmandatory : ds' = ds := by
    rw [outboundQueries_eq ho] at hds
    rw [inboundQueries_eq alice ek rfl rfl] at hds'
    exact (Agreement.initiator_eq_responder (agenda_agree hp) hds hds').symm
  have hoptional : es' = es := by
    rw [outboundOptional_eq ho] at hes
    rw [inboundOptional_eq ek rfl] at hes'
    exact (Agreement.initiator_eq_responder (optionalAgenda_agree hp) hes hes').symm
  rw [hss] at hdec
  rw [hmandatory] at hds'
  rw [hoptional] at hes'
  refine inboundAnswer_eq_session.mpr ⟨SK, ⟨ss, ds, hdec, hds', ?_⟩, rfl⟩
  rw [derive, hes']
  exact hroot

/-- **Agreement over Java.** A message that Java receives for the owner of a bundle decodes on
the other side, and there the owner derives the root key that the library derived here and did
not give to Java. -/
theorem delivered_message_agrees (P : Primitives) (loader : ClassLoader) {d : Device}
    {session : JniSession} {c : JavaCall} {obj : GcryptSessionInitResult}
    {keys : ForeignPrekeyBundle} {bob : ResponderKeys} {hs : InitialMessageHandshake}
    (hsession : d.session = some session) (hc : c.Contacts keys) (ho : Offers keys bob)
    (hp : PrimitivesAgree P session.IdentityKey (ephemeral P d.world) bob
      (encapsulationCoins d.world))
    (h : outcome (c.run P loader d) = .ok (.sessionInitResult (some obj)))
    (hdecoded : toInitialHandshake obj.handshakeMessage = some hs)
    (hbob : ResponderSucceeds P bob hs) (v : World) :
    ∃ res w' s v₁,
      createOutboundSession P session.IdentityKey bob.identity.Public keys d.world
        = .ok (some res) w' ∧
      createInboundSessionExplicit P bob.identity bob.signedPreKey.Private
        (bob.oneTimePreKey.map (·.Private)) bob.quantumPreKey.Private hs v = .ok (some s) v₁ ∧
      s.rootKey = res.session.rootKey ∧ s.remoteIdentityKey = session.IdentityKey.Public ∧
      obj.session = none := by
  obtain ⟨d₁, hrun⟩ := run_eq_ok h
  obtain ⟨session', keys', res, hsession', hcontacts, hout, rfl⟩ := JavaCall.delivered hrun
  obtain rfl := hc.unique hcontacts
  obtain rfl : session = session' := Option.some.inj (hsession.symm.trans hsession')
  rw [ho.identity] at hout
  have hmessage : toInitialHandshake (javaSessionInitResult res).handshakeMessage
      = some res.handshakeMessage := toInitialHandshake_java _
  obtain rfl : res.handshakeMessage = hs := Option.some.inj (hmessage.symm.trans hdecoded)
  obtain ⟨ct, ss, ds, SK, -, henc, hds, hSK, rfl⟩ := outbound_eq_some hout
  have hanswered := inboundAnswer_of_agree ho hp henc hds hSK hbob
  obtain ⟨v₁, hin⟩ := outcome_eq_ok (inbound_outcome_iff (w := v).mpr hanswered)
  exact ⟨_, _, _, v₁, hout, hin, rfl, rfl, rfl⟩

def aliceSession : JniSession := ⟨alicePair, ⟨⟨signedPair.Public, 0⟩, signedPair.Private⟩⟩

/-- Alice's process. -/
def aliceProcess : Device := ⟨some aliceSession, zeroWorld⟩

theorem delivered_message_agrees_bob : ∃ obj hs,
    outcome (contactBob.run Reference.primitives structuresKt aliceProcess)
      = .ok (.sessionInitResult (some obj)) ∧
    toInitialHandshake obj.handshakeMessage = some hs ∧
    ∃ res w' s v₁,
      createOutboundSession Reference.primitives alicePair bobPair.Public bobsBundle zeroWorld
        = .ok (some res) w' ∧
      createInboundSessionExplicit Reference.primitives bobPair signedPair.Private
        (some oneTimePair.Private) Reference.zeroSeedPair.Private hs zeroWorld
        = .ok (some s) v₁ ∧
      s.rootKey = res.session.rootKey ∧ s.remoteIdentityKey = alicePair.Public ∧
      obj.session = none := by
  obtain ⟨ct, ss, henc, hdec⟩ := Reference.zeroSeedPair_roundtrip
  obtain ⟨SK, w', hout⟩ := session_with_bob (.inl signedQuantum) (by simp) henc
  have hoffers : Offers bobsBundle bobKeys := ⟨rfl, rfl, rfl, rfl⟩
  have hsucceed : ResponderSucceeds Reference.primitives bobKeys
      (finalizeOutboundSession alicePair.Public (ephemeral Reference.primitives
        zeroWorld).Public ct SK (bobBundle (.inl signedQuantum))).handshakeMessage :=
    bobKeys_succeed hdec
  have hrun := contactBob_run aliceSession hout
  generalize finalizeOutboundSession alicePair.Public (ephemeral Reference.primitives
    zeroWorld).Public ct SK (bobBundle (.inl signedQuantum)) = res at hrun hsucceed
  have hmessage : toInitialHandshake (javaSessionInitResult res).handshakeMessage
      = some res.handshakeMessage := toInitialHandshake_java res.handshakeMessage
  have houtcome : outcome (contactBob.run Reference.primitives structuresKt aliceProcess)
      = .ok (.sessionInitResult (some (javaSessionInitResult res))) := congrArg outcome hrun
  have hsession : aliceProcess.session = some aliceSession := rfl
  refine ⟨_, _, houtcome, hmessage, ?_⟩
  exact delivered_message_agrees Reference.primitives structuresKt hsession contactBob_contacts
    hoffers bobKeys_agree houtcome hmessage hsucceed zeroWorld

end Agreement

end Gcrypt.JniOM
