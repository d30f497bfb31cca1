import Gcrypt.Library.Latch
import Gcrypt.Generated
import Gcrypt.Jnib

/-!
# Gcrypt.Marshalling

`gcrypt::jniOM::from`: Java objects made of the library's results.

A mapper looks up a class, its constructor and its fields by name. A lookup that fails
answers null with a Java exception pending; while one is pending a JNI call has no defined
result, and an object returned does not reach Java. So an object is *delivered* if its
mapper returns it with no exception pending.

What has to be declared on the Java side for that is a condition on the class loader, and
the mappers compose it: `refillPayload_delivered_iff`, `publicServerPayload_delivered_iff`,
`sessionInitResult_clean`. For the bundle of `make_lkb` there is no such class loader
(`localKeyBundle_blocked`).

Constructors do what they are declared for, and memory does not run out.
-/

namespace Gcrypt.JniOM

open Effect

/-! ### The virtual machine -/

/-- The classes that are looked up, by the names of their mappings. -/
inductive ClassName
  | keyPair | idKey | sidKey | localKeyBundle | refillPayload | publicServerPayload
  | sessionInitResult | initialMessageHandshake | messagingSession
  /-- `java/lang/HashMap`. -/
  | hashmap
  deriving DecidableEq

/-- Constructor signatures: `()V`, `([B[B)V`, `([BI)V` and `([BI[B)V`. -/
inductive ConstructorSig
  | empty | keyPair | idKey | sidKey
  deriving DecidableEq

/-- Field types: `I`, `[B`, `[I`, `Ljava/lang/Map;`, a class, an array of a class. -/
inductive FieldType
  | int | byteArray | intArray | map
  | object (c : ClassName)
  | objectArray (c : ClassName)
  deriving DecidableEq

/-- A field, by its name and type. -/
abbrev FieldID := String × FieldType

/-- A class, as `GetMethodID` and `GetFieldID` see it. -/
structure JavaClass where
  constructors : List ConstructorSig
  fields : List FieldID
  methods : List String

/-- The classes that are found. -/
abbrev ClassLoader := ClassName → Option JavaClass

/-- A program that calls the virtual machine. The flag says that an exception is pending. -/
abbrev JniM := EStateM Fault Bool

/-- A JNI call. There are few that may be made while an exception is pending, and
`DeleteLocalRef` is the one of them that is used here; it is not modelled. -/
def jniCall {α : Type} (a : α) : JniM α := fun pending =>
  if pending then .error .undefinedBehaviour pending else .ok a pending

/-- A JNI call that looks something up. -/
def jniLookup {α : Type} (found : Option α) : JniM (Option α) := fun pending =>
  if pending then .error .undefinedBehaviour pending else .ok found found.isNone

variable (loader : ClassLoader)

/-- `FindClass`. -/
def findClass (c : ClassName) : JniM (Option JavaClass) := jniLookup (loader c)

/-- `GetMethodID(clazz, "<init>", sig)`. -/
def getConstructor (clazz : JavaClass) (sig : ConstructorSig) : JniM (Option ConstructorSig) :=
  jniLookup (if sig ∈ clazz.constructors then some sig else none)

/-- `GetMethodID`, of a method. -/
def getMethodID (clazz : JavaClass) (name : String) : JniM (Option String) :=
  jniLookup (if name ∈ clazz.methods then some name else none)

/-- `GetFieldID`. -/
def getFieldID (clazz : JavaClass) (name : String) (type : FieldType) : JniM (Option FieldID) :=
  jniLookup (if (name, type) ∈ clazz.fields then some (name, type) else none)

/-- `NewObject`. -/
def newObject {α : Type} (constructor : Option ConstructorSig) (obj : α) : JniM α :=
  match constructor with
  | none => throw .undefinedBehaviour
  | some _ => jniCall obj

/-- `SetObjectField` and `SetIntField`, of an object that nobody else sees yet: the values
are in the object that the mapper returns. -/
def setField (fid : Option FieldID) : JniM Unit :=
  match fid with
  | none => throw .undefinedBehaviour
  | some _ => jniCall ()

/-! ### Java objects -/

/-- `GcryptKeyPair`. -/
structure GcryptKeyPair where
  publicKey : JbyteArray
  privateKey : JbyteArray

/-- A `HashMap` from identifiers to pairs, as its entries. -/
abbrev JavaMap := List (Int32 × Option GcryptKeyPair)

/-- `GcryptLocalKeyBundle`. -/
structure GcryptLocalKeyBundle where
  identityKey : Option GcryptKeyPair
  signedPreKey : Option GcryptKeyPair
  quantumPreKey : Option GcryptKeyPair
  oneTimePreKeys : Option JavaMap
  oneTimeQuantumKeys : Option JavaMap

/-- `GcryptKeyRefillPayload`. -/
structure GcryptKeyRefillPayload where
  oneTimePreKeys : Option (List (Option GcryptIdKey))
  signedOneTimeQuantumPreKeys : Option (List (Option GcryptSidKey))

/-- `GcryptPublicServerPayload`. -/
structure GcryptPublicServerPayload where
  registration : Int32
  deviceId : Int32
  identityKey : Option JbyteArray
  signedPreKey : Option GcryptSidKey
  quantumPreKey : Option GcryptSidKey
  oneTimePreKeys : Option (List (Option GcryptIdKey))
  signedOneTimeQuantumPreKeys : Option (List (Option GcryptSidKey))

/-- `GcryptInitialMessageHandshake`. -/
structure GcryptInitialMessageHandshake where
  identityKey : Option JbyteArray
  ephemeralKey : Option JbyteArray
  cipherText : Option JbyteArray
  usedPreKeys : Option (List Int32)
  usedQuantumPreKeys : Option (List Int32)

/-- `GcryptMessagingSession`. -/
structure GcryptMessagingSession where
  remoteIdentityKey : Option JbyteArray
  rootKey : Option JbyteArray
  sequenceNumber : Int32

/-- `GcryptSessionInitResult`. -/
structure GcryptSessionInitResult where
  session : Option GcryptMessagingSession
  handshakeMessage : Option GcryptInitialMessageHandshake

/-! ### Mappers -/

section Mappers

variable {n s : Nat}

/-- `key`: `NewByteArray` and `SetByteArrayRegion`. -/
def newByteArray (k : Key n) : JniM JbyteArray := jniCall (fromKey k)

/-- `NewIntArray` and `SetIntArrayRegion`. -/
def newIntArray (ids : List UInt32) : JniM (List Int32) := jniCall (ids.map UInt32.toInt32)

/-- `key_pair`. -/
def keyPair (k : KeypairImpl Key Key n s) : JniM (Option GcryptKeyPair) :=
  orNull (findClass loader .keyPair) fun clazz => do
    let constructor ← getConstructor clazz .keyPair
    let pubArray ← newByteArray k.Public
    let privArray ← newByteArray k.Private
    let keyPairObj ← newObject constructor ⟨pubArray, privArray⟩
    return some keyPairObj

/-- `id_key`. -/
def idKey (k : Idkey n) : JniM (Option GcryptIdKey) :=
  orNull (findClass loader .idKey) fun clazz => do
    let constructor ← getConstructor clazz .idKey
    let keyArray ← newByteArray k.key
    let idKeyObj ← newObject constructor ⟨some keyArray, k.identifier.toInt32⟩
    return some idKeyObj

/-- `sid_key`. -/
def sidKey (k : Sidkey n s) : JniM (Option GcryptSidKey) :=
  orNull (findClass loader .sidKey) fun clazz => do
    let constructor ← getConstructor clazz .sidKey
    let keyArray ← newByteArray k.key
    let sigArray ← newByteArray k.signature
    let sidKeyObj ← newObject constructor ⟨some keyArray, k.identifier.toInt32, some sigArray⟩
    return some sidKeyObj

/-- The loop of the vector mappers. -/
def setElements {κ ο : Type} (mapper : κ → JniM (Option ο)) : List κ → JniM (List (Option ο))
  | [] => return []
  | k :: vec => do
    let elem ← mapper k
    -- `SetObjectArrayElement`.
    jniCall ()
    let array ← setElements mapper vec
    return elem :: array

/-- The vector mappers, over the class of the elements. -/
def objectArray {κ ο : Type} (c : ClassName) (mapper : κ → JniM (Option ο)) (vec : List κ) :
    JniM (Option (List (Option ο))) :=
  orNull (findClass loader c) fun _ => do
    -- `NewObjectArray`.
    jniCall ()
    let array ← setElements mapper vec
    return some array

/-- `id_key_vector`. -/
def idKeyVector (vec : List (Idkey n)) : JniM (Option (List (Option GcryptIdKey))) :=
  objectArray loader .idKey (idKey loader) vec

/-- `sid_key_vector`. -/
def sidKeyVector (vec : List (Sidkey n s)) : JniM (Option (List (Option GcryptSidKey))) :=
  objectArray loader .sidKey (sidKey loader) vec

/-- The loop of `key_pair_map`. The key is passed to `put` as an `int`, where a reference to
an object is expected. -/
def putAll (putMethod : Option String) :
    List ((_ : UInt32) × KeypairImpl Key Key n s) → JniM JavaMap
  | [] => return []
  | ⟨_, val⟩ :: _ => do
    let _cval ← keyPair loader val
    match putMethod with
    | none => throw .undefinedBehaviour
    | some _ => throw .undefinedBehaviour

/-- `key_pair_map`. -/
def keyPairMap (map : UnorderedMap (KeypairImpl Key Key n s)) : JniM (Option JavaMap) :=
  orNull (findClass loader .hashmap) fun hashMapClass => do
    let constructor ← getConstructor hashMapClass .empty
    newObject constructor ()
    let putMethod ← getMethodID hashMapClass "put"
    let hashmap ← putAll loader putMethod map.entries
    return some hashmap

/-- `local_key_bundle`. The constructor is not checked here. `key_pair` of `SignedPreKey` and
`QuantumPreKey`, whose public halves are identifiable keys, does not compile; it is read as
that of their keys. -/
def localKeyBundle (bundle : LocalKeyBundle) : JniM (Option GcryptLocalKeyBundle) :=
  orNull (findClass loader .localKeyBundle) fun clazz => do
    let constructor ← getConstructor clazz .empty
    newObject constructor ()
    let fid_identityKey ← getFieldID clazz "identityKey" (.object .keyPair)
    let fid_signedPreKey ← getFieldID clazz "signedPreKey" (.object .keyPair)
    let fid_quantumPreKey ← getFieldID clazz "quantumPreKey" (.object .keyPair)
    let fid_oneTimePreKeys ← getFieldID clazz "oneTimePreKeys" .map
    let fid_oneTimeQuantum ← getFieldID clazz "oneTimeQuantumKeys" .map
    let identityObj ← keyPair loader bundle.IdentityKey
    setField fid_identityKey
    let signedObj ← keyPair loader
      (⟨bundle.SignedPreKey.Public.key, bundle.SignedPreKey.Private⟩ : Xckeypair)
    setField fid_signedPreKey
    let quantumObj ← keyPair loader
      (⟨bundle.QuantumPreKey.Public.key, bundle.QuantumPreKey.Private⟩ : Qkeypair)
    setField fid_quantumPreKey
    let otPreKeysMap ← keyPairMap loader bundle.OneTimePreKeys
    setField fid_oneTimePreKeys
    let otQuantumMap ← keyPairMap loader bundle.OneTimeQuantumKeys
    setField fid_oneTimeQuantum
    return some {
      identityKey := identityObj
      signedPreKey := signedObj
      quantumPreKey := quantumObj
      oneTimePreKeys := otPreKeysMap
      oneTimeQuantumKeys := otQuantumMap }

/-- What the other mappers begin with: an object by the empty constructor, and its class. -/
def newEmptyObject (c : ClassName) : JniM (Option JavaClass) :=
  orNull (findClass loader c) fun clazz =>
    orNull (getConstructor clazz .empty) fun constructor => do
      newObject (some constructor) ()
      return some clazz

/-- `refill_payload`. -/
def refillPayload (payload : RefillPayload) : JniM (Option GcryptKeyRefillPayload) :=
  orNull (newEmptyObject loader .refillPayload) fun clazz => do
    let fid_oneTimePreKeys ← getFieldID clazz "oneTimePreKeys" (.objectArray .idKey)
    let fid_signedOneTimeQuantumPreKeys ←
      getFieldID clazz "signedOneTimeQuantumPreKeys" (.objectArray .sidKey)
    let otPreKeysArray ← idKeyVector loader payload.oneTimePreKeys
    setField fid_oneTimePreKeys
    let otQuantumArray ← sidKeyVector loader payload.signedOneTimeQuantumPreKeys
    setField fid_signedOneTimeQuantumPreKeys
    return some {
      oneTimePreKeys := otPreKeysArray
      signedOneTimeQuantumPreKeys := otQuantumArray }

/-- `public_server_payload`. -/
def publicServerPayload (payload : PublicServerPayload) :
    JniM (Option GcryptPublicServerPayload) :=
  orNull (newEmptyObject loader .publicServerPayload) fun clazz => do
    let fid_registration ← getFieldID clazz "registration" .int
    let fid_deviceId ← getFieldID clazz "deviceId" .int
    let fid_identityKey ← getFieldID clazz "identityKey" .byteArray
    let fid_signedPreKey ← getFieldID clazz "signedPreKey" (.object .sidKey)
    let fid_quantumPreKey ← getFieldID clazz "quantumPreKey" (.object .sidKey)
    let fid_oneTimePreKeys ← getFieldID clazz "oneTimePreKeys" (.objectArray .idKey)
    let fid_signedOneTimeQuantumPreKeys ←
      getFieldID clazz "signedOneTimeQuantumPreKeys" (.objectArray .sidKey)
    setField fid_registration
    setField fid_deviceId
    let identityKeyObj ← newByteArray payload.identityKey
    setField fid_identityKey
    let signedPreKeyObj ← sidKey loader payload.signedPreKey
    setField fid_signedPreKey
    let quantumPreKeyObj ← sidKey loader payload.quantumPreKey.2
    setField fid_quantumPreKey
    let otPreKeysArray ← idKeyVector loader payload.oneTimePreKeys
    setField fid_oneTimePreKeys
    let otQuantumArray ← sidKeyVector loader payload.signedOneTimeQuantumPreKeys
    setField fid_signedOneTimeQuantumPreKeys
    return some {
      registration := payload.registration.toInt32
      deviceId := payload.deviceId.toInt32
      identityKey := some identityKeyObj
      signedPreKey := signedPreKeyObj
      quantumPreKey := quantumPreKeyObj
      oneTimePreKeys := otPreKeysArray
      signedOneTimeQuantumPreKeys := otQuantumArray }

/-- `initial_handshake`. -/
def initialHandshake (handshake : InitialMessageHandshake) :
    JniM (Option GcryptInitialMessageHandshake) :=
  orNull (newEmptyObject loader .initialMessageHandshake) fun clazz => do
    let fid_identityKey ← getFieldID clazz "identityKey" .byteArray
    let fid_ephemeralKey ← getFieldID clazz "ephemeralKey" .byteArray
    let fid_cipherText ← getFieldID clazz "cipherText" .byteArray
    let fid_usedPreKeys ← getFieldID clazz "usedPreKeys" .intArray
    let fid_usedQuantumPreKeys ← getFieldID clazz "usedQuantumPreKeys" .intArray
    let identityArr ← newByteArray handshake.identityKey
    setField fid_identityKey
    let ephemeralArr ← newByteArray handshake.ephermoralKey
    setField fid_ephemeralKey
    let cipherTextArr ← newByteArray handshake.cipherText
    setField fid_cipherText
    let preKeysArr ← newIntArray handshake.usedPreKeys
    setField fid_usedPreKeys
    let qPreKeysArr ← newIntArray handshake.usedQuantumPreKeys
    setField fid_usedQuantumPreKeys
    return some {
      identityKey := some identityArr
      ephemeralKey := some ephemeralArr
      cipherText := some cipherTextArr
      usedPreKeys := some preKeysArr
      usedQuantumPreKeys := some qPreKeysArr }

/-- `messaging_session`: not implemented. -/
def messagingSession (_session : MessagingSession) : JniM (Option GcryptMessagingSession) :=
  return none

/-- `session_init_result`. -/
def sessionInitResult (result : SessionInitResult) : JniM (Option GcryptSessionInitResult) :=
  orNull (newEmptyObject loader .sessionInitResult) fun clazz => do
    let fid_session ← getFieldID clazz "session" (.object .messagingSession)
    let fid_handshakeMessage ←
      getFieldID clazz "handshakeMessage" (.object .initialMessageHandshake)
    let jSessionObj ← messagingSession result.session
    setField fid_session
    let jHandshakeObj ← initialHandshake loader result.handshakeMessage
    setField fid_handshakeMessage
    return some { session := jSessionObj, handshakeMessage := jHandshakeObj }

end Mappers

/-! ### An exception stays pending -/

section Latching

variable {n s : Nat} {α : Type}

instance (a : α) : Latching (jniCall a) := ⟨rfl⟩

instance (found : Option α) : Latching (jniLookup found) := ⟨rfl⟩

instance (c : ClassName) : Latching (findClass loader c) := ⟨rfl⟩

instance (clazz : JavaClass) (sig : ConstructorSig) : Latching (getConstructor clazz sig) := ⟨rfl⟩

instance (clazz : JavaClass) (name : String) : Latching (getMethodID clazz name) := ⟨rfl⟩

instance (clazz : JavaClass) (name : String) (type : FieldType) :
    Latching (getFieldID clazz name type) := ⟨rfl⟩

instance (constructor : Option ConstructorSig) (obj : α) :
    Latching (newObject constructor obj) := by
  constructor
  cases constructor <;> rfl

instance (fid : Option FieldID) : Latching (setField fid) := by
  constructor
  cases fid <;> rfl

instance (k : Key n) : Latching (newByteArray k) := ⟨rfl⟩

instance (ids : List UInt32) : Latching (newIntArray ids) := ⟨rfl⟩

instance (k : KeypairImpl Key Key n s) : Latching (keyPair loader k) := by
  unfold keyPair
  infer_instance

instance (k : Idkey n) : Latching (idKey loader k) := by
  unfold idKey
  infer_instance

instance (k : Sidkey n s) : Latching (sidKey loader k) := by
  unfold sidKey
  infer_instance

instance {κ ο : Type} (mapper : κ → JniM (Option ο)) [∀ k, Latching (mapper k)] (vec : List κ) :
    Latching (setElements mapper vec) := by
  induction vec with
  | nil => exact Latching.pure _
  | cons k vec ih =>
    unfold setElements
    infer_instance

instance {κ ο : Type} (c : ClassName) (mapper : κ → JniM (Option ο)) [∀ k, Latching (mapper k)]
    (vec : List κ) : Latching (objectArray loader c mapper vec) := by
  unfold objectArray
  infer_instance

instance (vec : List (Idkey n)) : Latching (idKeyVector loader vec) := by
  unfold idKeyVector
  infer_instance

instance (vec : List (Sidkey n s)) : Latching (sidKeyVector loader vec) := by
  unfold sidKeyVector
  infer_instance

instance (putMethod : Option String) (entries : List ((_ : UInt32) × KeypairImpl Key Key n s)) :
    Latching (putAll loader putMethod entries) := by
  cases entries with
  | nil => exact Latching.pure _
  | cons e entries =>
    unfold putAll
    cases putMethod <;> infer_instance

instance (map : UnorderedMap (KeypairImpl Key Key n s)) : Latching (keyPairMap loader map) := by
  unfold keyPairMap
  infer_instance

instance (c : ClassName) : Latching (newEmptyObject loader c) := by
  unfold newEmptyObject
  infer_instance

-- The search goes statement by statement, and so does the one for the other long mappers.
set_option synthInstance.maxSize 3000 in
instance (handshake : InitialMessageHandshake) : Latching (initialHandshake loader handshake) := by
  unfold initialHandshake
  infer_instance

instance (session : MessagingSession) : Latching (messagingSession session) := ⟨rfl⟩

end Latching

/-! ### When a statement gets through -/

section Statements

variable {loader} {n s : Nat} {α β : Type}

theorem jniCall_clean (a : α) : Clean True (jniCall a) a :=
  ⟨fun _ => rfl, fun h => absurd trivial h⟩

theorem jniLookup_clean {p : Prop} [Decidable p] (a : α) :
    Clean p (jniLookup (if p then some a else none)) (some a) := by
  refine ⟨fun h => ?_, fun h v => ?_⟩
  · rw [if_pos h]
    rfl
  · rw [if_neg h]
    simp [jniLookup]

theorem getConstructor_clean (clazz : JavaClass) (sig : ConstructorSig) :
    Clean (sig ∈ clazz.constructors) (getConstructor clazz sig) (some sig) := jniLookup_clean sig

theorem getFieldID_clean (clazz : JavaClass) (name : String) (type : FieldType) :
    Clean ((name, type) ∈ clazz.fields) (getFieldID clazz name type) (some (name, type)) :=
  jniLookup_clean _

theorem newObject_clean (sig : ConstructorSig) (obj : α) :
    Clean True (newObject (some sig) obj) obj := jniCall_clean obj

theorem setField_clean (fid : FieldID) : Clean True (setField (some fid)) () := jniCall_clean ()

/-- What goes on with a class that is looked up. -/
theorem findClass_clean {c : ClassName} {p : JavaClass → Prop}
    {f : JavaClass → JniM (Option β)} {u : Option β} [∀ clazz, Latching (f clazz)]
    (h : ∀ clazz, loader c = some clazz → Clean (p clazz) (f clazz) u) :
    Clean (∃ clazz, loader c = some clazz ∧ p clazz) (orNull (findClass loader c) f) u := by
  cases hc : loader c with
  | none =>
    have hnull : orNull (findClass loader c) f false = .ok none true :=
      bind_of_ok (show findClass loader c false = .ok none true by simp [findClass, jniLookup, hc])
    refine ⟨?_, fun _ v => ?_⟩
    · rintro ⟨clazz, hclazz, -⟩
      cases hclazz
    · rw [hnull]
      simp
  | some clazz =>
    have hfound : orNull (findClass loader c) f false = f clazz false :=
      bind_of_ok (show findClass loader c false = .ok (some clazz) false by
        simp [findClass, jniLookup, hc])
    constructor
    · rintro ⟨clazz', hclazz, hp⟩
      cases hclazz
      rw [hfound]
      exact (h clazz hc).returns hp
    · intro hnot
      rw [hfound]
      exact (h clazz hc).blocked fun hp => hnot ⟨clazz, rfl, hp⟩

/-- What has to be declared for an object that is filled field by field. -/
def DeclaresObject (loader : ClassLoader) (c : ClassName) (fields : List FieldID) : Prop :=
  ∃ clazz, loader c = some clazz ∧ .empty ∈ clazz.constructors ∧ ∀ f ∈ fields, f ∈ clazz.fields

theorem newEmptyObject_clean {c : ClassName} {fields : List FieldID} {p : Prop}
    {f : JavaClass → JniM (Option β)} {u : Option β} [∀ clazz, Latching (f clazz)]
    (h : ∀ clazz, Clean ((∀ f ∈ fields, f ∈ clazz.fields) ∧ p) (f clazz) u) :
    Clean (DeclaresObject loader c fields ∧ p) (orNull (newEmptyObject loader c) f) u := by
  -- The lookup and the check of the constructor are one statement for the caller.
  have hassoc : orNull (newEmptyObject loader c) f = orNull (findClass loader c) fun clazz =>
      orNull (getConstructor clazz .empty) fun sig =>
        newObject (some sig) () >>= fun _ => f clazz := by
    simp only [newEmptyObject, orNull_assoc, orNull_bind_some]
  rw [hassoc]
  have hclean : Clean (∃ clazz, loader c = some clazz ∧ .empty ∈ clazz.constructors ∧
      (∀ f ∈ fields, f ∈ clazz.fields) ∧ p) (orNull (findClass loader c) fun clazz =>
        orNull (getConstructor clazz .empty) fun sig =>
          newObject (some sig) () >>= fun _ => f clazz) u := by
    refine findClass_clean fun clazz _ => ?_
    refine Clean.orNull (getConstructor_clean clazz .empty) ?_
    exact Clean.andThen (newObject_clean .empty ()) (h clazz)
  refine hclean.congr ?_
  simp only [DeclaresObject, ← and_assoc, exists_and_right]

end Statements

/-! ### When a mapper delivers -/

section Deliver

variable {loader} {n s : Nat}

/-- The class can be constructed from its parts. -/
def Constructs (loader : ClassLoader) (c : ClassName) (sig : ConstructorSig) : Prop :=
  ∃ clazz, loader c = some clazz ∧ sig ∈ clazz.constructors

theorem keyPair_clean (k : KeypairImpl Key Key n s) :
    Clean (Constructs loader .keyPair .keyPair) (keyPair loader k)
      (some ⟨fromKey k.Public, fromKey k.Private⟩) := by
  refine findClass_clean fun clazz _ => ?_
  refine Clean.onlyIf (getConstructor_clean clazz .keyPair) ?_
  refine Clean.andThen (jniCall_clean (fromKey k.Public)) ?_
  refine Clean.andThen (jniCall_clean (fromKey k.Private)) ?_
  exact Clean.andThen (newObject_clean .keyPair _) (Clean.pure _)

theorem idKey_clean (k : Idkey n) :
    Clean (Constructs loader .idKey .idKey) (idKey loader k) (some (fromIdKey k)) := by
  refine findClass_clean fun clazz _ => ?_
  refine Clean.onlyIf (getConstructor_clean clazz .idKey) ?_
  refine Clean.andThen (jniCall_clean (fromKey k.key)) ?_
  exact Clean.andThen (newObject_clean .idKey _) (Clean.pure _)

theorem sidKey_clean (k : Sidkey n s) :
    Clean (Constructs loader .sidKey .sidKey) (sidKey loader k) (some (fromSidKey k)) := by
  refine findClass_clean fun clazz _ => ?_
  refine Clean.onlyIf (getConstructor_clean clazz .sidKey) ?_
  refine Clean.andThen (jniCall_clean (fromKey k.key)) ?_
  refine Clean.andThen (jniCall_clean (fromKey k.signature)) ?_
  exact Clean.andThen (newObject_clean .sidKey _) (Clean.pure _)

section Vectors

variable {κ ο : Type} {mapper : κ → JniM (Option ο)} [∀ k, Latching (mapper k)] {p : Prop}
  {value : κ → ο}

/-- The loop gets through if every element is delivered. -/
theorem setElements_clean (h : ∀ k, Clean p (mapper k) (some (value k))) (vec : List κ) :
    Clean (vec ≠ [] → p) (setElements mapper vec) (vec.map fun k => some (value k)) := by
  induction vec with
  | nil => exact Clean.congr (Clean.pure []) (by simp)
  | cons k vec ih =>
    refine Clean.congr (c := p ∧ (vec ≠ [] → p)) ?_ (by simp +contextual)
    refine Clean.bind (h k) ?_
    refine Clean.andThen (jniCall_clean ()) ?_
    exact Clean.onlyIf ih (Clean.pure _)

/-- What has to be declared for the elements of an array: their class, and its constructor
unless there are none. -/
def DeclaresElements (loader : ClassLoader) (c : ClassName) (sig : ConstructorSig)
    (vec : List κ) : Prop :=
  ∃ clazz, loader c = some clazz ∧ (vec ≠ [] → Constructs loader c sig)

theorem objectArray_clean {c : ClassName} {sig : ConstructorSig}
    (h : ∀ k, Clean (Constructs loader c sig) (mapper k) (some (value k))) (vec : List κ) :
    Clean (DeclaresElements loader c sig vec) (objectArray loader c mapper vec)
      (some (vec.map fun k => some (value k))) := by
  refine findClass_clean fun clazz _ => ?_
  refine Clean.andThen (jniCall_clean ()) ?_
  exact Clean.onlyIf (setElements_clean h vec) (Clean.pure _)

end Vectors

/-- The object that carries a refill payload. -/
def javaRefillPayload (payload : RefillPayload) : GcryptKeyRefillPayload where
  oneTimePreKeys := some (payload.oneTimePreKeys.map fun k => some (fromIdKey k))
  signedOneTimeQuantumPreKeys :=
    some (payload.signedOneTimeQuantumPreKeys.map fun k => some (fromSidKey k))

def refillPayloadFields : List FieldID :=
  [("oneTimePreKeys", .objectArray .idKey), ("signedOneTimeQuantumPreKeys", .objectArray .sidKey)]

/-- **Marshalling a refill payload.** What Java receives is all of the payload, and it receives
it if and only if the three classes are declared as the mappers look them up. The classes of
the elements are found even for empty arrays, their constructors only where there are elements.
-/
theorem refillPayload_delivered_iff (loader : ClassLoader) (payload : RefillPayload)
    (obj : GcryptKeyRefillPayload) :
    refillPayload loader payload false = .ok (some obj) false ↔
      (DeclaresObject loader .refillPayload refillPayloadFields ∧
        DeclaresElements loader .idKey .idKey payload.oneTimePreKeys ∧
        DeclaresElements loader .sidKey .sidKey payload.signedOneTimeQuantumPreKeys) ∧
      obj = javaRefillPayload payload := by
  have hclean : Clean (DeclaresObject loader .refillPayload refillPayloadFields ∧
      DeclaresElements loader .idKey .idKey payload.oneTimePreKeys ∧
      DeclaresElements loader .sidKey .sidKey payload.signedOneTimeQuantumPreKeys)
      (refillPayload loader payload) (some (javaRefillPayload payload)) := by
    refine newEmptyObject_clean fun clazz => ?_
    simp only [refillPayloadFields, List.forall_mem_cons, List.not_mem_nil, false_implies,
      implies_true, and_true, and_assoc]
    refine Clean.bind (getFieldID_clean clazz _ _) ?_
    refine Clean.bind (getFieldID_clean clazz _ _) ?_
    refine Clean.bind (objectArray_clean idKey_clean payload.oneTimePreKeys) ?_
    refine Clean.andThen (setField_clean _) ?_
    refine Clean.onlyIf (objectArray_clean sidKey_clean payload.signedOneTimeQuantumPreKeys) ?_
    exact Clean.andThen (setField_clean _) (Clean.pure _)
  rw [hclean.iff, Option.some.injEq]

def publicServerPayloadFields : List FieldID :=
  [("registration", .int), ("deviceId", .int), ("identityKey", .byteArray),
    ("signedPreKey", .object .sidKey), ("quantumPreKey", .object .sidKey),
    ("oneTimePreKeys", .objectArray .idKey),
    ("signedOneTimeQuantumPreKeys", .objectArray .sidKey)]

def javaPublicServerPayload (payload : PublicServerPayload) : GcryptPublicServerPayload where
  registration := payload.registration.toInt32
  deviceId := payload.deviceId.toInt32
  identityKey := some (fromKey payload.identityKey)
  signedPreKey := some (fromSidKey payload.signedPreKey)
  quantumPreKey := some (fromSidKey payload.quantumPreKey.2)
  oneTimePreKeys := some (payload.oneTimePreKeys.map fun k => some (fromIdKey k))
  signedOneTimeQuantumPreKeys :=
    some (payload.signedOneTimeQuantumPreKeys.map fun k => some (fromSidKey k))

-- The mapper is a sequence of twenty statements, all of them found to latch.
set_option synthInstance.maxSize 3000 in
theorem publicServerPayload_clean (payload : PublicServerPayload) :
    Clean (DeclaresObject loader .publicServerPayload publicServerPayloadFields ∧
      Constructs loader .sidKey .sidKey ∧ Constructs loader .sidKey .sidKey ∧
      DeclaresElements loader .idKey .idKey payload.oneTimePreKeys ∧
      DeclaresElements loader .sidKey .sidKey payload.signedOneTimeQuantumPreKeys)
      (publicServerPayload loader payload) (some (javaPublicServerPayload payload)) := by
  refine newEmptyObject_clean fun clazz => ?_
  simp only [publicServerPayloadFields, List.forall_mem_cons, List.not_mem_nil, false_implies,
    implies_true, and_true, and_assoc]
  refine Clean.bind (getFieldID_clean clazz _ _) ?_
  refine Clean.bind (getFieldID_clean clazz _ _) ?_
  refine Clean.bind (getFieldID_clean clazz _ _) ?_
  refine Clean.bind (getFieldID_clean clazz _ _) ?_
  refine Clean.bind (getFieldID_clean clazz _ _) ?_
  refine Clean.bind (getFieldID_clean clazz _ _) ?_
  refine Clean.bind (getFieldID_clean clazz _ _) ?_
  refine Clean.andThen (setField_clean _) ?_
  refine Clean.andThen (setField_clean _) ?_
  refine Clean.andThen (jniCall_clean (fromKey payload.identityKey)) ?_
  refine Clean.andThen (setField_clean _) ?_
  refine Clean.bind (sidKey_clean payload.signedPreKey) ?_
  refine Clean.andThen (setField_clean _) ?_
  refine Clean.bind (sidKey_clean payload.quantumPreKey.2) ?_
  refine Clean.andThen (setField_clean _) ?_
  refine Clean.bind (objectArray_clean idKey_clean payload.oneTimePreKeys) ?_
  refine Clean.andThen (setField_clean _) ?_
  refine Clean.onlyIf (objectArray_clean sidKey_clean payload.signedOneTimeQuantumPreKeys) ?_
  exact Clean.andThen (setField_clean _) (Clean.pure _)

/-- **Marshalling a server payload.** What Java receives is all of the payload, and it receives
it if and only if the three classes are declared as the mappers look them up: that of signed
keys with its constructor, which two fields need, that of the one-time prekeys even for an
empty array, but then without its constructor. -/
theorem publicServerPayload_delivered_iff (loader : ClassLoader) (payload : PublicServerPayload)
    (obj : GcryptPublicServerPayload) :
    publicServerPayload loader payload false = .ok (some obj) false ↔
      (DeclaresObject loader .publicServerPayload publicServerPayloadFields ∧
        Constructs loader .sidKey .sidKey ∧
        DeclaresElements loader .idKey .idKey payload.oneTimePreKeys ∧
        DeclaresElements loader .sidKey .sidKey payload.signedOneTimeQuantumPreKeys) ∧
      obj = javaPublicServerPayload payload := by
  rw [(publicServerPayload_clean payload).iff, Option.some.injEq, and_self_left]

def initialHandshakeFields : List FieldID :=
  [("identityKey", .byteArray), ("ephemeralKey", .byteArray), ("cipherText", .byteArray),
    ("usedPreKeys", .intArray), ("usedQuantumPreKeys", .intArray)]

def javaInitialHandshake (handshake : InitialMessageHandshake) :
    GcryptInitialMessageHandshake where
  identityKey := some (fromKey handshake.identityKey)
  ephemeralKey := some (fromKey handshake.ephermoralKey)
  cipherText := some (fromKey handshake.cipherText)
  usedPreKeys := some (handshake.usedPreKeys.map UInt32.toInt32)
  usedQuantumPreKeys := some (handshake.usedQuantumPreKeys.map UInt32.toInt32)

set_option synthInstance.maxSize 3000 in
theorem initialHandshake_clean (handshake : InitialMessageHandshake) :
    Clean (DeclaresObject loader .initialMessageHandshake initialHandshakeFields)
      (initialHandshake loader handshake) (some (javaInitialHandshake handshake)) := by
  refine Clean.congr (newEmptyObject_clean (p := True) fun clazz => ?_)
    ⟨fun h => ⟨h, trivial⟩, And.left⟩
  simp only [initialHandshakeFields, List.forall_mem_cons, List.not_mem_nil, false_implies,
    implies_true, and_true]
  refine Clean.bind (getFieldID_clean clazz _ _) ?_
  refine Clean.bind (getFieldID_clean clazz _ _) ?_
  refine Clean.bind (getFieldID_clean clazz _ _) ?_
  refine Clean.bind (getFieldID_clean clazz _ _) ?_
  refine Clean.onlyIf (getFieldID_clean clazz _ _) ?_
  refine Clean.andThen (jniCall_clean (fromKey handshake.identityKey)) ?_
  refine Clean.andThen (setField_clean _) ?_
  refine Clean.andThen (jniCall_clean (fromKey handshake.ephermoralKey)) ?_
  refine Clean.andThen (setField_clean _) ?_
  refine Clean.andThen (jniCall_clean (fromKey handshake.cipherText)) ?_
  refine Clean.andThen (setField_clean _) ?_
  refine Clean.andThen (jniCall_clean (handshake.usedPreKeys.map UInt32.toInt32)) ?_
  refine Clean.andThen (setField_clean _) ?_
  refine Clean.andThen (jniCall_clean (handshake.usedQuantumPreKeys.map UInt32.toInt32)) ?_
  exact Clean.andThen (setField_clean _) (Clean.pure _)

def sessionInitResultFields : List FieldID :=
  [("session", .object .messagingSession),
    ("handshakeMessage", .object .initialMessageHandshake)]

/-- The object that carries a result: without the session. -/
def javaSessionInitResult (result : SessionInitResult) : GcryptSessionInitResult where
  session := none
  handshakeMessage := some (javaInitialHandshake result.handshakeMessage)

theorem sessionInitResult_clean (result : SessionInitResult) :
    Clean (DeclaresObject loader .sessionInitResult sessionInitResultFields ∧
        DeclaresObject loader .initialMessageHandshake initialHandshakeFields)
      (sessionInitResult loader result) (some (javaSessionInitResult result)) := by
  refine newEmptyObject_clean fun clazz => ?_
  simp only [sessionInitResultFields, List.forall_mem_cons, List.not_mem_nil, false_implies,
    implies_true, and_true, and_assoc]
  refine Clean.bind (getFieldID_clean clazz _ _) ?_
  refine Clean.bind (getFieldID_clean clazz _ _) ?_
  refine Clean.andThen (Clean.pure none) ?_
  refine Clean.andThen (setField_clean _) ?_
  refine Clean.onlyIf (initialHandshake_clean result.handshakeMessage) ?_
  exact Clean.andThen (setField_clean _) (Clean.pure _)

/-! ### The bundle -/

/-- What has to be declared for a map, and what must not be in it: the first entry would be
put under a key that is no object. -/
def DeclaresMap (loader : ClassLoader) {V : Type} (map : UnorderedMap V) : Prop :=
  ∃ clazz, loader .hashmap = some clazz ∧ .empty ∈ clazz.constructors ∧
    "put" ∈ clazz.methods ∧ map.entries = []

theorem keyPairMap_clean (map : UnorderedMap (KeypairImpl Key Key n s)) :
    Clean (DeclaresMap loader map) (keyPairMap loader map) (some []) := by
  refine findClass_clean fun clazz _ => ?_
  refine Clean.bind (getConstructor_clean clazz .empty) ?_
  refine Clean.andThen (newObject_clean .empty ()) ?_
  refine Clean.bind (jniLookup_clean "put") ?_
  refine Clean.onlyIf ?_ (Clean.pure _)
  cases map.entries with
  | nil => exact Clean.congr (Clean.pure []) (by simp)
  | cons e entries =>
    refine Clean.congr (Clean.never fun v h => ?_) (by simp)
    obtain ⟨cval, pending, -, hthrow⟩ := bind_eq_ok.mp h
    cases hthrow

def localKeyBundleFields : List FieldID :=
  [("identityKey", .object .keyPair), ("signedPreKey", .object .keyPair),
    ("quantumPreKey", .object .keyPair), ("oneTimePreKeys", .map), ("oneTimeQuantumKeys", .map)]

def javaKeyPair (k : KeypairImpl Key Key n s) : GcryptKeyPair where
  publicKey := fromKey k.Public
  privateKey := fromKey k.Private

/-- The object that carries a bundle without one-time keys. -/
def javaLocalKeyBundle (bundle : LocalKeyBundle) : GcryptLocalKeyBundle where
  identityKey := some (javaKeyPair bundle.IdentityKey)
  signedPreKey := some
    (javaKeyPair (⟨bundle.SignedPreKey.Public.key, bundle.SignedPreKey.Private⟩ : Xckeypair))
  quantumPreKey := some
    (javaKeyPair (⟨bundle.QuantumPreKey.Public.key, bundle.QuantumPreKey.Private⟩ : Qkeypair))
  oneTimePreKeys := some []
  oneTimeQuantumKeys := some []

set_option synthInstance.maxSize 3000 in
theorem localKeyBundle_clean (bundle : LocalKeyBundle) :
    Clean (DeclaresObject loader .localKeyBundle localKeyBundleFields ∧
        Constructs loader .keyPair .keyPair ∧ DeclaresMap loader bundle.OneTimePreKeys ∧
        DeclaresMap loader bundle.OneTimeQuantumKeys)
      (localKeyBundle loader bundle) (some (javaLocalKeyBundle bundle)) := by
  have hclean : Clean (∃ clazz, loader .localKeyBundle = some clazz ∧
      .empty ∈ clazz.constructors ∧ (∀ f ∈ localKeyBundleFields, f ∈ clazz.fields) ∧
      (Constructs loader .keyPair .keyPair ∧ Constructs loader .keyPair .keyPair ∧
        Constructs loader .keyPair .keyPair ∧ DeclaresMap loader bundle.OneTimePreKeys ∧
        DeclaresMap loader bundle.OneTimeQuantumKeys))
      (localKeyBundle loader bundle) (some (javaLocalKeyBundle bundle)) := by
    refine findClass_clean fun clazz _ => ?_
    simp only [localKeyBundleFields, List.forall_mem_cons, List.not_mem_nil, false_implies,
      implies_true, and_true, and_assoc]
    refine Clean.bind (getConstructor_clean clazz .empty) ?_
    refine Clean.andThen (newObject_clean .empty ()) ?_
    refine Clean.bind (getFieldID_clean clazz _ _) ?_
    refine Clean.bind (getFieldID_clean clazz _ _) ?_
    refine Clean.bind (getFieldID_clean clazz _ _) ?_
    refine Clean.bind (getFieldID_clean clazz _ _) ?_
    refine Clean.bind (getFieldID_clean clazz _ _) ?_
    refine Clean.bind (keyPair_clean bundle.IdentityKey) ?_
    refine Clean.andThen (setField_clean _) ?_
    refine Clean.bind (keyPair_clean _) ?_
    refine Clean.andThen (setField_clean _) ?_
    refine Clean.bind (keyPair_clean _) ?_
    refine Clean.andThen (setField_clean _) ?_
    refine Clean.bind (keyPairMap_clean bundle.OneTimePreKeys) ?_
    refine Clean.andThen (setField_clean _) ?_
    refine Clean.onlyIf (keyPairMap_clean bundle.OneTimeQuantumKeys) ?_
    exact Clean.andThen (setField_clean _) (Clean.pure _)
  refine hclean.congr ?_
  simp only [DeclaresObject, ← and_assoc, exists_and_right, and_self_right]

/-- The map that is filled with a pair is not empty. -/
theorem insertAll_entries_ne_nil {V : Type} (id : V → UInt32) {pairs : List V}
    (h : pairs ≠ []) : (insertAll id pairs ∅).entries ≠ [] := by
  intro hempty
  cases pairs with
  | nil => exact h rfl
  | cons v vs =>
    have hmap : insertAll id (v :: vs) ∅ = ∅ := AList.ext hempty
    have hfound := lookup_insertAll id (v :: vs) ∅ (id v)
    rw [hmap, AList.lookup_empty, Option.none_or, eq_comm, List.find?_eq_none] at hfound
    exact hfound v List.mem_cons_self (by simp)

/-- No class loader makes Java receive a bundle that `make_lkb` returns. -/
theorem localKeyBundle_blocked {P : Primitives} {deviceId : UInt32} {lkb : LocalKeyBundle}
    {w w' : World} (h : makeLkb P deviceId w = .ok lkb w') (loader : ClassLoader)
    (obj : Option GcryptLocalKeyBundle) : localKeyBundle loader lkb false ≠ .ok obj false := by
  rw [Ne, (localKeyBundle_clean lkb).iff]
  rintro ⟨⟨-, -, ⟨clazz, -, -, -, hempty⟩, -⟩, -⟩
  obtain ⟨g, hlen, -, -, rfl⟩ := makeLkb_returned h
  refine insertAll_entries_ne_nil _ ?_ hempty
  rintro hnil
  rw [hnil] at hlen
  cases hlen

end Deliver

/-! ### The Kotlin classes -/

/-- The classes of `Structures.kt`. The class of a bundle and those of the payloads are not
declared, and there is no `java.lang.HashMap`. -/
def structuresKt : ClassLoader
  | .keyPair => some ⟨[.keyPair], [("publicKey", .byteArray), ("privateKey", .byteArray)], []⟩
  | .idKey => some ⟨[.empty], [("key", .byteArray), ("identifier", .int)], []⟩
  | .sidKey => some
    ⟨[.empty], [("key", .byteArray), ("identifier", .int), ("signature", .byteArray)], []⟩
  | .initialMessageHandshake => some ⟨[.empty], initialHandshakeFields, []⟩
  | .messagingSession => some
    ⟨[.empty], [("remoteIdentityKey", .byteArray), ("rootKey", .byteArray),
      ("sequenceNumber", .int)], []⟩
  | .sessionInitResult => some ⟨[.empty], sessionInitResultFields, []⟩
  | .localKeyBundle | .refillPayload | .publicServerPayload | .hashmap => none

/-- The result of a handshake is delivered. -/
theorem sessionInitResult_structuresKt (result : SessionInitResult) :
    sessionInitResult structuresKt result false
      = .ok (some (javaSessionInitResult result)) false := by
  refine (sessionInitResult_clean result).returns ⟨⟨_, rfl, ?_, ?_⟩, ⟨_, rfl, ?_, ?_⟩⟩
  · exact List.mem_singleton_self _
  · exact fun f hf => hf
  · exact List.mem_singleton_self _
  · exact fun f hf => hf

end Gcrypt.JniOM
