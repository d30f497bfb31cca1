import Gcrypt.Library.Effect
import Gcrypt.Primitives

/-!
# Gcrypt.Store

`store.hpp`: the storage manager, the messaging session, and the state every
library call runs in.

The store is the implementer's: `StorageManager` is its content, plus the verdicts
it will return for the writes to come. A refused write leaves the content as it
was. `World` adds the random bytes still to be drawn and a **ghost trace** of what
a call did (which blobs it asked for, which private keys it handed to X25519 and
ML-KEM, which pairs it generated); no modelled function reads the trace.
-/

namespace Gcrypt

open Effect

/-- `store::key_type`. -/
inductive KeyType
  | identity | ephemeral | signed | prekey | quantum
  deriving DecidableEq

/-- `store::skipped_message_key`. -/
structure SkippedMessageKey where
  ratchetPublicKey : Xckey
  sequenceNumber : UInt32
  messageKey : Key 32

/-- `store::messaging_session`. -/
structure MessagingSession where
  remoteIdentityKey : Xckey
  rootKey : Key 32
  sendingChainKey : Key 32
  receivingChainKey : Key 32
  localRatchetKey : Xckeypair
  remoteRatchetKey : Xckey
  sendSequence : UInt32
  receiveSequence : UInt32
  previousChainLength : UInt32
  skippedKeys : List SkippedMessageKey

/-- A value-initialised session. -/
def MessagingSession.init : MessagingSession where
  remoteIdentityKey := Key.zero
  rootKey := Key.zero
  sendingChainKey := Key.zero
  receivingChainKey := Key.zero
  localRatchetKey := Xckeypair.zero
  remoteRatchetKey := Key.zero
  sendSequence := 0
  receiveSequence := 0
  previousChainLength := 0
  skippedKeys := []

/-- The content of the implementer's storage, and its verdicts on future writes. -/
structure StorageManager where
  identity : Option Vkey
  prekeys : UInt32 → KeyType → Option Vkey
  accepts : Nat → Bool

/-- What a call leaves in the ghost trace. -/
inductive Event
  | loadIdentityKeyPair
  | loadOneTimePrekey (id : UInt32) (type : KeyType)
  | ssecret (localPrivateKey remotePublicKey : Xckey)
  | decapsulate (privateKey : Qprivkey)
  | boxKeypair (pair : Xckeypair)
  | mlkemKeypair (pair : Qkeypair)

/-- The state of the library: `GCRYPT_ISTORE`, the random bytes, the trace. -/
structure World where
  manager : Option StorageManager
  entropy : Nat → UInt8
  trace : List Event

namespace World

/-- One event more. -/
def log (w : World) (e : Event) : World := { w with trace := w.trace ++ [e] }
/-- `n` random bytes fewer. -/
def skip (w : World) (n : Nat) : World := { w with entropy := fun i => w.entropy (n + i) }
/-- Another store. -/
def setManager (w : World) (m : StorageManager) : World := { w with manager := some m }

@[simp] theorem log_manager (w : World) (e : Event) : (w.log e).manager = w.manager := rfl
@[simp] theorem log_entropy (w : World) (e : Event) : (w.log e).entropy = w.entropy := rfl
@[simp] theorem log_trace (w : World) (e : Event) : (w.log e).trace = w.trace ++ [e] := rfl
@[simp] theorem skip_manager (w : World) (n : Nat) : (w.skip n).manager = w.manager := rfl
@[simp] theorem skip_trace (w : World) (n : Nat) : (w.skip n).trace = w.trace := rfl
@[simp] theorem setManager_manager (w : World) (m : StorageManager) :
    (w.setManager m).manager = some m := rfl
@[simp] theorem setManager_trace (w : World) (m : StorageManager) :
    (w.setManager m).trace = w.trace := rfl

/-- The next `n` random bytes. -/
def peek (w : World) (n : Nat) : Key n := ⟨(List.range n).map w.entropy, by simp⟩

@[simp] theorem peek_log (w : World) (e : Event) (n : Nat) : (w.log e).peek n = w.peek n := rfl
@[simp] theorem skip_log (w : World) (e : Event) (n : Nat) :
    (w.log e).skip n = (w.skip n).log e := rfl

@[simp] theorem skip_skip (w : World) (n k : Nat) : (w.skip n).skip k = w.skip (n + k) := by
  simp only [skip, Nat.add_assoc]

end World

/-- A library call: it may throw, and changes the world even then. -/
abbrev GcryptM := EStateM Fault World

/-- A computation that touches nothing but may throw. -/
def liftExcept {α : Type} : Except Fault α → GcryptM α
  | .ok a => pure a
  | .error e => throw e

theorem liftExcept_apply_ok {α : Type} {x : Except Fault α} {a : α} (h : x = .ok a) (w : World) :
    liftExcept x w = .ok a w := by rw [h]; rfl

theorem liftExcept_apply_error {α : Type} {x : Except Fault α} {e : Fault} (h : x = .error e)
    (w : World) : liftExcept x w = .error e w := by rw [h]; rfl

/-- An event is added to the trace. -/
def logEvent (e : Event) : GcryptM Unit := fun w => .ok () (w.log e)

/-- `randombytes_buf` on a key of `n` bytes. -/
def randombytesBuf (n : Nat) : GcryptM (Key n) := fun w => .ok (w.peek n) (w.skip n)

@[simp] theorem logEvent_apply (e : Event) (w : World) : logEvent e w = .ok () (w.log e) := rfl
@[simp] theorem randombytesBuf_apply (n : Nat) (w : World) :
    randombytesBuf n w = .ok (w.peek n) (w.skip n) := rfl

/-! ### The storage manager -/

/-- `GCRYPT_SESSION_MANAGER_WARNING`. -/
def sessionManagerWarning : String :=
  "A storage manager function was called yet attains no implementation." ++
  " This is likely due to an implementation of gcrypt without implementing store::storage_manager"

/-- Use the registered manager; without one this throws, as `GCRYPT_ASSERT_STORE`. -/
def withManager {α : Type} (f : StorageManager → GcryptM α) : GcryptM α := fun w =>
  match w.manager with
  | some m => f m w
  | none => .error (.notImplemented sessionManagerWarning) w

theorem withManager_of_some {α : Type} {f : StorageManager → GcryptM α} {w : World}
    {m : StorageManager} (h : w.manager = some m) : withManager f w = f m w := by
  simp only [withManager, h]

theorem withManager_of_none {α : Type} {f : StorageManager → GcryptM α} {w : World}
    (h : w.manager = none) :
    withManager f w = .error (.notImplemented sessionManagerWarning) w := by
  simp only [withManager, h]

/-- `GCRYPT_ASSERT_STORE()`. -/
def assertStore : GcryptM Unit := withManager fun _ => pure ()

/-- A write of the store: its next verdict decides whether the content changes. -/
def StorageManager.write (m : StorageManager) (content : StorageManager) : Bool × StorageManager :=
  if m.accepts 0 then
    (true, { content with accepts := fun i => m.accepts (i + 1) })
  else
    (false, { m with accepts := fun i => m.accepts (i + 1) })

/-- The content with a blob put under `(id, type)`. -/
def StorageManager.putPrekey (m : StorageManager) (id : UInt32) (type : KeyType) (blob : Vkey) :
    StorageManager :=
  { m with prekeys := fun i t => if i = id ∧ t = type then some blob else m.prekeys i t }

/-- `store_identity_key_pair`. -/
def storeIdentityKeyPair (ikPairBlob : Vkey) : GcryptM Bool := withManager fun m w =>
  .ok (m.write { m with identity := some ikPairBlob }).1
    (w.setManager (m.write { m with identity := some ikPairBlob }).2)

/-- `store_one_time_prekey`. -/
def storeOneTimePrekey (id : UInt32) (type : KeyType) (keyBlob : Vkey) : GcryptM Bool :=
  withManager fun m w =>
    .ok (m.write (m.putPrekey id type keyBlob)).1
      (w.setManager (m.write (m.putPrekey id type keyBlob)).2)

/-- `load_identity_key_pair`. -/
def loadIdentityKeyPair : GcryptM (Option Vkey) := withManager fun m w =>
  .ok m.identity (w.log .loadIdentityKeyPair)

/-- `load_one_time_prekey`. -/
def loadOneTimePrekey (id : UInt32) (type : KeyType) : GcryptM (Option Vkey) :=
  withManager fun m w => .ok (m.prekeys id type) (w.log (.loadOneTimePrekey id type))

section Applied

variable {w : World} {m : StorageManager} (h : w.manager = some m)
include h

theorem assertStore_apply : assertStore w = .ok () w := withManager_of_some h

theorem loadIdentityKeyPair_apply :
    loadIdentityKeyPair w = .ok m.identity (w.log .loadIdentityKeyPair) := withManager_of_some h

theorem loadOneTimePrekey_apply (id : UInt32) (type : KeyType) :
    loadOneTimePrekey id type w
      = .ok (m.prekeys id type) (w.log (.loadOneTimePrekey id type)) := withManager_of_some h

theorem storeIdentityKeyPair_apply (blob : Vkey) :
    storeIdentityKeyPair blob w
      = .ok (m.write { m with identity := some blob }).1
          (w.setManager (m.write { m with identity := some blob }).2) := withManager_of_some h

theorem storeOneTimePrekey_apply (id : UInt32) (type : KeyType) (blob : Vkey) :
    storeOneTimePrekey id type blob w
      = .ok (m.write (m.putPrekey id type blob)).1
          (w.setManager (m.write (m.putPrekey id type blob)).2) := withManager_of_some h

end Applied

section WithoutStore

variable {w : World} (h : w.manager = none)
include h

theorem assertStore_of_none :
    assertStore w = .error (.notImplemented sessionManagerWarning) w := withManager_of_none h

theorem storeIdentityKeyPair_of_none (blob : Vkey) :
    storeIdentityKeyPair blob w = .error (.notImplemented sessionManagerWarning) w :=
  withManager_of_none h

theorem storeOneTimePrekey_of_none (id : UInt32) (type : KeyType) (blob : Vkey) :
    storeOneTimePrekey id type blob w = .error (.notImplemented sessionManagerWarning) w :=
  withManager_of_none h

end WithoutStore

/-- No event was added. -/
def SameTrace (w w' : World) : Prop := w'.trace = w.trace

/-- A write leaves no event. -/
theorem storeIdentityKeyPair_trace (blob : Vkey) :
    Keeps SameTrace (storeIdentityKeyPair blob) := by
  intro w
  cases hm : w.manager with
  | none => rw [storeIdentityKeyPair_of_none hm, finalState_error, SameTrace]
  | some m => rw [storeIdentityKeyPair_apply hm, finalState_ok, SameTrace, World.setManager_trace]

theorem storeOneTimePrekey_trace (id : UInt32) (type : KeyType) (blob : Vkey) :
    Keeps SameTrace (storeOneTimePrekey id type blob) := by
  intro w
  cases hm : w.manager with
  | none => rw [storeOneTimePrekey_of_none hm, finalState_error, SameTrace]
  | some m => rw [storeOneTimePrekey_apply hm, finalState_ok, SameTrace, World.setManager_trace]

/-- An accepted write is found under its name. -/
theorem storeIdentityKeyPair_accepted {blob : Vkey} {w w' : World}
    (h : storeIdentityKeyPair blob w = .ok true w') :
    ∃ m, w'.manager = some m ∧ m.identity = some blob := by
  cases hm : w.manager with
  | none =>
    rw [storeIdentityKeyPair_of_none hm] at h
    cases h
  | some m =>
    rw [storeIdentityKeyPair_apply hm] at h
    cases hacc : m.accepts 0 with
    | false => simp [StorageManager.write, hacc] at h
    | true =>
      simp only [StorageManager.write, hacc, if_true, EStateM.Result.ok.injEq, true_and] at h
      rw [← h]
      exact ⟨_, rfl, rfl⟩

theorem storeOneTimePrekey_accepted {id : UInt32} {type : KeyType} {blob : Vkey} {w w' : World}
    (h : storeOneTimePrekey id type blob w = .ok true w') :
    ∃ m, w'.manager = some m ∧ m.prekeys id type = some blob := by
  cases hm : w.manager with
  | none =>
    rw [storeOneTimePrekey_of_none hm] at h
    cases h
  | some m =>
    rw [storeOneTimePrekey_apply hm] at h
    cases hacc : m.accepts 0 with
    | false => simp [StorageManager.write, hacc] at h
    | true =>
      simp only [StorageManager.write, hacc, if_true, EStateM.Result.ok.injEq, true_and] at h
      rw [← h]
      exact ⟨_, rfl, by simp [StorageManager.putPrekey]⟩

end Gcrypt
