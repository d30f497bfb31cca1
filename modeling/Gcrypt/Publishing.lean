import Gcrypt.Reference.Instance
import Gcrypt.StoredSessions

/-!
# Gcrypt.Publishing

What a device publishes: that every key it hands out can be found again in the
store, and that the payload for the server agrees with the local bundle.

The first promise is about runs of `make_lkb` and `refill`. The step fact is that a
write never stores anything but the empty blob (`keyBytes_eq_nil`), and the run
relation that carries it is `WritesEmpty`.
-/

namespace Gcrypt

open Effect Keygen

variable {P : Primitives}

/-! ### What publishing keeps -/

/-- A relation between worlds that every statement of `make_lkb` and `refill` keeps:
drawing random bytes, noting what was generated, writing what `key_bytes` encodes. -/
structure PublishFrame (R : World → World → Prop) : Prop where
  frame : Frame R
  skip : ∀ (w : World) (n : Nat), R w (w.skip n)
  log : ∀ (w : World) (e : Event), R w (w.log e)
  storeIdentityKeyPair : ∀ keys : List AnyKey, Keeps R (storeIdentityKeyPair (keyBytes keys))
  storeOneTimePrekey : ∀ (id : UInt32) (type : KeyType) (keys : List AnyKey),
    Keeps R (storeOneTimePrekey id type (keyBytes keys))

theorem keeps_assertStore {R : World → World → Prop} (hR : Frame R) : Keeps R assertStore := by
  intro w
  cases h : w.manager with
  | none =>
    rw [assertStore_of_none h]
    exact hR.refl w
  | some m =>
    rw [assertStore_apply h]
    exact hR.refl w

/-- The part of it that the generators rely on. -/
structure DrawFrame (R : World → World → Prop) : Prop where
  frame : Frame R
  skip : ∀ (w : World) (n : Nat), R w (w.skip n)
  log : ∀ (w : World) (e : Event), R w (w.log e)

theorem PublishFrame.draws {R : World → World → Prop} (hR : PublishFrame R) : DrawFrame R :=
  ⟨hR.frame, hR.skip, hR.log⟩

section Draws

variable {R : World → World → Prop} (hR : DrawFrame R)
include hR

theorem keeps_randombytesBuf (n : Nat) : Keeps R (randombytesBuf n) := fun w => hR.skip w n

theorem keeps_cryptoBoxKeypair : Keeps R (cryptoBoxKeypair P) := by
  intro w
  rw [cryptoBoxKeypair_apply]
  exact hR.frame.trans (hR.skip w 32) (hR.log _ _)

theorem keeps_mlkimplKeypair : Keeps R (mlkimplKeypair P) := by
  intro w
  rw [mlkimplKeypair_apply]
  cases P.mlkimplKeypair (w.peek 64) with
  | ok pair => exact hR.frame.trans (hR.skip w 64) (hR.log _ _)
  | error code => exact hR.skip w 64

theorem keeps_makePair : Keeps R (X25519.makePair P) :=
  Keeps.bind hR.frame (keeps_cryptoBoxKeypair hR) fun _ => Keeps.pure hR.frame _

theorem keeps_makeIdPair : Keeps R (X25519.makeIdPair P) :=
  Keeps.bind hR.frame (keeps_cryptoBoxKeypair hR) fun _ => Keeps.pure hR.frame _

theorem keeps_mlkemMakePair : Keeps R (Mlkem32.makePair P) := by
  refine Keeps.bind hR.frame (keeps_mlkimplKeypair hR) fun r => ?_
  cases r <;> exact Keeps.pure hR.frame _

theorem keeps_mlkemMakeIdPair : Keeps R (Mlkem32.makeIdPair P) := by
  refine Keeps.bind hR.frame (keeps_mlkimplKeypair hR) fun r => ?_
  cases r <;> exact Keeps.pure hR.frame _

theorem keeps_valueOrThrow {α : Type} (x : Except KeyGenError α) : Keeps R (valueOrThrow x) := by
  cases x with
  | ok a => exact Keeps.pure hR.frame a
  | error e => exact Keeps.throw hR.frame _

/-- The loops of `make_lkb`. -/
theorem keeps_fillOneTimePreKeys (count : Nat) (map : UnorderedMap Xckeypair) :
    Keeps R (fillOneTimePreKeys P count map) := by
  induction count generalizing map with
  | zero => exact Keeps.pure hR.frame _
  | succ count ih =>
    refine Keeps.bind hR.frame (keeps_makePair hR) fun r => ?_
    refine Keeps.bind hR.frame (keeps_valueOrThrow hR r) fun pair => ?_
    exact ih _

theorem keeps_fillOneTimeQuantumKeys (count : Nat) (map : UnorderedMap Qkeypair) :
    Keeps R (fillOneTimeQuantumKeys P count map) := by
  induction count generalizing map with
  | zero => exact Keeps.pure hR.frame _
  | succ count ih =>
    refine Keeps.bind hR.frame (keeps_mlkemMakePair hR) fun r => ?_
    refine Keeps.bind hR.frame (keeps_valueOrThrow hR r) fun pair => ?_
    exact ih _

/-- **Step.** `make_lkb`, on each exit: until its one write it only draws. -/
theorem exits_makeLkb {Q : World → World → Prop} (hQ : ExitFrame R Q R)
    (hstore : ∀ keys fault (lkb : LocalKeyBundle),
      Exits Q R (storeIdentityKeyPair (keyBytes keys) >>= fun stored =>
        if !stored then throw fault else pure lkb))
    (deviceId : UInt32) : Exits Q R (makeLkb P deviceId) := by
  -- The Ed25519 generator is the X25519 one.
  have hik : Keeps R (Ed25519.makePair P) := keeps_makePair hR
  refine Exits.bind hQ (keeps_assertStore hR.frame).exits fun _ => ?_
  refine Exits.bind hQ hik.exits fun r => ?_
  refine Exits.bind hQ (keeps_valueOrThrow hR r).exits fun ik => ?_
  refine Exits.bind hQ (keeps_makeIdPair hR).exits fun r => ?_
  refine Exits.bind hQ (keeps_valueOrThrow hR r).exits fun spk => ?_
  refine Exits.bind hQ (keeps_mlkemMakeIdPair hR).exits fun r => ?_
  refine Exits.bind hQ (keeps_valueOrThrow hR r).exits fun qpk => ?_
  refine Exits.bind hQ (keeps_fillOneTimePreKeys hR _ _).exits fun otk => ?_
  refine Exits.bind hQ (keeps_fillOneTimeQuantumKeys hR _ _).exits fun otq => ?_
  exact hstore _ _ _

end Draws

section Steps

variable {R : World → World → Prop} (hR : PublishFrame R)
include hR

/-- `make_lkb`, also where it throws. -/
theorem keeps_makeLkb (deviceId : UInt32) : Keeps R (makeLkb P deviceId) := by
  have hQ : ExitFrame R R R := ⟨hR.frame.trans, hR.frame.trans⟩
  refine (exits_makeLkb hR.draws hQ ?_ deviceId).keeps
  intro keys fault lkb
  refine (Keeps.bind hR.frame (hR.storeIdentityKeyPair keys) fun stored => ?_).exits
  cases stored with
  | false => exact Keeps.throw hR.frame _
  | true => exact Keeps.pure hR.frame _

/-- One iteration of `refill`. -/
theorem keeps_refillPreKey : Keeps R (refillPreKey P) := by
  refine Keeps.bind hR.frame (keeps_makePair hR.draws) fun r => ?_
  refine Keeps.bind hR.frame (keeps_valueOrThrow hR.draws r) fun pair => ?_
  refine Keeps.bind hR.frame (hR.storeOneTimePrekey _ _ _) fun stored => ?_
  cases stored with
  | false => exact Keeps.throw hR.frame _
  | true => exact Keeps.pure hR.frame _

theorem keeps_refillQuantumPreKey (priv : Xckey) : Keeps R (refillQuantumPreKey P priv) := by
  refine Keeps.bind hR.frame (keeps_mlkemMakePair hR.draws) fun r => ?_
  refine Keeps.bind hR.frame (keeps_valueOrThrow hR.draws r) fun pair => ?_
  refine Keeps.bind hR.frame (hR.storeOneTimePrekey _ _ _) fun stored => ?_
  cases stored with
  | false => exact Keeps.throw hR.frame _
  | true =>
    refine Keeps.bind hR.frame (keeps_randombytesBuf hR.draws 64) fun Z => ?_
    exact Keeps.pure hR.frame _

theorem keeps_refillLoop (priv : Xckey) (count : Nat) (payload : RefillPayload) :
    Keeps R (refillLoop P priv count payload) := by
  induction count generalizing payload with
  | zero => exact Keeps.pure hR.frame _
  | succ count ih =>
    refine Keeps.bind hR.frame (keeps_refillPreKey hR) fun x => ?_
    refine Keeps.bind hR.frame (keeps_refillQuantumPreKey hR priv) fun q => ?_
    exact ih _

/-- **Step.** `refill`, also where it throws. -/
theorem keeps_refill (priv : Xckey) (count : UInt32) : Keeps R (refill P priv count) :=
  Keeps.bind hR.frame (keeps_assertStore hR.frame) fun _ => keeps_refillLoop hR priv _ _

end Steps

/-! ### Every write is empty -/

/-- From the first world to the second, blobs have only been replaced by empty ones. -/
def WritesEmpty (w w' : World) : Prop :=
  ∀ m, w.manager = some m → ∃ m', w'.manager = some m' ∧
    (m'.identity = m.identity ∨ m'.identity = some []) ∧
    ∀ id type, m'.prekeys id type = m.prekeys id type ∨ m'.prekeys id type = some []

theorem writesEmpty_of_manager_eq {w w' : World} (h : w'.manager = w.manager) :
    WritesEmpty w w' :=
  fun m hm => ⟨m, h.trans hm, Or.inl rfl, fun _ _ => Or.inl rfl⟩

theorem writesEmpty_frame : Frame WritesEmpty where
  refl _ := writesEmpty_of_manager_eq rfl
  trans := by
    intro w₁ w₂ w₃ h h' m hm
    obtain ⟨m', hm', hid, hpre⟩ := h m hm
    obtain ⟨m'', hm'', hid', hpre'⟩ := h' m' hm'
    refine ⟨m'', hm'', ?_, ?_⟩
    · rcases hid' with hid' | hid'
      · rw [hid']
        exact hid
      · exact Or.inr hid'
    · intro id type
      rcases hpre' id type with hpre' | hpre'
      · rw [hpre']
        exact hpre id type
      · exact Or.inr hpre'

/-- Whether or not the store accepts it, a write of the empty blob changes no other
blob, and this one to the empty one. -/
theorem writesEmpty_publishFrame : PublishFrame WritesEmpty where
  frame := writesEmpty_frame
  skip _ _ := writesEmpty_of_manager_eq rfl
  log _ _ := writesEmpty_of_manager_eq rfl
  storeIdentityKeyPair keys := by
    intro w m hm
    rw [storeIdentityKeyPair_apply hm, keyBytes_eq_nil]
    refine ⟨_, rfl, ?_, ?_⟩
    · cases hacc : m.accepts 0 <;> simp [StorageManager.write, hacc]
    · intro id type
      cases hacc : m.accepts 0 <;> simp [StorageManager.write, hacc]
  storeOneTimePrekey id type keys := by
    intro w m hm
    rw [storeOneTimePrekey_apply hm, keyBytes_eq_nil]
    refine ⟨_, rfl, ?_, ?_⟩
    · cases hacc : m.accepts 0 <;>
        simp [StorageManager.write, StorageManager.putPrekey, hacc]
    · intro id' type'
      cases hacc : m.accepts 0 with
      | false => simp [StorageManager.write, hacc]
      | true =>
        by_cases hkey : id' = id ∧ type' = type <;>
          simp [StorageManager.write, StorageManager.putPrekey, hacc, hkey]

/-! ### Generating always succeeds

where the KEM's generator does: the generators draw what they need and leave the
store alone, so `make_lkb` returns whenever the store accepts its one write. -/

/-- The store is the same before and after. -/
def SameStore (w w' : World) : Prop := w'.manager = w.manager

theorem sameStore_frame : Frame SameStore where
  refl _ := rfl
  trans h h' := h'.trans h

section Generating

variable (hkem : ∀ coins, ∃ pair, P.mlkimplKeypair coins = .ok pair)

theorem delivers_cryptoBoxKeypair :
    Delivers SameStore (fun _ => True) (cryptoBoxKeypair P) :=
  fun w => ⟨_, _, cryptoBoxKeypair_apply P w, trivial, rfl⟩

theorem delivers_valueOrThrow {α : Type} {x : Except KeyGenError α} (h : ∃ a, x = .ok a) :
    Delivers SameStore (fun _ => True) (valueOrThrow x) := by
  obtain ⟨a, rfl⟩ := h
  exact Delivers.pure sameStore_frame trivial

theorem valueOrThrow_ok_apply {α : Type} (a : α) (w : World) :
    valueOrThrow (.ok a) w = .ok a w := rfl

theorem delivers_makePair :
    Delivers SameStore (fun r => ∃ pair, r = .ok pair) (X25519.makePair P) :=
  Delivers.bind sameStore_frame delivers_cryptoBoxKeypair fun out _ =>
    Delivers.pure sameStore_frame ⟨out, rfl⟩

theorem delivers_makeIdPair :
    Delivers SameStore (fun r => ∃ pair, r = .ok pair) (X25519.makeIdPair P) :=
  Delivers.bind sameStore_frame delivers_cryptoBoxKeypair fun _ _ =>
    Delivers.pure sameStore_frame ⟨_, rfl⟩

theorem delivers_fillOneTimePreKeys (count : Nat) (map : UnorderedMap Xckeypair) :
    Delivers SameStore (fun _ => True) (fillOneTimePreKeys P count map) := by
  induction count generalizing map with
  | zero => exact Delivers.pure sameStore_frame trivial
  | succ count ih =>
    refine Delivers.bind sameStore_frame delivers_makePair fun r hr => ?_
    refine Delivers.bind sameStore_frame (delivers_valueOrThrow hr) fun pair _ => ?_
    exact ih _

include hkem

theorem delivers_mlkimplKeypair :
    Delivers SameStore (fun r => ∃ pair, r = .ok pair) (mlkimplKeypair P) := by
  intro w
  obtain ⟨pair, hpair⟩ := hkem (w.peek 64)
  rw [mlkimplKeypair_apply, hpair]
  exact ⟨_, _, rfl, ⟨pair, rfl⟩, rfl⟩

theorem delivers_mlkemMakePair :
    Delivers SameStore (fun r => ∃ pair, r = .ok pair) (Mlkem32.makePair P) := by
  refine Delivers.bind sameStore_frame (delivers_mlkimplKeypair hkem) ?_
  rintro r ⟨pair, rfl⟩
  exact Delivers.pure sameStore_frame ⟨pair, rfl⟩

theorem delivers_mlkemMakeIdPair :
    Delivers SameStore (fun r => ∃ pair, r = .ok pair) (Mlkem32.makeIdPair P) := by
  refine Delivers.bind sameStore_frame (delivers_mlkimplKeypair hkem) ?_
  rintro r ⟨pair, rfl⟩
  exact Delivers.pure sameStore_frame ⟨_, rfl⟩

theorem delivers_fillOneTimeQuantumKeys (count : Nat) (map : UnorderedMap Qkeypair) :
    Delivers SameStore (fun _ => True) (fillOneTimeQuantumKeys P count map) := by
  induction count generalizing map with
  | zero => exact Delivers.pure sameStore_frame trivial
  | succ count ih =>
    refine Delivers.bind sameStore_frame (delivers_mlkemMakePair hkem) fun r hr => ?_
    refine Delivers.bind sameStore_frame (delivers_valueOrThrow hr) fun pair _ => ?_
    exact ih _

/-- `make_lkb` gets as far as its one write. -/
theorem makeLkb_reaches (deviceId : UInt32) {w : World} {m : StorageManager}
    (hm : w.manager = some m) :
    ∃ lkb w₅, w₅.manager = some m ∧
      makeLkb P deviceId w = (storeIdentityKeyPair (keyBytes [⟨_, lkb.IdentityKey.Public⟩,
        ⟨_, lkb.IdentityKey.Private⟩]) >>= fun stored =>
          if !stored then throw (.runtimeError "Gcrypt::store_identity_key_pair failed.")
          else pure lkb) w₅ := by
  -- The Ed25519 generator is the X25519 one.
  obtain ⟨r₁, w₁, h₁, ⟨ik, rfl⟩, hw₁⟩ : ∃ r w₁, Ed25519.makePair P w = .ok r w₁ ∧
      (∃ pair, r = .ok pair) ∧ SameStore w w₁ := delivers_makePair w
  obtain ⟨r₂, w₂, h₂, ⟨spk, rfl⟩, hw₂⟩ := delivers_makeIdPair (P := P) w₁
  obtain ⟨r₃, w₃, h₃, ⟨qpk, rfl⟩, hw₃⟩ := delivers_mlkemMakeIdPair hkem w₂
  obtain ⟨otk, w₄, h₄, -, hw₄⟩ :=
    delivers_fillOneTimePreKeys (P := P) initialPrekeyBundleCount ∅ w₃
  obtain ⟨otq, w₅, h₅, -, hw₅⟩ :=
    delivers_fillOneTimeQuantumKeys hkem initialPrekeyBundleCount ∅ w₄
  have hm₅ : w₅.manager = some m := by
    rw [hw₅, hw₄, hw₃, hw₂, hw₁, hm]
  refine ⟨⟨ik, spk, qpk, otk, otq⟩, w₅, hm₅, ?_⟩
  unfold makeLkb
  rw [bind_of_ok (assertStore_apply hm), bind_of_ok h₁,
    bind_of_ok (valueOrThrow_ok_apply ik w₁), bind_of_ok h₂,
    bind_of_ok (valueOrThrow_ok_apply spk w₂), bind_of_ok h₃,
    bind_of_ok (valueOrThrow_ok_apply qpk w₃), bind_of_ok h₄, bind_of_ok h₅]

/-- `make_lkb` returns where the store accepts the identity pair. -/
theorem makeLkb_returns (deviceId : UInt32) {w : World} {m : StorageManager}
    (hm : w.manager = some m) (hacc : m.accepts 0 = true) :
    ∃ lkb w₁, makeLkb P deviceId w = .ok lkb w₁ := by
  obtain ⟨lkb, w₅, hm₅, h⟩ := makeLkb_reaches hkem deviceId hm
  rw [h, bind_of_ok (storeIdentityKeyPair_apply hm₅ _)]
  simp only [StorageManager.write, hacc, if_true, Bool.not_true, Bool.false_eq_true, if_false]
  exact ⟨_, _, rfl⟩

theorem makeLkb_throws (deviceId : UInt32) {w : World} {m : StorageManager}
    (hm : w.manager = some m) (hacc : m.accepts 0 = false) :
    ∃ e w₁, makeLkb P deviceId w = .error e w₁ := by
  obtain ⟨lkb, w₅, hm₅, h⟩ := makeLkb_reaches hkem deviceId hm
  rw [h, bind_of_ok (storeIdentityKeyPair_apply hm₅ _)]
  simp only [StorageManager.write, hacc, Bool.false_eq_true, if_false, Bool.not_false, if_true]
  exact ⟨_, _, rfl⟩

end Generating

/-! ### Inversion

What `make_lkb` and a half of the loop body of `refill` did, where they returned. -/

theorem assertStore_returned {w w' : World} (h : assertStore w = .ok () w') : w' = w := by
  cases hm : w.manager with
  | none =>
    rw [assertStore_of_none hm] at h
    cases h
  | some m =>
    rw [assertStore_apply hm] at h
    cases h
    rfl

theorem makeLkb_eq_ok {deviceId : UInt32} {lkb : LocalKeyBundle} {w w' : World}
    (h : makeLkb P deviceId w = .ok lkb w') : ∃ w₁ w₂ w₃ w₄ w₅ : World,
      (Ed25519.makePair P >>= valueOrThrow) w = .ok lkb.IdentityKey w₁ ∧
      (X25519.makeIdPair P >>= valueOrThrow) w₁ = .ok lkb.SignedPreKey w₂ ∧
      (Mlkem32.makeIdPair P >>= valueOrThrow) w₂ = .ok lkb.QuantumPreKey w₃ ∧
      fillOneTimePreKeys P initialPrekeyBundleCount ∅ w₃ = .ok lkb.OneTimePreKeys w₄ ∧
      fillOneTimeQuantumKeys P initialPrekeyBundleCount ∅ w₄ = .ok lkb.OneTimeQuantumKeys w₅ ∧
      storeIdentityKeyPair (keyBytes [⟨_, lkb.IdentityKey.Public⟩,
        ⟨_, lkb.IdentityKey.Private⟩]) w₅ = .ok true w' := by
  unfold makeLkb at h
  obtain ⟨_, w₀, hassert, h⟩ := bind_eq_ok.mp h
  obtain ⟨r₁, v₁, hr₁, h⟩ := bind_eq_ok.mp h
  obtain ⟨ik, w₁, hik, h⟩ := bind_eq_ok.mp h
  obtain ⟨r₂, v₂, hr₂, h⟩ := bind_eq_ok.mp h
  obtain ⟨spk, w₂, hspk, h⟩ := bind_eq_ok.mp h
  obtain ⟨r₃, v₃, hr₃, h⟩ := bind_eq_ok.mp h
  obtain ⟨qpk, w₃, hqpk, h⟩ := bind_eq_ok.mp h
  obtain ⟨otk, w₄, hotk, h⟩ := bind_eq_ok.mp h
  obtain ⟨otq, w₅, hotq, h⟩ := bind_eq_ok.mp h
  obtain ⟨stored, w₆, hstore, h⟩ := bind_eq_ok.mp h
  cases assertStore_returned hassert
  cases stored with
  | false => cases h
  | true =>
    cases h
    exact ⟨w₁, w₂, w₃, w₄, w₅, bind_eq_ok.mpr ⟨r₁, v₁, hr₁, hik⟩,
      bind_eq_ok.mpr ⟨r₂, v₂, hr₂, hspk⟩, bind_eq_ok.mpr ⟨r₃, v₃, hr₃, hqpk⟩, hotk, hotq, hstore⟩

theorem refillPreKey_eq_ok {k : Xcikey} {w w' : World} (h : refillPreKey P w = .ok k w') :
    ∃ (pair : Xckeypair) (w₁ : World), (X25519.makePair P >>= valueOrThrow) w = .ok pair w₁ ∧
      storeOneTimePrekey (keyid P pair.Public) .prekey
        (keyBytes [⟨_, pair.Public⟩, ⟨_, pair.Private⟩]) w₁ = .ok true w' ∧
      k = ⟨pair.Public, keyid P pair.Public⟩ := by
  unfold refillPreKey at h
  obtain ⟨r, w₁, hr, h⟩ := bind_eq_ok.mp h
  obtain ⟨pair, w₂, hpair, h⟩ := bind_eq_ok.mp h
  obtain ⟨stored, w₃, hstore, h⟩ := bind_eq_ok.mp h
  cases stored with
  | false => cases h
  | true =>
    cases h
    exact ⟨pair, w₂, bind_eq_ok.mpr ⟨r, w₁, hr, hpair⟩, hstore, rfl⟩

/-- Signing only draws random bytes. -/
theorem refillQuantumPreKey_eq_ok {priv : Xckey} {k : Qsidkey} {w w' : World}
    (h : refillQuantumPreKey P priv w = .ok k w') :
    ∃ (pair : Qkeypair) (w₁ w₂ : World),
      (Mlkem32.makePair P >>= valueOrThrow) w = .ok pair w₁ ∧
      storeOneTimePrekey (keyid P pair.Public) .quantum
        (keyBytes [⟨_, pair.Public⟩, ⟨_, pair.Private⟩]) w₁ = .ok true w₂ ∧
      w' = w₂.skip 64 ∧ k.toIdkey = ⟨pair.Public, keyid P pair.Public⟩ := by
  unfold refillQuantumPreKey at h
  obtain ⟨r, w₁, hr, h⟩ := bind_eq_ok.mp h
  obtain ⟨pair, w₂, hpair, h⟩ := bind_eq_ok.mp h
  obtain ⟨stored, w₃, hstore, h⟩ := bind_eq_ok.mp h
  cases stored with
  | false => cases h
  | true =>
    obtain ⟨Z, w₄, hZ, h⟩ := bind_eq_ok.mp h
    cases hZ
    cases h
    exact ⟨pair, w₂, w₃, bind_eq_ok.mpr ⟨r, w₁, hr, hpair⟩, hstore, rfl, rfl⟩

/-! ### Retrieving what was handed out -/

/-- A refill of a run, as it was called. -/
structure RefillRequest where
  privIdentityKey : Xckey
  Count : UInt32

/-- The refill, called. -/
def RefillRequest.run (P : Primitives) (r : RefillRequest) : GcryptM RefillPayload :=
  refill P r.privIdentityKey r.Count

/-- The payloads of the refills of a run that returned. -/
def payloads (P : Primitives) (refills : List RefillRequest) (w : World) : List RefillPayload :=
  (runAll (RefillRequest.run P) refills w).filterMap fun c => c.outcome.toOption

/-- Everything handed out can be found in the store, under its identifier and the key
type a handshake is answered with. -/
structure Retrievable (P : Primitives) (m : StorageManager) (lkb : LocalKeyBundle)
    (refilled : List RefillPayload) : Prop where
  identityPublic : loadedHalf 32 0 m.identity = some lkb.IdentityKey.Public
  identityPrivate : identityHalf m = some lkb.IdentityKey.Private
  signedPreKey : prekeyHalf m lkb.SignedPreKey.Public.identifier = some lkb.SignedPreKey.Private
  quantumPreKey : quantumHalf m lkb.QuantumPreKey.Public.identifier
    = some lkb.QuantumPreKey.Private
  oneTimePreKeys : ∀ id pair, lkb.OneTimePreKeys.lookup id = some pair →
    prekeyHalf m id = some pair.Private
  oneTimeQuantumKeys : ∀ id pair, lkb.OneTimeQuantumKeys.lookup id = some pair →
    quantumHalf m id = some pair.Private
  refilledPreKeys : ∀ p ∈ refilled, ∀ k ∈ p.oneTimePreKeys,
    ∃ priv, prekeyHalf m k.identifier = some priv ∧ IsBoxPair P ⟨k.key, priv⟩
  refilledQuantumPreKeys : ∀ p ∈ refilled, ∀ k ∈ p.signedOneTimeQuantumPreKeys,
    ∃ priv coins, quantumHalf m k.identifier = some priv ∧
      P.mlkimplKeypair coins = .ok ⟨k.key, priv⟩

/-- A successful `make_lkb` leaves an empty identity blob. -/
theorem makeLkb_identity {deviceId : UInt32} {lkb : LocalKeyBundle} {w w₁ : World}
    (h : makeLkb P deviceId w = .ok lkb w₁) :
    ∃ m, w₁.manager = some m ∧ m.identity = some [] := by
  obtain ⟨w₁, w₂, w₃, w₄, w₅, -, -, -, -, -, hstore⟩ := makeLkb_eq_ok h
  rw [keyBytes_eq_nil] at hstore
  exact storeIdentityKeyPair_accepted hstore

/-- **Run.** After `make_lkb` and any refills the identity blob is empty. -/
theorem identity_after_run {deviceId : UInt32} {lkb : LocalKeyBundle} {w w₁ : World}
    (h : makeLkb P deviceId w = .ok lkb w₁) (refills : List RefillRequest) :
    ∃ m, (runEnd (RefillRequest.run P) refills w₁).manager = some m ∧ m.identity = some [] := by
  obtain ⟨m, hm, hid⟩ := makeLkb_identity h
  obtain ⟨m', hm', hid', -⟩ := runEnd_keeps writesEmpty_frame
    (fun r : RefillRequest =>
      keeps_refill (P := P) writesEmpty_publishFrame r.privIdentityKey r.Count) refills w₁ m hm
  refine ⟨m', hm', ?_⟩
  rcases hid' with hid' | hid'
  · rw [hid', hid]
  · exact hid'

theorem not_retrievable_of_empty {m : StorageManager} {lkb : LocalKeyBundle}
    {refilled : List RefillPayload} (hid : m.identity = some []) :
    ¬ Retrievable P m lkb refilled := by
  intro hret
  have hpub := hret.identityPublic
  rw [hid, loadedHalf_of_short (by decide) (by decide)] at hpub
  cases hpub

/-- **Never retrievable.** In no run is everything that was handed out retrievable. -/
theorem never_retrievable {deviceId : UInt32} {lkb : LocalKeyBundle} {w w₁ : World}
    (h : makeLkb P deviceId w = .ok lkb w₁) (refills : List RefillRequest) :
    ∃ m, (runEnd (RefillRequest.run P) refills w₁).manager = some m ∧
      ¬ Retrievable P m lkb (payloads P refills w₁) := by
  obtain ⟨m, hm, hid⟩ := identity_after_run h refills
  exact ⟨m, hm, not_retrievable_of_empty hid⟩

/-- The identifiers of the public keys generated in a trace. -/
def generatedIds (P : Primitives) (es : List Event) : List UInt32 :=
  es.filterMap fun
    | .boxKeypair pair => some (keyid P pair.Public)
    | .mlkemKeypair pair => some (keyid P pair.Public)
    | _ => none

/-- Stand-ins for the generators and the hash, for the one run that generates too many KEM
pairs to be evaluated: a public key is the clamped private key, or starts with the coins, and
its hash is the first word. Keys are equal exactly where the real ones have to be, for equal
clamped private keys or coins. -/
def plainGenerators : Primitives :=
  { Reference.primitives with
    cryptoScalarmultCurve25519Base := fun n => Key.ofNat 32 (Reference.clamp n.toNat)
    cryptoGenerichash := fun m => UInt32.ofNat (Bytes.toNat (m.take 4))
    mlkimplKeypair := fun coins => .ok ⟨Reference.toKey mlkemPkb coins.bytes, Key.zero⟩ }

/-- An empty store that accepts every write, and random bytes in which every block of 32 has
its number, from 1 on, in the second and third byte, which clamping keeps. -/
def freshWorld : World where
  manager := some ⟨none, fun _ _ => none, fun _ => true⟩
  entropy i :=
    if i % 32 = 1 then UInt8.ofNat (i / 32 + 1)
    else if i % 32 = 2 then UInt8.ofNat ((i / 32 + 1) / 256)
    else 0
  trace := []

theorem freshWorld_makeLkb : ∃ lkb w₁, makeLkb plainGenerators 0 freshWorld = .ok lkb w₁ ∧
    (generatedIds plainGenerators w₁.trace).Pairwise (· < ·) := by
  have hrun : (match makeLkb plainGenerators 0 freshWorld with
      | .ok _ w₁ => decide (List.IsChain (· < ·) (generatedIds plainGenerators w₁.trace))
      | .error _ _ => false) = true := by decide +kernel
  cases h : makeLkb plainGenerators 0 freshWorld with
  | ok lkb w₁ =>
    rw [h] at hrun
    exact ⟨lkb, w₁, rfl, List.isChain_iff_pairwise.mp (of_decide_eq_true hrun)⟩
  | error e w₁ =>
    rw [h] at hrun
    cases hrun

theorem reference_mlkimplKeypair (coins : Key 64) :
    ∃ pair, Reference.primitives.mlkimplKeypair coins = .ok pair := ⟨_, rfl⟩

theorem never_retrievable_freshWorld : ∃ lkb w₁ m,
    makeLkb Reference.primitives 0 freshWorld = .ok lkb w₁ ∧
      (runEnd (RefillRequest.run Reference.primitives) [⟨Key.zero, 3⟩] w₁).manager = some m ∧
      ¬ Retrievable Reference.primitives m lkb
        (payloads Reference.primitives [⟨Key.zero, 3⟩] w₁) := by
  obtain ⟨lkb, w₁, h⟩ := makeLkb_returns reference_mlkimplKeypair 0
    (show freshWorld.manager = some _ from rfl) rfl
  obtain ⟨m, hm, hret⟩ := never_retrievable h [⟨Key.zero, 3⟩]
  exact ⟨lkb, w₁, m, h, hm, hret⟩

/-- A run with distinct identifiers, a faithful store and no refill. -/
theorem freshWorld_not_retrievable : ∃ lkb w₁ m,
    makeLkb plainGenerators 0 freshWorld = .ok lkb w₁ ∧
      (generatedIds plainGenerators w₁.trace).Nodup ∧
      (runEnd (RefillRequest.run plainGenerators) [] w₁).manager = some m ∧
      ¬ Retrievable plainGenerators m lkb (payloads plainGenerators [] w₁) := by
  obtain ⟨lkb, w₁, h, hids⟩ := freshWorld_makeLkb
  obtain ⟨m, hm, hid⟩ := identity_after_run h []
  exact ⟨lkb, w₁, m, h, hids.imp UInt32.ne_of_lt, hm, not_retrievable_of_empty hid⟩

/-! ### The payload for the server -/

/-- The signature is one that `sign32` makes with the identity key over `key`. -/
def SignedBy (P : Primitives) {n : Nat} (identity : Xckey) (key : Key n) (signature : Key 64) :
    Prop := ∃ Z, signature = XedDSA.sign32 P identity key Z

/-- The payload agrees with the bundle: keys, identifiers, signatures, no repetition. -/
structure Consistent (P : Primitives) (keys : LocalKeyBundle) (payload : PublicServerPayload) :
    Prop where
  signedPreKey : payload.signedPreKey.toIdkey = keys.SignedPreKey.Public
  signedPreKeySignature : SignedBy P keys.IdentityKey.Private payload.signedPreKey.key
    payload.signedPreKey.signature
  quantumPreKey : ∃ signature, payload.quantumPreKey
    = ⟨mlkemPkb, ⟨keys.QuantumPreKey.Public, signature⟩⟩
  quantumPreKeySignature : SignedBy P keys.IdentityKey.Private payload.quantumPreKey.2.key
    payload.quantumPreKey.2.signature
  oneTimePreKeys : ∀ k ∈ payload.oneTimePreKeys, ∃ pair,
    keys.OneTimePreKeys.lookup k.identifier = some pair ∧ pair.Public = k.key
  oneTimeQuantumKeys : ∀ k ∈ payload.signedOneTimeQuantumPreKeys,
    (∃ pair, keys.OneTimeQuantumKeys.lookup k.identifier = some pair ∧ pair.Public = k.key) ∧
      SignedBy P keys.IdentityKey.Private k.key k.signature
  oneTimePreKeysDistinct : payload.oneTimePreKeys.Nodup
  oneTimeQuantumKeysDistinct : payload.signedOneTimeQuantumPreKeys.Nodup

theorem serverPayloadLoop_returns (keys : LocalKeyBundle) (remaining i : Nat)
    (pOtpk : List Xcikey) (pOtQpk : List Qsidkey) (w : World) :
    ∃ r w', serverPayloadLoop P keys remaining i pOtpk pOtQpk w = .ok r w' := by
  induction remaining generalizing i pOtpk pOtQpk w with
  | zero => exact ⟨_, w, rfl⟩
  | succ remaining ih =>
    unfold serverPayloadLoop
    dsimp only
    rw [bind_of_ok (show Keygen.random 64 w = .ok (w.peek 64) (w.skip 64) from rfl)]
    exact ih _ _ _ _

/-- The payload is always made, and its last-resort KEM key is the signed prekey. -/
theorem makeServerPayload_returns (count : Nat) (deviceId : UInt32) (keys : LocalKeyBundle)
    (w : World) :
    ∃ payload w', makeServerPayload P count deviceId keys w = .ok payload w' ∧
      ∃ Z, payload.quantumPreKey = ⟨x25519KeySize, {
        key := keys.SignedPreKey.Public.key
        identifier := keys.SignedPreKey.Public.identifier
        signature := XedDSA.sign32 P keys.IdentityKey.Private keys.QuantumPreKey.Public.key Z }⟩ := by
  obtain ⟨r, w', hloop⟩ := serverPayloadLoop_returns (P := P) keys count 0 [] []
    (((w.skip 64).skip 64).skip 4)
  unfold makeServerPayload
  rw [bind_of_ok (show Keygen.random 64 w = .ok (w.peek 64) (w.skip 64) from rfl),
    bind_of_ok (show Keygen.random 64 (w.skip 64)
      = .ok ((w.skip 64).peek 64) ((w.skip 64).skip 64) from rfl),
    bind_of_ok (randombytesBuf_apply 4 _)]
  dsimp only
  rw [bind_of_ok hloop]
  exact ⟨_, w', rfl, _, rfl⟩

theorem not_consistent_of_quantumPreKey {keys : LocalKeyBundle} {payload : PublicServerPayload}
    (h : payload.quantumPreKey.1 = x25519KeySize) : ¬ Consistent P keys payload := by
  intro hcons
  obtain ⟨signature, hq⟩ := hcons.quantumPreKey
  rw [hq] at h
  cases h

/-- **Never consistent.** The payload is made for every bundle and every count, and it
never agrees with the bundle. -/
theorem never_consistent (count : Nat) (deviceId : UInt32) (keys : LocalKeyBundle) (w : World) :
    ∃ payload w', makeServerPayload P count deviceId keys w = .ok payload w' ∧
      ¬ Consistent P keys payload := by
  obtain ⟨payload, w', h, Z, hq⟩ :=
    makeServerPayload_returns (P := P) count deviceId keys w
  exact ⟨payload, w', h, not_consistent_of_quantumPreKey (by rw [hq])⟩

/-- For a bundle from `make_lkb`. -/
theorem freshWorld_not_consistent : ∃ lkb w₁ payload w₂,
    makeLkb Reference.primitives 0 freshWorld = .ok lkb w₁ ∧
      makeServerPayload Reference.primitives 0 0 lkb w₁ = .ok payload w₂ ∧
      ¬ Consistent Reference.primitives lkb payload := by
  obtain ⟨lkb, w₁, h⟩ := makeLkb_returns reference_mlkimplKeypair 0
    (show freshWorld.manager = some _ from rfl) rfl
  obtain ⟨payload, w₂, hp, Z, hq⟩ := makeServerPayload_returns (P := Reference.primitives)
    0 0 lkb w₁
  exact ⟨lkb, w₁, payload, w₂, h, hp, not_consistent_of_quantumPreKey (by rw [hq])⟩

end Gcrypt
