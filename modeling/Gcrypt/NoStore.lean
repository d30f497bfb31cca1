import Gcrypt.Interleavings
import Gcrypt.Randomness

/-!
# Gcrypt.NoStore

The library compiled with `GCRYPT_NOSTORE`. `GCRYPT_ASSERT_STORE` is empty then, `make_lkb` and
`refill` write nothing, and the store-backed `create_inbound_session` answers `nullopt`.

* In every run the two builds deliver the same, where the store of the one accepts what it is
  given (`builds_agree`). Only the store-backed responder tells them apart.
* Over any store, `make_lkb` and `refill` return what the build without one returns, if the
  store accepts the writes of that call, and else nothing (`returned_iff_accepted`).
-/

namespace Gcrypt.NoStore

open Effect Keygen

/-! ### The build -/

section Build

variable (P : Primitives)

/-- `make_lkb`. -/
def makeLkb (_deviceId : UInt32) : GcryptM LocalKeyBundle := do
  let IdentityKey ← valueOrThrow (← Ed25519.makePair P)
  let SignedPreKey ← valueOrThrow (← X25519.makeIdPair P)
  let QuantumPreKey ← valueOrThrow (← Mlkem32.makeIdPair P)
  let OneTimePreKeys ← fillOneTimePreKeys P initialPrekeyBundleCount ∅
  let OneTimeQuantumKeys ← fillOneTimeQuantumKeys P initialPrekeyBundleCount ∅
  return { IdentityKey, SignedPreKey, QuantumPreKey, OneTimePreKeys, OneTimeQuantumKeys }

/-- The first half of the loop body of `refill`. -/
def refillPreKey : GcryptM Xcikey := do
  let pair ← valueOrThrow (← X25519.makePair P)
  let id := keyid P pair.Public
  return { key := pair.Public, identifier := id }

/-- The second half. -/
def refillQuantumPreKey (privIdentityKey : Xckey) : GcryptM Qsidkey := do
  let pair ← valueOrThrow (← Mlkem32.makePair P)
  let id := keyid P pair.Public
  let Z_N ← Keygen.random 64
  return {
    key := pair.Public
    identifier := id
    signature := XedDSA.sign32 P privIdentityKey pair.Public Z_N }

/-- The loop of `refill`. -/
def refillLoop (privIdentityKey : Xckey) : Nat → RefillPayload → GcryptM RefillPayload
  | 0, payload => return payload
  | i + 1, payload => do
    let x ← refillPreKey P
    let q ← refillQuantumPreKey P privIdentityKey
    refillLoop privIdentityKey i {
      oneTimePreKeys := payload.oneTimePreKeys ++ [x]
      signedOneTimeQuantumPreKeys := payload.signedOneTimeQuantumPreKeys ++ [q] }

/-- `refill`. -/
def refill (privIdentityKey : Xckey) (Count : UInt32) : GcryptM RefillPayload :=
  refillLoop P privIdentityKey Count.toNat ⟨[], []⟩

/-- `create_inbound_session`, of a handshake. -/
def createInboundSession (_handshake : InitialMessageHandshake) :
    GcryptM (Option MessagingSession) :=
  return none

/-- The other functions are the same in both builds. -/
def run : LibraryCall → GcryptM Answer
  | .makeLkb deviceId => do
    return .localKeyBundle (← makeLkb P deviceId)
  | .refill priv count => do
    return .refillPayload (← refill P priv count)
  | .createInboundSession hs => do
    return .messagingSession (← createInboundSession hs)
  | c => c.run P

end Build

variable {P : Primitives}

/-! ### A store that accepts -/

/-- The first world has a store, which accepts every write to come. Both have the same random
bytes to come. -/
structure Accepting (w w' : World) : Prop where
  entropy : w'.entropy = w.entropy
  accepts : ∃ m, w.manager = some m ∧ ∀ i, m.accepts i = true

theorem accepting_indistinct : Indistinct Accepting where
  entropy h := h.entropy
  skip h n := ⟨skip_entropy_congr h.entropy n, h.accepts⟩
  log h _ := ⟨h.entropy, h.accepts⟩

section Accepting

variable {w w' : World} (h : Accepting w w')
include h

theorem Accepting.assertStore : ∃ w₁, assertStore w = .ok () w₁ ∧ Accepting w₁ w' := by
  obtain ⟨m, hm, -⟩ := h.accepts
  exact ⟨w, assertStore_apply hm, h⟩

theorem Accepting.write {m : StorageManager} (hm : w.manager = some m)
    (content : StorageManager) : (m.write content).1 = true ∧
      Accepting (w.setManager (m.write content).2) w' := by
  obtain ⟨m', hm', hall⟩ := h.accepts
  obtain rfl : m = m' := Option.some.inj (hm.symm.trans hm')
  simp only [StorageManager.write, hall, if_true, true_and]
  exact ⟨h.entropy, _, rfl, fun i => rfl⟩

theorem Accepting.storeIdentityKeyPair (blob : Vkey) :
    ∃ w₁, storeIdentityKeyPair blob w = .ok true w₁ ∧ Accepting w₁ w' := by
  obtain ⟨m, hm, -⟩ := h.accepts
  obtain ⟨hverdict, hafter⟩ := h.write hm { m with identity := some blob }
  rw [storeIdentityKeyPair_apply hm, hverdict]
  exact ⟨_, rfl, hafter⟩

theorem Accepting.storeOneTimePrekey (id : UInt32) (type : KeyType) (blob : Vkey) :
    ∃ w₁, storeOneTimePrekey id type blob w = .ok true w₁ ∧ Accepting w₁ w' := by
  obtain ⟨m, hm, -⟩ := h.accepts
  obtain ⟨hverdict, hafter⟩ := h.write hm (m.putPrekey id type blob)
  rw [storeOneTimePrekey_apply hm, hverdict]
  exact ⟨_, rfl, hafter⟩

end Accepting

/-! ### Call by call -/

/-- The build has the same statements, but for the store. -/
theorem makeLkb_matches (deviceId : UInt32) :
    Matches Accepting (Gcrypt.makeLkb P deviceId) (makeLkb P deviceId) := by
  have hR := accepting_indistinct
  -- The Ed25519 generator is the X25519 one.
  have hik : Respects Accepting (Ed25519.makePair P) := respects_makePair hR
  refine Matches.drop () (fun h => h.assertStore) ?_
  refine Matches.bind hik fun r => ?_
  refine Matches.bind (respects_valueOrThrow r) fun ik => ?_
  refine Matches.bind (respects_makeIdPair hR) fun r => ?_
  refine Matches.bind (respects_valueOrThrow r) fun spk => ?_
  refine Matches.bind (respects_mlkemMakeIdPair hR) fun r => ?_
  refine Matches.bind (respects_valueOrThrow r) fun qpk => ?_
  refine Matches.bind (respects_fillOneTimePreKeys hR _ _) fun otk => ?_
  refine Matches.bind (respects_fillOneTimeQuantumKeys hR _ _) fun otq => ?_
  refine Matches.drop true (fun h => h.storeIdentityKeyPair _) ?_
  exact Matches.pure _

theorem refillPreKey_matches : Matches Accepting (Gcrypt.refillPreKey P) (refillPreKey P) := by
  refine Matches.bind (respects_makePair accepting_indistinct) fun r => ?_
  refine Matches.bind (respects_valueOrThrow r) fun pair => ?_
  refine Matches.drop true (fun h => h.storeOneTimePrekey _ _ _) ?_
  exact Matches.pure _

theorem refillQuantumPreKey_matches (priv : Xckey) :
    Matches Accepting (Gcrypt.refillQuantumPreKey P priv) (refillQuantumPreKey P priv) := by
  refine Matches.bind (respects_mlkemMakePair accepting_indistinct) fun r => ?_
  refine Matches.bind (respects_valueOrThrow r) fun pair => ?_
  refine Matches.drop true (fun h => h.storeOneTimePrekey _ _ _) ?_
  refine Matches.bind (respects_randombytesBuf accepting_indistinct 64) fun Z => ?_
  exact Matches.pure _

theorem refillLoop_matches (priv : Xckey) (count : Nat) (payload : RefillPayload) :
    Matches Accepting (Gcrypt.refillLoop P priv count payload)
      (refillLoop P priv count payload) := by
  induction count generalizing payload with
  | zero => exact Matches.pure _
  | succ count ih =>
    refine Matches.bind refillPreKey_matches fun x => ?_
    refine Matches.bind (refillQuantumPreKey_matches priv) fun q => ?_
    exact ih _

theorem refill_matches (priv : Xckey) (Count : UInt32) :
    Matches Accepting (Gcrypt.refill P priv Count) (refill P priv Count) :=
  Matches.drop () (fun h => h.assertStore) (refillLoop_matches priv _ _)

/-! ### Run by run -/

/-- **Step.** A call that does not query the store does the same in both builds, on a store that
accepts every write in the one. -/
theorem run_matches {c : LibraryCall} (hc : c.isNotStoreBacked = true) :
    Matches Accepting (c.run P) (run P c) := by
  cases c with
  | makeLkb deviceId => exact (makeLkb_matches deviceId).bind fun _ => Matches.pure _
  | refill priv count => exact (refill_matches priv count).bind fun _ => Matches.pure _
  | createInboundSession hs => cases hc
  | _ => exact LibraryCall.respects_draws accepting_indistinct rfl

/-- **Two builds.** In any run over a store that accepts what it is given, the build with the
store delivers what the build without it delivers, call by call, but for the store-backed
responder. -/
theorem builds_agree (P : Primitives) {w w' : World} (h : Accepting w w')
    (calls : List LibraryCall) :
    (answers (LibraryCall.run P) calls w).filter (fun p => p.1.isNotStoreBacked)
        = (answers (run P) calls w').filter (fun p => p.1.isNotStoreBacked) ∧
      Accepting (worldAfter P calls w) (runEnd (run P) calls w') := by
  refine answers_matches (f := LibraryCall.run P) (g := run P) (fun c hc => run_matches hc)
    (fun c hc {v v'} hv => ?_) calls h
  have hcore : SameCore v (finalState (c.run P v)) :=
    LibraryCall.keeps_sameCore (LibraryCall.isNotInbound_of_storeBacked hc) v
  cases c with
  | createInboundSession hs =>
    refine ⟨hv.entropy.trans hcore.entropy.symm, ?_⟩
    rw [hcore.manager]
    exact hv.accepts
  | _ => cases hc

/-- A new device, and the same bytes without a store. -/
theorem builds_agree_newDevice :
    (answers (LibraryCall.run Reference.primitives) mixedCalls newDevice).filter
        (fun p => p.1.isNotStoreBacked)
      = (answers (run Reference.primitives) mixedCalls { newDevice with manager := none }).filter
        (fun p => p.1.isNotStoreBacked) ∧
    Accepting (worldAfter Reference.primitives mixedCalls newDevice)
      (runEnd (run Reference.primitives) mixedCalls { newDevice with manager := none }) := by
  have haccepting : Accepting newDevice { newDevice with manager := none } :=
    ⟨rfl, _, rfl, fun _ => rfl⟩
  exact builds_agree Reference.primitives haccepting mixedCalls

/-! ### Over any store -/

/-- The same world with an empty store that accepts. -/
def withStore (w : World) : World := w.setManager ⟨none, fun _ _ => none, fun _ => true⟩

theorem accepting_withStore (w : World) : Accepting (withStore w) w :=
  ⟨rfl, _, rfl, fun _ => rfl⟩

theorem makeLkb_drawn_iff (deviceId : UInt32) {w : World} {lkb : LocalKeyBundle} :
    outcome (makeLkb P deviceId w) = .ok lkb ↔
      ∃ g : LkbPairs, g.DrawnFrom P w ∧ lkb = g.bundle P := by
  rw [← ((makeLkb_matches deviceId).alike (accepting_withStore w)).outcome]
  constructor
  · intro h
    obtain ⟨w₁, hrun⟩ := outcome_eq_ok h
    obtain ⟨-, g, -, -, hg, rfl, -⟩ := makeLkb_drawn hrun
    exact ⟨g, hg.congr rfl, rfl⟩
  · rintro ⟨g, hg, rfl⟩
    exact makeLkb_of_drawn deviceId rfl rfl (hg.congr rfl)

theorem refill_drawn_iff (priv : Xckey) (Count : UInt32) {w : World} {payload : RefillPayload} :
    outcome (refill P priv Count w) = .ok payload ↔
      ∃ rounds, Batch (refillRound P priv) 160 Count.toNat w rounds ∧
        payload = ⟨rounds.map Prod.fst, rounds.map Prod.snd⟩ := by
  have hreads : ReadsEntropy (refillRound P priv) := fun h => refillRound_congr h priv
  have hbatch {rounds : List (Xcikey × Qsidkey)} :
      Batch (refillRound P priv) 160 Count.toNat w rounds ↔
        Batch (refillRound P priv) 160 Count.toNat (withStore w) rounds :=
    Batch.congr hreads rfl
  rw [← ((refill_matches priv Count).alike (accepting_withStore w)).outcome, refill_outcome_iff]
  simp only [hbatch]
  exact and_iff_right ⟨_, rfl, fun _ _ => rfl⟩

/-- **The store says whether, not what.** Over any store and any random bytes, `make_lkb` and
`refill` return a value if and only if the build without a store returns it and the store
accepts each write of the call. -/
theorem returned_iff_accepted (P : Primitives) (w : World) :
    (∀ deviceId lkb, outcome (Gcrypt.makeLkb P deviceId w) = .ok lkb ↔
      (∃ m, w.manager = some m ∧ m.accepts 0 = true) ∧
        outcome (makeLkb P deviceId w) = .ok lkb) ∧
    ∀ priv Count payload, outcome (Gcrypt.refill P priv Count w) = .ok payload ↔
      (∃ m, w.manager = some m ∧ ∀ i < 2 * Count.toNat, m.accepts i = true) ∧
        outcome (refill P priv Count w) = .ok payload := by
  refine ⟨fun deviceId lkb => ?_, fun priv Count payload => ?_⟩
  · rw [makeLkb_drawn_iff]
    constructor
    · intro h
      obtain ⟨w₁, hrun⟩ := outcome_eq_ok h
      obtain ⟨m, g, hm, hacc, hg, hlkb, -⟩ := makeLkb_drawn hrun
      exact ⟨⟨m, hm, hacc⟩, g, hg, hlkb⟩
    · rintro ⟨⟨m, hm, hacc⟩, g, hg, rfl⟩
      exact makeLkb_of_drawn deviceId hm hacc hg
  · rw [refill_drawn_iff, refill_outcome_iff]

end Gcrypt.NoStore
