import Gcrypt.Inbound
import Gcrypt.KeyAgreement

/-!
# Gcrypt.StoredSessions

What the store-backed responder promises, and when it keeps it.

The promises are stated against an abstract reading of the store that uses the
library's own loader: `loadedHalf` is the key a blob holds at an offset of the
documented layout `Public || Private`.

* **Refinement**: the answer is that of the explicit overload on the stored keys.
* **Fail closed**: without a blob that holds the key there is no session, and no
  default-initialised key is ever used.
* **Use once**: a one-time prekey contributes to at most one session of a run.

All three are read off `createInboundSession_of_not_slips` and its two companions.
-/

namespace Gcrypt

open Effect Handshake Agreement

/-! ### What the store holds -/

/-- The key of `n` bytes that the loader finds in a blob at `offset`. -/
def loadedHalf (n offset : Nat) (blob : Option Vkey) : Option (Key n) :=
  blob.bind fun bytes =>
    match loadKeyb bytes (Key.zero : Key n) offset with
    | .ok (true, key) => some key
    | _ => none

/-- The private halves that `create_inbound_session` means to load: of the identity pair, of a
prekey and of a KEM key. -/
def identityHalf (m : StorageManager) : Option Xckey := loadedHalf 32 32 m.identity
def prekeyHalf (m : StorageManager) (id : UInt32) : Option Xckey :=
  loadedHalf 32 32 (m.prekeys id .prekey)
def quantumHalf (m : StorageManager) (id : UInt32) : Option Qprivkey :=
  loadedHalf mlkemSkb mlkemPkb (m.prekeys id .quantum)

theorem loadedHalf_of_short {n offset : Nat} {blob : Option Vkey}
    (hw : n + offset < sizeTRange) (h : tooShort blob (n + offset) = true) :
    loadedHalf n offset blob = none := by
  cases blob with
  | none => rfl
  | some bytes =>
    have hlen : bytes.length < n + offset := by simpa [tooShort] using h
    simp [loadedHalf, loadKeyb_of_short hw hlen]

theorem tooShort_mono {blob : Option Vkey} {a b : Nat} (hab : a ≤ b)
    (h : tooShort blob a = true) : tooShort blob b = true := by
  cases blob with
  | none => exact h
  | some bytes =>
    simp only [tooShort, Option.any_some, decide_eq_true_eq] at h ⊢
    omega

/-! ### Refinement of the explicit overload -/

section Refinement

/-- The store holds `bob`'s pairs, in the documented layout, under the identifiers
of the bundle. -/
structure HoldsPairs (m : StorageManager) (keys : ForeignPrekeyBundle) (bob : ResponderKeys) :
    Prop where
  identity : m.identity = some (bob.identity.Public.bytes ++ bob.identity.Private.bytes)
  signedPreKey : m.prekeys keys.signedPreKey.identifier .prekey
    = some (bob.signedPreKey.Public.bytes ++ bob.signedPreKey.Private.bytes)
  oneTimePreKey : keys.oneTimePreKey.map (fun k => m.prekeys k.identifier .prekey)
    = bob.oneTimePreKey.map fun pair => some (pair.Public.bytes ++ pair.Private.bytes)
  quantumPreKey : m.prekeys keys.quantumKeyId .quantum
    = some (bob.quantumPreKey.Public.bytes ++ bob.quantumPreKey.Private.bytes)

/-- The explicit overload on the private halves `bob` holds. -/
def inboundOf (P : Primitives) (bob : ResponderKeys) (hs : InitialMessageHandshake) :
    GcryptM (Option MessagingSession) :=
  createInboundSessionExplicit P bob.identity bob.signedPreKey.Private
    (bob.oneTimePreKey.map (·.Private)) bob.quantumPreKey.Private hs

variable {P : Primitives} {m : StorageManager} {keys : ForeignPrekeyBundle}
  {bob : ResponderKeys}

/-- A store that holds the pairs lets nothing slip through: the identity blob is
long enough for its first load, which therefore ends the function. -/
theorem not_slips_of_holds (h : HoldsPairs m keys bob) (hs : InitialMessageHandshake) :
    slipsThrough m hs = false := by
  have hid : tooShort m.identity 32 = false := by
    rw [h.identity]
    simp [tooShort]
  unfold slipsThrough
  split <;> simp [hid]

/-- **Refinement, exactly.** On a store that holds the pairs the two overloads agree
if and only if the explicit one reports a failed derivation. -/
theorem storeBacked_refines_iff {idk ek : Xckey} {ct : Key mlkemCtb} {SK : Key 32} {w : World}
    (h : HoldsPairs m keys bob) :
    outcome (createInboundSession P (finalizeOutboundSession idk ek ct SK keys).handshakeMessage
        (w.setManager m))
      = outcome (inboundOf P bob (finalizeOutboundSession idk ek ct SK keys).handshakeMessage
        (w.setManager m)) ↔
    DerivationFails P bob.identity bob.signedPreKey.Private
      (bob.oneTimePreKey.map (·.Private)) bob.quantumPreKey.Private
      (finalizeOutboundSession idk ek ct SK keys).handshakeMessage := by
  obtain ⟨w₁, -, heq⟩ := createInboundSession_of_not_slips (P := P) (w := w.setManager m) rfl
    (not_slips_of_holds h (finalizeOutboundSession idk ek ct SK keys).handshakeMessage)
  rw [heq, outcome_ok, ← inboundAnswer_eq_nullopt, ← inbound_outcome_iff (w := w.setManager m)]
  exact eq_comm

/-! Bob's store. -/

def bobStore : StorageManager where
  identity := some (bobPair.Public.bytes ++ bobPair.Private.bytes)
  prekeys id type :=
    if id = 1 ∧ type = .prekey then some (signedPair.Public.bytes ++ signedPair.Private.bytes)
    else if id = 2 ∧ type = .prekey then
      some (oneTimePair.Public.bytes ++ oneTimePair.Private.bytes)
    else if id = 3 ∧ type = .quantum then
      some (Reference.zeroSeedPair.Public.bytes ++ Reference.zeroSeedPair.Private.bytes)
    else none
  accepts _ := true

theorem bobStore_holds : HoldsPairs bobStore (bobBundle (.inl signedQuantum)) bobKeys :=
  ⟨rfl, rfl, rfl, rfl⟩

/-- A handshake of Alice's with Bob, around a cipher text. -/
def aliceHandshake (ct : Key mlkemCtb) : InitialMessageHandshake :=
  (finalizeOutboundSession alicePair.Public (ephemeral Reference.primitives zeroWorld).Public
    ct Key.zero (bobBundle (.inl signedQuantum))).handshakeMessage

theorem storeBacked_refines_iff_bob :
    outcome (createInboundSession Reference.primitives (aliceHandshake Key.zero)
        (zeroWorld.setManager bobStore))
      = outcome (inboundOf Reference.primitives bobKeys (aliceHandshake Key.zero)
        (zeroWorld.setManager bobStore)) ↔
    DerivationFails Reference.primitives bobKeys.identity bobKeys.signedPreKey.Private
      (bobKeys.oneTimePreKey.map (·.Private)) bobKeys.quantumPreKey.Private
      (aliceHandshake Key.zero) :=
  storeBacked_refines_iff bobStore_holds

/-- Bob answers Alice with the keys in hand, and not with the keys in the store. -/
theorem bobStore_not_refined : ∃ ct,
    (∃ s, outcome (inboundOf Reference.primitives bobKeys (aliceHandshake ct)
        (zeroWorld.setManager bobStore)) = .ok (some s)) ∧
      outcome (createInboundSession Reference.primitives (aliceHandshake ct)
        (zeroWorld.setManager bobStore)) = .ok none := by
  obtain ⟨ct, ss, -, hdec⟩ := Reference.zeroSeedPair_roundtrip
  refine ⟨ct, ?_, ?_⟩
  · obtain ⟨s, v₁, hin⟩ := inbound_of_succeeds (bobKeys_succeed hdec)
      (zeroWorld.setManager bobStore)
    exact ⟨s, by rw [inboundOf, aliceHandshake, hin]; rfl⟩
  · obtain ⟨w₁, -, heq⟩ := createInboundSession_of_not_slips (P := Reference.primitives)
      (w := zeroWorld.setManager bobStore) rfl (not_slips_of_holds bobStore_holds _)
    rw [aliceHandshake, heq]
    rfl

end Refinement

/-! ### Failing closed -/

section FailClosed

/-- Every blob the handshake names holds the private half it is named for. -/
structure AllStored (m : StorageManager) (hs : InitialMessageHandshake) : Prop where
  identity : (identityHalf m).isSome
  signedPreKey : ∃ s ∈ hs.usedPreKeys[0]?, (prekeyHalf m s).isSome
  oneTimePreKey : ∀ o ∈ hs.usedPreKeys[1]?, (prekeyHalf m o).isSome
  quantumPreKey : ∃ q ∈ hs.usedQuantumPreKeys[0]?, (quantumHalf m q).isSome

/-- The event uses an all-zero private key that no blob of the handshake holds. -/
def Event.OnDefaultKey (m : StorageManager) (hs : InitialMessageHandshake) : Event → Prop
  | .ssecret priv _ => priv = Key.zero ∧ identityHalf m ≠ some Key.zero ∧
      ∀ id ∈ hs.usedPreKeys.take 2, prekeyHalf m id ≠ some Key.zero
  | .decapsulate priv => priv = Key.zero ∧
      ∀ q ∈ hs.usedQuantumPreKeys.take 1, quantumHalf m q ≠ some Key.zero
  | _ => False

/-- What fail-closed processing of one handshake is, on a store `m`. -/
structure FailsClosed (P : Primitives) (m : StorageManager) (hs : InitialMessageHandshake)
    (w : World) : Prop where
  session_only : ∀ s, outcome (createInboundSession P hs (w.setManager m)) = .ok (some s) →
    AllStored m hs
  nullopt : ¬ AllStored m hs → outcome (createInboundSession P hs (w.setManager m)) = .ok none
  no_default_key : ∀ e ∈ (w.setManager m).newEvents
    (finalState (createInboundSession P hs (w.setManager m))), ¬ e.OnDefaultKey m hs

variable {P : Primitives} {m : StorageManager} {hs : InitialMessageHandshake} {w : World}

theorem failsClosed_of_not_slips (h : slipsThrough m hs = false) : FailsClosed P m hs w := by
  obtain ⟨w₁, hw₁, heq⟩ :=
    createInboundSession_of_not_slips (P := P) (w := w.setManager m) rfl h
  refine ⟨?_, ?_, ?_⟩
  · intro s hs'
    rw [heq] at hs'
    cases hs'
  · intro _
    rw [heq]
    rfl
  · intro e he
    rw [heq] at he
    have hlookup : e.IsLookup := (hw₁.extends isLookup_of_loadsMade).newEvents e he
    -- A lookup uses no private key.
    cases e <;> first | exact id | exact absurd hlookup id

/-- What a handshake that slips through leaves of the stored keys: neither the
identity pair nor a named prekey can be loaded. -/
theorem halves_of_slips (h : slipsThrough m hs = true) :
    identityHalf m = none ∧ ∀ id ∈ hs.usedPreKeys.take 2, prekeyHalf m id = none := by
  unfold slipsThrough at h
  split at h
  · cases h
  · rename_i s hids
    simp only [Bool.and_eq_true] at h
    refine ⟨loadedHalf_of_short (by decide) (tooShort_mono (by decide) h.1), ?_⟩
    intro id hid
    rw [hids] at hid
    rw [List.mem_singleton.mp hid]
    exact loadedHalf_of_short (by decide) h.2
  · rename_i s o rest hids
    simp only [Bool.and_eq_true] at h
    obtain ⟨⟨⟨hi, hs₀⟩, ho⟩, -⟩ := h
    refine ⟨loadedHalf_of_short (by decide) (tooShort_mono (by decide) hi), ?_⟩
    intro id hid
    rw [hids] at hid
    rcases List.mem_pair.mp hid with rfl | rfl
    · exact loadedHalf_of_short (by decide) hs₀
    · exact loadedHalf_of_short (by decide) ho

theorem not_failsClosed_of_slips (h : slipsThrough m hs = true) : ¬ FailsClosed P m hs w := by
  intro hclosed
  obtain ⟨hid, hpre⟩ := halves_of_slips h
  have hmissing : ¬ AllStored m hs := by
    intro hall
    have := hall.identity
    rw [hid] at this
    cases this
  have hnull := hclosed.nullopt hmissing
  rcases hids : hs.usedPreKeys with _ | ⟨s, _ | ⟨o, rest⟩⟩
  · simp [slipsThrough, hids] at h
  · obtain ⟨w₁, -, heq⟩ := createInboundSession_one (P := P) (w := w.setManager m) rfl hids
    rw [heq, h] at hnull
    cases hnull
  · obtain ⟨w₁, hw₁, heq⟩ := createInboundSession_two (P := P) (w := w.setManager m) rfl hids
    rw [h, if_pos rfl] at heq
    rw [heq] at hnull
    cases hdec : P.mlkimplDec hs.cipherText Key.zero with
    | error ret =>
      have hthrow : Throws (inboundOnDefaultKeys P hs) w₁ := inbound_of_dec_error hdec
      obtain ⟨e, w', he⟩ := hthrow
      rw [he] at hnull
      cases hnull
    | ok ss =>
      -- `DH_1` has been evaluated on the zero key.
      have hlog : World.Extends Event.IsSecret
          ((w₁.log (.decapsulate Key.zero)).log (.ssecret Key.zero hs.identityKey))
          (finalState (inboundOnDefaultKeys P hs w₁)) := inbound_logs_ssecret w₁ hdec
      have hnew := hw₁.extends (p := fun _ => True) fun _ _ => trivial
      have hmem := World.Extends.mem_newEvents
        ((extends_frame _).trans hnew (extends_log w₁ trivial)) hlog
      rw [← heq] at hmem
      refine hclosed.no_default_key _ hmem ⟨rfl, ?_, ?_⟩
      · simp [hid]
      · intro id' hid'
        simp [hpre id' hid']

/-- **Fail closed, exactly.** A handshake is processed as promised if and only if not
every blob it makes the function load slips through. -/
theorem failsClosed_iff : FailsClosed P m hs w ↔ slipsThrough m hs = false := by
  constructor
  · intro hclosed
    by_contra hslip
    rw [Bool.not_eq_false] at hslip
    exact not_failsClosed_of_slips hslip hclosed
  · exact failsClosed_of_not_slips

/-! A store that has a blob for everything, and a byte in none of them. -/

def emptyBlobs : StorageManager := ⟨some [], fun _ _ => some [], fun _ => true⟩

/-- Reference primitives whose decapsulation succeeds on any key. -/
def lenientPrimitives : Primitives :=
  { Reference.primitives with mlkimplDec := fun _ _ => .ok Key.zero }

/-- The keys of Alice's handshake are on the curve, so every value from zero keys exists. -/
theorem derives_from_zero (ct : Key mlkemCtb) : ∃ SK,
    Derives lenientPrimitives Xckeypair.zero Key.zero (some Key.zero) Key.zero
      (aliceHandshake ct) SK := by
  have hmand : (secrets (dh lenientPrimitives) [(Key.zero, alicePair.Public),
      (Key.zero, (ephemeral Reference.primitives zeroWorld).Public),
      (Key.zero, (ephemeral Reference.primitives zeroWorld).Public)]).isSome = true := by
    decide +kernel
  have hopt : (secrets (dh lenientPrimitives)
      [(Key.zero, (ephemeral Reference.primitives zeroWorld).Public)]).isSome = true := by
    decide +kernel
  obtain ⟨ds, hds⟩ := Option.isSome_iff_exists.mp hmand
  obtain ⟨es, hes⟩ := Option.isSome_iff_exists.mp hopt
  obtain ⟨SK, hSK⟩ := rootKey_of_total (P := lenientPrimitives) (ds ++ es ++ [Key.zero])
    (fun _ _ => rfl) (fun _ _ => rfl)
  refine ⟨SK, Key.zero, ds, rfl, hds, ?_⟩
  show (secrets (dh lenientPrimitives)
    [(Key.zero, (ephemeral Reference.primitives zeroWorld).Public)]).bind _ = some SK
  rw [hes]
  exact hSK

/-- Nothing is stored, and yet there is a session if decapsulation succeeds; if it
fails, an exception leaves the function instead of `nullopt`. -/
theorem emptyBlobs_not_closed :
    ¬ AllStored emptyBlobs (aliceHandshake Key.zero) ∧
      (∃ s, outcome (createInboundSession lenientPrimitives (aliceHandshake Key.zero)
        (zeroWorld.setManager emptyBlobs)) = .ok (some s)) ∧
      outcome (createInboundSession Reference.primitives (aliceHandshake Key.zero)
        (zeroWorld.setManager emptyBlobs)) ≠ .ok none := by
  have hids : (aliceHandshake Key.zero).usedPreKeys = [1, 2] := rfl
  have hslip : slipsThrough emptyBlobs (aliceHandshake Key.zero) = true := by decide
  refine ⟨?_, ?_, ?_⟩
  · intro hall
    exact absurd hall.identity (by decide)
  · obtain ⟨w₁, -, heq⟩ := createInboundSession_two (P := lenientPrimitives)
      (w := zeroWorld.setManager emptyBlobs) rfl hids
    obtain ⟨SK, hSK⟩ := derives_from_zero Key.zero
    rw [heq, hslip, if_pos rfl, inboundOnDefaultKeys]
    exact ⟨_, inbound_outcome_iff.mpr (inboundAnswer_eq_session.mpr ⟨SK, hSK, rfl⟩)⟩
  · obtain ⟨w₁, -, heq⟩ := createInboundSession_two (P := Reference.primitives)
      (w := zeroWorld.setManager emptyBlobs) rfl hids
    rw [heq, hslip, if_pos rfl, inboundOnDefaultKeys, Ne, inbound_outcome_iff,
      inboundAnswer_eq_nullopt]
    rintro ⟨ss, -, hdec, -, -⟩
    cases hdec.symm.trans Reference.mlkimplDec_zero

end FailClosed

/-! ### Using a one-time prekey once -/

section UseOnce

/-- A run of the responder over a list of handshakes. -/
abbrev InboundCall := Call InitialMessageHandshake Fault World (Option MessagingSession)

/-- The call returned a session, and its handshake named the one-time prekey `id`. -/
def Contributes (id : UInt32) (c : InboundCall) : Prop :=
  c.input.usedPreKeys[1]? = some id ∧ ∃ s, c.outcome = .ok (some s)

/-- What a run that uses every one-time prekey once looks like. -/
structure UsedOnce (calls : List InboundCall) : Prop where
  at_most_once : ∀ id, calls.Pairwise fun c c' => ¬ (Contributes id c ∧ Contributes id c')
  deleted : ∀ c ∈ calls, ∀ id, Contributes id c →
    ∀ m, c.after.manager = some m → m.prekeys id .prekey = none
  refused : ∀ id, calls.Pairwise fun c c' => Contributes id c →
    c'.input.usedPreKeys[1]? = some id → c'.outcome = .ok none

/-- The handshake gets a session out of blobs that are too short, for a one-time
prekey that is in the store. -/
def DerivesFromShortBlobs (P : Primitives) (m : StorageManager) (hs : InitialMessageHandshake) :
    Prop :=
  slipsThrough m hs = true ∧ (∃ o, hs.usedPreKeys[1]? = some o) ∧
    ∃ SK, Derives P Xckeypair.zero Key.zero (some Key.zero) Key.zero hs SK

variable {P : Primitives} {m : StorageManager} {hs : InitialMessageHandshake} {w : World}

/-- **Step.** When a call returns a session. -/
theorem session_iff (h : w.manager = some m) :
    (∃ s, outcome (createInboundSession P hs w) = .ok (some s)) ↔
      DerivesFromShortBlobs P m hs := by
  unfold DerivesFromShortBlobs
  cases hslip : slipsThrough m hs with
  | false =>
    obtain ⟨w₁, -, heq⟩ := createInboundSession_of_not_slips (P := P) h hslip
    simp [heq]
  | true =>
    rcases hids : hs.usedPreKeys with _ | ⟨s, _ | ⟨o, rest⟩⟩
    · simp [slipsThrough, hids] at hslip
    · obtain ⟨w₁, -, heq⟩ := createInboundSession_one (P := P) h hids
      simp [heq, hslip]
    · obtain ⟨w₁, -, heq⟩ := createInboundSession_two (P := P) h hids
      rw [heq, hslip, if_pos rfl, inboundOnDefaultKeys]
      simp only [inbound_outcome_iff, inboundAnswer_eq_session]
      constructor
      · rintro ⟨_, SK, hSK, rfl⟩
        exact ⟨trivial, ⟨o, rfl⟩, SK, hSK⟩
      · rintro ⟨-, -, SK, hSK⟩
        exact ⟨_, SK, hSK, rfl⟩

/-- A one-time prekey that contributes to a session was, and stays, in the store. -/
theorem stored_of_slips {o : UInt32} (hslip : slipsThrough m hs = true)
    (ho : hs.usedPreKeys[1]? = some o) : m.prekeys o .prekey ≠ none := by
  intro hnone
  unfold slipsThrough at hslip
  split at hslip
  · cases hslip
  · rename_i s hids
    rw [hids] at ho
    cases ho
  · rename_i s o' rest hids
    rw [hids] at ho
    cases ho
    simp [tooShort, hnone] at hslip

/-- **Run.** In a run on a store `m` every call finds the store `m`. -/
theorem inbound_run_mem {hss : List InitialMessageHandshake} {c : InboundCall}
    (h : w.manager = some m) (hc : c ∈ runAll (createInboundSession P) hss w) :
    c.input ∈ hss ∧ c.after.manager = some m ∧
      ((∃ s, c.outcome = .ok (some s)) ↔ DerivesFromShortBlobs P m c.input) := by
  obtain ⟨hin, w₁, hw₁, hout, hafter⟩ :=
    runAll_mem (extends_frame _) keeps_createInboundSession hc
  have hstore : w₁.manager = some m := hw₁.1.trans h
  refine ⟨hin, ?_, ?_⟩
  · rw [hafter]
    exact (keeps_createInboundSession c.input w₁).1.trans hstore
  · rw [hout]
    exact session_iff hstore

/-- **Use once, exactly.** A run keeps the promise if and only if none of its
handshakes gets a session out of blobs that are too short. -/
theorem usedOnce_iff {hss : List InitialMessageHandshake} :
    UsedOnce (runAll (createInboundSession P) hss (w.setManager m)) ↔
      ∀ hs ∈ hss, ¬ DerivesFromShortBlobs P m hs := by
  constructor
  · intro honce hs hhs hderive
    obtain ⟨c, hc, rfl⟩ := exists_call_of_mem (f := createInboundSession P)
      (s := w.setManager m) hhs
    obtain ⟨-, hafter, hsession⟩ := inbound_run_mem rfl hc
    have hsome := hsession.mpr hderive
    obtain ⟨hslip, ⟨o, ho⟩, -⟩ := hderive
    have hcontributes : Contributes o c := ⟨ho, hsome⟩
    exact stored_of_slips hslip ho (honce.deleted c hc o hcontributes m hafter)
  · intro hnone
    -- No call contributes, so there is nothing to use twice.
    have hquiet : ∀ c ∈ runAll (createInboundSession P) hss (w.setManager m), ∀ id,
        ¬ Contributes id c := by
      intro c hc id hcontributes
      obtain ⟨hin, -, hsession⟩ := inbound_run_mem rfl hc
      exact hnone c.input hin (hsession.mp hcontributes.2)
    refine ⟨?_, ?_, ?_⟩
    · intro id
      exact List.pairwise_of_forall_mem_list fun c hc _ _ hboth => hquiet c hc id hboth.1
    · intro c hc id hcontributes
      exact absurd hcontributes (hquiet c hc id)
    · intro id
      exact List.pairwise_of_forall_mem_list fun c hc _ _ hcontributes =>
        absurd hcontributes (hquiet c hc id)

/-- Replaying Alice's handshake on blobs that are empty gives two sessions for the
one-time prekey 2, which is still in the store. -/
theorem replay_accepted :
    (∀ c ∈ runAll (createInboundSession lenientPrimitives)
        [aliceHandshake Key.zero, aliceHandshake Key.zero] (zeroWorld.setManager emptyBlobs),
      Contributes 2 c ∧ c.after.manager = some emptyBlobs) ∧
    ¬ UsedOnce (runAll (createInboundSession lenientPrimitives)
        [aliceHandshake Key.zero, aliceHandshake Key.zero]
        (zeroWorld.setManager emptyBlobs)) := by
  have hall : ∀ c ∈ runAll (createInboundSession lenientPrimitives)
      [aliceHandshake Key.zero, aliceHandshake Key.zero] (zeroWorld.setManager emptyBlobs),
      Contributes 2 c ∧ c.after.manager = some emptyBlobs := by
    intro c hc
    obtain ⟨hin, hafter, hsession⟩ := inbound_run_mem rfl hc
    have hinput : c.input = aliceHandshake Key.zero := by simpa using hin
    rw [Contributes, hsession, hinput]
    exact ⟨⟨rfl, by decide, ⟨2, rfl⟩, derives_from_zero Key.zero⟩, hafter⟩
  refine ⟨hall, fun honce => ?_⟩
  obtain ⟨c, hc, -⟩ := exists_call_of_mem (f := createInboundSession lenientPrimitives)
    (s := zeroWorld.setManager emptyBlobs)
    (List.mem_cons_self (a := aliceHandshake Key.zero) (l := [aliceHandshake Key.zero]))
  obtain ⟨hcontributes, hafter⟩ := hall c hc
  exact absurd (honce.deleted c hc 2 hcontributes emptyBlobs hafter) (by decide)

end UseOnce

end Gcrypt
