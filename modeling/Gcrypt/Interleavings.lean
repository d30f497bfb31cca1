import Gcrypt.Independence
import Gcrypt.Identifiers
import Gcrypt.StoredSessions

/-!
# Gcrypt.Interleavings

Runs of any library calls in any order, over one store and one source of randomness.

* What a call of `create_inbound_session` delivers never shows in any other call
  (`answers_without_inbound`), and what is in the store only shows there
  (`answers_on_any_store`).
* Of its store the store-backed responder learns whether it gets past it, no more
  (`createInboundSession_outcome`). Past it, it computes on zero keys: the answer is a
  function of the three keys of the handshake (`answer_from_public_keys`), no session where
  the KEM checks its keys (`no_session_with_key_check`), and the same ever after
  (`same_answer_ever_after`).
* On a store that was empty before the run it answers `nullopt`, unless an X25519 key and an
  ML-KEM key of the run share an identifier (`nullopt_without_clash`).
-/

namespace Gcrypt

open Effect Handshake

/-! ### Calls -/

/-- A call of one of the functions of `pqxdh.hpp`, with its arguments. The two overloads of
`create_inbound_session` are two calls. -/
inductive LibraryCall
  | makeLkb (deviceId : UInt32)
  | refill (privIdentityKey : Xckey) (Count : UInt32)
  | makeServerPayload (oneTimePreKeyCount : Nat) (deviceId : UInt32) (keys : LocalKeyBundle)
  | createOutboundSession (localIdentityKey : Xckeypair) (identityToVerifyAgainst : Xckey)
      (keys : ForeignPrekeyBundle)
  | createInboundSession (handshake : InitialMessageHandshake)
  | createInboundSessionExplicit (localIdentityKey : Xckeypair) (usedPrivateSignedPreKey : Xckey)
      (usedPrivateOneTimePreKey : Option Xckey) (usedPrivateQuantumPreKey : Qprivkey)
      (handshake : InitialMessageHandshake)

/-- What a call returns. Both overloads of `create_inbound_session` return a session or
`nullopt`. -/
inductive Answer
  | localKeyBundle (keys : LocalKeyBundle)
  | refillPayload (payload : RefillPayload)
  | publicServerPayload (payload : PublicServerPayload)
  | sessionInitResult (result : Option SessionInitResult)
  | messagingSession (session : Option MessagingSession)

namespace LibraryCall

/-- The function, called. -/
def run (P : Primitives) : LibraryCall → GcryptM Answer
  | makeLkb deviceId => do
    return .localKeyBundle (← Gcrypt.makeLkb P deviceId)
  | refill priv count => do
    return .refillPayload (← Gcrypt.refill P priv count)
  | makeServerPayload count deviceId keys => do
    return .publicServerPayload (← Gcrypt.makeServerPayload P count deviceId keys)
  | createOutboundSession alice id keys => do
    return .sessionInitResult (← Gcrypt.createOutboundSession P alice id keys)
  | createInboundSession hs => do
    return .messagingSession (← Gcrypt.createInboundSession P hs)
  | createInboundSessionExplicit bob spk opk qsk hs => do
    return .messagingSession (← Gcrypt.createInboundSessionExplicit P bob spk opk qsk hs)

/-- Neither overload of `create_inbound_session`. -/
def isNotInbound : LibraryCall → Bool
  | createInboundSession _ => false
  | createInboundSessionExplicit _ _ _ _ _ => false
  | _ => true

/-- The functions that ask for the store. -/
def usesStore : LibraryCall → Bool
  | makeLkb _ | refill _ _ | createInboundSession _ => true
  | _ => false

/-- Not the overload that queries the store. -/
def isNotStoreBacked : LibraryCall → Bool
  | createInboundSession _ => false
  | _ => true

end LibraryCall

/-- The world after a run. A run goes on after every call: after one that throws, as its caller
may, and also after one that ends in undefined behaviour, so that what holds after every run
holds up to such a call in particular. -/
abbrev worldAfter (P : Primitives) (calls : List LibraryCall) (w : World) : World :=
  runEnd (LibraryCall.run P) calls w

variable {P : Primitives}

/-! ### What the calls keep -/

/-- A relation that noting events keeps. -/
structure LogFrame (R : World → World → Prop) : Prop where
  frame : Frame R
  log : ∀ (w : World) (e : Event), R w (w.log e)

theorem DrawFrame.logs {R : World → World → Prop} (hR : DrawFrame R) : LogFrame R :=
  ⟨hR.frame, hR.log⟩

section LogFrame

variable {R : World → World → Prop} (hR : LogFrame R)
include hR

theorem LogFrame.logEvent (e : Event) : Keeps R (logEvent e) := fun w => hR.log w e

theorem LogFrame.ssecret (a b : Xckey) : Keeps R (X25519.ssecret P a b) := by
  refine Keeps.bind hR.frame (hR.logEvent _) fun _ => ?_
  cases P.cryptoScalarmultCurve25519 a b with
  | some out => exact Keeps.pure hR.frame out
  | none => exact Keeps.throw hR.frame _

theorem LogFrame.decapsulate (ct : Key mlkemCtb) (qsk : Qprivkey) :
    Keeps R (Mlkem32.decapsulate P ct qsk) := by
  refine Keeps.bind hR.frame (hR.logEvent _) fun _ => ?_
  cases P.mlkimplDec ct qsk with
  | ok out => exact Keeps.pure hR.frame out
  | error ret => exact Keeps.throw hR.frame _

theorem LogFrame.inboundDerivation (opk : Option Xckey) (hs : InitialMessageHandshake)
    (d₁ d₂ d₃ : Xckey) (ss : Key mlkemBytes) :
    Keeps R (inboundDerivation P opk hs d₁ d₂ d₃ ss) := by
  cases opk with
  | none => exact keeps_liftExcept hR.frame _
  | some k =>
    refine Keeps.bind hR.frame (hR.ssecret _ _) fun d₄ => ?_
    exact keeps_liftExcept hR.frame _

theorem LogFrame.inbound (bob : Xckeypair) (spk : Xckey) (opk : Option Xckey) (qsk : Qprivkey)
    (hs : InitialMessageHandshake) :
    Keeps R (createInboundSessionExplicit P bob spk opk qsk hs) := by
  refine Keeps.bind hR.frame (hR.decapsulate _ _) fun ss => ?_
  refine Keeps.bind hR.frame (hR.ssecret _ _) fun d₁ => ?_
  refine Keeps.bind hR.frame (hR.ssecret _ _) fun d₂ => ?_
  refine Keeps.bind hR.frame (hR.ssecret _ _) fun d₃ => ?_
  refine Keeps.bind hR.frame ((hR.inboundDerivation _ _ _ _ _ _).attempt _) fun SK => ?_
  cases SK <;> exact Keeps.pure hR.frame _

theorem LogFrame.loadPrekey (id : UInt32) (type : KeyType) :
    Keeps R (loadOneTimePrekey id type) := by
  intro w
  cases hm : w.manager with
  | none =>
    have hnone : loadOneTimePrekey id type w
        = .error (.notImplemented sessionManagerWarning) w := withManager_of_none hm
    rw [hnone]
    exact hR.frame.refl w
  | some m =>
    rw [loadOneTimePrekey_apply hm]
    exact hR.log w _

theorem LogFrame.loadIdentity : Keeps R loadIdentityKeyPair := by
  intro w
  cases hm : w.manager with
  | none =>
    have hnone : loadIdentityKeyPair w
        = .error (.notImplemented sessionManagerWarning) w := withManager_of_none hm
    rw [hnone]
    exact hR.frame.refl w
  | some m =>
    rw [loadIdentityKeyPair_apply hm]
    exact hR.log w _

theorem LogFrame.loadPrekeyHalf (n : Nat) (id : UInt32) (type : KeyType) (offset : Nat) :
    Keeps R (loadPrekeyHalf n id type offset) := by
  refine Keeps.bind hR.frame (hR.loadPrekey id type) fun blob => ?_
  cases blob with
  | none => exact Keeps.pure hR.frame none
  | some blob =>
    refine Keeps.bind hR.frame (keeps_liftExcept hR.frame _) fun loaded => ?_
    exact Keeps.pure hR.frame _

theorem LogFrame.loadIdentityHalves : Keeps R loadIdentityHalves := by
  refine Keeps.bind hR.frame hR.loadIdentity fun blob => ?_
  cases blob with
  | none => exact Keeps.pure hR.frame none
  | some pik =>
    refine Keeps.bind hR.frame (keeps_liftExcept hR.frame _) fun first => ?_
    obtain ⟨loaded, Public, pik⟩ := first
    cases loaded with
    | true => exact Keeps.pure hR.frame none
    | false =>
      refine Keeps.bind hR.frame (keeps_liftExcept hR.frame _) fun second => ?_
      exact Keeps.pure hR.frame _

theorem LogFrame.loadOneTimeHalf (hs : InitialMessageHandshake) :
    Keeps R (loadOneTimeHalf hs) := by
  unfold Gcrypt.loadOneTimeHalf
  by_cases hlen : hs.usedPreKeys.length > 1
  · rw [if_pos hlen]
    refine Keeps.bind hR.frame (keeps_liftExcept hR.frame _) fun id => ?_
    refine Keeps.bind hR.frame (hR.loadPrekeyHalf _ _ _ _) fun half => ?_
    cases half <;> exact Keeps.pure hR.frame _
  · rw [if_neg hlen]
    exact Keeps.pure hR.frame _

theorem LogFrame.createInboundSession (hs : InitialMessageHandshake) :
    Keeps R (createInboundSession P hs) := by
  refine Keeps.bind hR.frame (keeps_assertStore hR.frame) fun _ => ?_
  by_cases hlen : hs.usedPreKeys.length < 1
  · rw [if_pos hlen]
    exact Keeps.pure hR.frame none
  · rw [if_neg hlen]
    refine Keeps.bind hR.frame hR.loadIdentityHalves fun ik => ?_
    cases ik with
    | none => exact Keeps.pure hR.frame none
    | some ik =>
      refine Keeps.bind hR.frame (keeps_liftExcept hR.frame _) fun signedId => ?_
      refine Keeps.bind hR.frame (hR.loadPrekeyHalf _ _ _ _) fun spk => ?_
      cases spk with
      | none => exact Keeps.pure hR.frame none
      | some spk =>
        refine Keeps.bind hR.frame (hR.loadOneTimeHalf hs) fun opk => ?_
        cases opk with
        | none => exact Keeps.pure hR.frame none
        | some opk =>
          refine Keeps.bind hR.frame (keeps_liftExcept hR.frame _) fun quantumId => ?_
          refine Keeps.bind hR.frame (hR.loadPrekeyHalf _ _ _ _) fun qpk => ?_
          cases qpk with
          | none => exact Keeps.pure hR.frame none
          | some qpk => exact hR.inbound _ _ _ _ _

end LogFrame

section DrawFrame

variable {R : World → World → Prop} (hR : DrawFrame R)
include hR

theorem DrawFrame.encapsulate (PK : Qpubkey) : Keeps R (Mlkem32.encapsulate P PK) := by
  refine Keeps.bind hR.frame (keeps_randombytesBuf hR 32) fun coins => ?_
  cases P.mlkimplEnc PK coins with
  | ok r => exact Keeps.pure hR.frame _
  | error ret => exact Keeps.throw hR.frame _

theorem DrawFrame.outboundDerivation (EK : Xckeypair) (keys : ForeignPrekeyBundle)
    (d₁ d₂ d₃ : Xckey) (ss : Key mlkemBytes) :
    Keeps R (outboundDerivation P EK keys d₁ d₂ d₃ ss) := by
  unfold Gcrypt.outboundDerivation
  cases keys.oneTimePreKey with
  | none => exact keeps_liftExcept hR.frame _
  | some k =>
    refine Keeps.bind hR.frame (hR.logs.ssecret _ _) fun d₄ => ?_
    exact keeps_liftExcept hR.frame _

theorem DrawFrame.createOutboundSession (alice : Xckeypair) (id : Xckey)
    (keys : ForeignPrekeyBundle) : Keeps R (createOutboundSession P alice id keys) := by
  refine Keeps.bind hR.frame (keeps_liftExcept hR.frame _) fun verified => ?_
  cases verified with
  | false => exact Keeps.pure hR.frame none
  | true =>
    refine Keeps.bind hR.frame (keeps_makePair hR) fun r => ?_
    cases r with
    | error e => exact Keeps.pure hR.frame none
    | ok EK =>
      refine Keeps.bind hR.frame (hR.encapsulate _) fun PQPK => ?_
      refine Keeps.bind hR.frame (hR.logs.ssecret _ _) fun d₁ => ?_
      refine Keeps.bind hR.frame (hR.logs.ssecret _ _) fun d₂ => ?_
      refine Keeps.bind hR.frame (hR.logs.ssecret _ _) fun d₃ => ?_
      refine Keeps.bind hR.frame
        ((hR.outboundDerivation EK keys d₁ d₂ d₃ _).attempt _) fun SK => ?_
      cases SK <;> exact Keeps.pure hR.frame _

theorem DrawFrame.serverPayloadLoop (keys : LocalKeyBundle) (remaining i : Nat)
    (pOtpk : List Xcikey) (pOtQpk : List Qsidkey) :
    Keeps R (serverPayloadLoop P keys remaining i pOtpk pOtQpk) := by
  induction remaining generalizing i pOtpk pOtQpk with
  | zero => exact Keeps.pure hR.frame _
  | succ remaining ih =>
    refine Keeps.bind hR.frame (keeps_randombytesBuf hR 64) fun Z => ?_
    exact ih _ _ _

theorem DrawFrame.makeServerPayload (count : Nat) (deviceId : UInt32) (keys : LocalKeyBundle) :
    Keeps R (makeServerPayload P count deviceId keys) := by
  refine Keeps.bind hR.frame (keeps_randombytesBuf hR 64) fun Z_SPK => ?_
  refine Keeps.bind hR.frame (keeps_randombytesBuf hR 64) fun Z_PQSPK => ?_
  refine Keeps.bind hR.frame (keeps_randombytesBuf hR 4) fun word => ?_
  refine Keeps.bind hR.frame (hR.serverPayloadLoop keys count 0 [] []) fun entries => ?_
  exact Keeps.pure hR.frame _

end DrawFrame

/-- **Step.** Every call keeps what publishing keeps. -/
theorem PublishFrame.run {R : World → World → Prop} (hR : PublishFrame R) (c : LibraryCall) :
    Keeps R (c.run P) := by
  have hd := hR.draws
  cases c with
  | makeLkb deviceId =>
    exact Keeps.bind hR.frame (keeps_makeLkb hR deviceId) fun _ => Keeps.pure hR.frame _
  | refill priv count =>
    exact Keeps.bind hR.frame (keeps_refill hR priv count) fun _ => Keeps.pure hR.frame _
  | makeServerPayload count deviceId keys =>
    exact Keeps.bind hR.frame (hd.makeServerPayload count deviceId keys)
      fun _ => Keeps.pure hR.frame _
  | createOutboundSession alice id keys =>
    exact Keeps.bind hR.frame (hd.createOutboundSession alice id keys)
      fun _ => Keeps.pure hR.frame _
  | createInboundSession hs =>
    exact Keeps.bind hR.frame (hd.logs.createInboundSession hs) fun _ => Keeps.pure hR.frame _
  | createInboundSessionExplicit bob spk opk qsk hs =>
    exact Keeps.bind hR.frame (hd.logs.inbound bob spk opk qsk hs)
      fun _ => Keeps.pure hR.frame _

/-! ### What shows in the answers -/

/-- The calls that do not ask for the store. -/
theorem LibraryCall.respects_draws {R : World → World → Prop} (hR : Indistinct R)
    {c : LibraryCall} (hc : c.usesStore = false) : Respects R (c.run P) := by
  cases c with
  | makeServerPayload count deviceId keys =>
    exact (respects_makeServerPayload hR count deviceId keys).bind fun _ => Matches.pure _
  | createOutboundSession alice id keys =>
    exact (respects_createOutboundSession hR alice id keys).bind fun _ => Matches.pure _
  | createInboundSessionExplicit bob spk opk qsk hs =>
    exact (respects_inbound hR.log bob spk opk qsk hs).bind fun _ => Matches.pure _
  | _ => cases hc

theorem LibraryCall.respects {R : World → World → Prop} (hR : IndistinctWrites R)
    {c : LibraryCall} (hc : c.isNotStoreBacked = true) : Respects R (c.run P) := by
  cases c with
  | makeLkb deviceId => exact (respects_makeLkb hR deviceId).bind fun _ => Matches.pure _
  | refill priv count => exact (respects_refill hR priv count).bind fun _ => Matches.pure _
  | createInboundSession hs => cases hc
  | _ => exact LibraryCall.respects_draws hR.toIndistinct rfl

/-- No call reads the trace. -/
theorem LibraryCall.respects_sameCore (c : LibraryCall) : Respects SameCore (c.run P) := by
  cases hc : c.isNotStoreBacked with
  | true => exact LibraryCall.respects SameCore.indistinct hc
  | false =>
    cases c with
    | createInboundSession hs =>
      exact (respects_createInboundSession SameCore.indistinct SameCore.loadIdentityKeyPair
        SameCore.loadOneTimePrekey hs).bind fun _ => Matches.pure _
    | _ => cases hc

theorem sameCore_logFrame : LogFrame SameCore where
  frame := ⟨sameCore_equivalence.refl, sameCore_equivalence.trans⟩
  log _ _ := ⟨rfl, rfl⟩

/-- Processing a handshake leaves an event, and nothing else. -/
theorem LibraryCall.keeps_sameCore {c : LibraryCall} (hc : c.isNotInbound = false) :
    Keeps SameCore (c.run P) := by
  have hR := sameCore_logFrame
  cases c with
  | createInboundSession hs =>
    exact Keeps.bind hR.frame (hR.createInboundSession hs) fun _ => Keeps.pure hR.frame _
  | createInboundSessionExplicit bob spk opk qsk hs =>
    exact Keeps.bind hR.frame (hR.inbound bob spk opk qsk hs) fun _ => Keeps.pure hR.frame _
  | _ => cases hc

theorem LibraryCall.isNotInbound_of_storeBacked {c : LibraryCall}
    (hc : c.isNotStoreBacked = false) : c.isNotInbound = false := by
  cases c with
  | createInboundSession hs => rfl
  | _ => cases hc

/-- **Independence.** Taking the calls of `create_inbound_session` out of a run, wherever
they stand in it, changes no other answer, and neither the store nor the random bytes it
leaves. -/
theorem answers_without_inbound (P : Primitives) (calls : List LibraryCall) (w : World) :
    answers (LibraryCall.run P) (calls.filter LibraryCall.isNotInbound) w
        = (answers (LibraryCall.run P) calls w).filter (fun p => p.1.isNotInbound) ∧
      SameCore (worldAfter P calls w)
        (worldAfter P (calls.filter LibraryCall.isNotInbound) w) :=
  answers_filter sameCore_equivalence LibraryCall.respects_sameCore
    (fun _ hc => LibraryCall.keeps_sameCore hc) calls (sameCore_equivalence.refl w)

theorem SameCore.sameVerdicts {w w' : World} (h : SameCore w w') : SameVerdicts w w' :=
  ⟨by rw [h.manager], h.entropy⟩

/-- **Blindness.** What the store holds shows in the answers of the store-backed
`create_inbound_session` only: the others are the same on any two stores that will answer
the writes alike. -/
theorem answers_on_any_store {w w' : World} (h : SameVerdicts w w') (calls : List LibraryCall) :
    (answers (LibraryCall.run P) calls w).filter (fun p => p.1.isNotStoreBacked)
        = (answers (LibraryCall.run P) calls w').filter (fun p => p.1.isNotStoreBacked) ∧
      SameVerdicts (worldAfter P calls w) (worldAfter P calls w') := by
  refine answers_matches (f := LibraryCall.run P) (g := LibraryCall.run P)
    (fun c hc => LibraryCall.respects SameVerdicts.indistinct hc) (fun c hc {v v'} hv => ?_) calls h
  -- The store-backed call leaves an event on either store.
  have hkeeps : Keeps SameCore (c.run P) :=
    LibraryCall.keeps_sameCore (LibraryCall.isNotInbound_of_storeBacked hc)
  exact sameVerdicts_equivalence.trans (sameVerdicts_equivalence.symm (hkeeps v).sameVerdicts)
    (sameVerdicts_equivalence.trans hv (hkeeps v').sameVerdicts)

/-- A handshake, a bundle and a refill. -/
def mixedCalls : List LibraryCall :=
  [.createInboundSession (aliceHandshake Key.zero), .makeLkb 0, .refill Key.zero 2]

/-- On Bob's store and on one with empty blobs. -/
theorem answers_on_any_store_bobStore :
    (answers (LibraryCall.run Reference.primitives) mixedCalls
        (zeroWorld.setManager bobStore)).filter (fun p => p.1.isNotStoreBacked)
      = (answers (LibraryCall.run Reference.primitives) mixedCalls
        (zeroWorld.setManager emptyBlobs)).filter (fun p => p.1.isNotStoreBacked) ∧
    SameVerdicts (worldAfter Reference.primitives mixedCalls (zeroWorld.setManager bobStore))
      (worldAfter Reference.primitives mixedCalls (zeroWorld.setManager emptyBlobs)) := by
  have hsame : SameVerdicts (zeroWorld.setManager bobStore) (zeroWorld.setManager emptyBlobs) :=
    ⟨rfl, rfl⟩
  exact answers_on_any_store hsame mixedCalls

/-! ### The store-backed responder -/

section Responder

variable {hs hs' : InitialMessageHandshake} {w w' : World}

/-- No store, and no random byte but zero. -/
def blankWorld : World := ⟨none, fun _ => 0, []⟩

/-- The explicit overload reads nothing of the world. -/
theorem inbound_anywhere (bob : Xckeypair) (spk : Xckey) (opk : Option Xckey) (qsk : Qprivkey)
    (hs : InitialMessageHandshake) (w w' : World) :
    outcome (createInboundSessionExplicit P bob spk opk qsk hs w)
      = outcome (createInboundSessionExplicit P bob spk opk qsk hs w') :=
  (Matches.alike (respects_inbound (R := fun _ _ => True) (fun _ _ => trivial) bob spk opk qsk hs)
    trivial).outcome

/-- What a store-backed call answers once it is past the store. -/
def pastStore (P : Primitives) (hs : InitialMessageHandshake) :
    Except Fault (Option MessagingSession) :=
  if hs.usedPreKeys.length = 1 then .error .undefinedBehaviour
  else outcome (inboundOnDefaultKeys P hs blankWorld)

/-- **Specification** of the store-backed `create_inbound_session`: the store only decides
whether the call gets past it. -/
theorem createInboundSession_outcome {m : StorageManager} (hm : w.manager = some m) :
    outcome (createInboundSession P hs w)
      = if slipsThrough m hs then pastStore P hs else .ok none := by
  cases hslip : slipsThrough m hs with
  | false =>
    obtain ⟨w₁, -, heq⟩ := createInboundSession_of_not_slips (P := P) hm hslip
    rw [heq]
    rfl
  | true =>
    rcases hids : hs.usedPreKeys with _ | ⟨id, _ | ⟨o, rest⟩⟩
    · simp [slipsThrough, hids] at hslip
    · obtain ⟨w₁, -, heq⟩ := createInboundSession_one (P := P) hm hids
      simp [heq, hslip, pastStore, hids]
    · obtain ⟨w₁, -, heq⟩ := createInboundSession_two (P := P) hm hids
      rw [heq, hslip, if_pos rfl, if_pos rfl, pastStore, if_neg (by simp [hids])]
      exact inbound_anywhere _ _ _ _ hs w₁ blankWorld

/-- Of the handshake, the explicit overload reads the three keys. -/
theorem inbound_of_same_keys (hid : hs'.identityKey = hs.identityKey)
    (hek : hs'.ephermoralKey = hs.ephermoralKey) (hct : hs'.cipherText = hs.cipherText)
    (bob : Xckeypair) (spk : Xckey) (opk : Option Xckey) (qsk : Qprivkey) :
    createInboundSessionExplicit P bob spk opk qsk hs'
      = createInboundSessionExplicit P bob spk opk qsk hs := by
  cases hs
  cases hs'
  cases hid
  cases hek
  cases hct
  cases opk <;> rfl

theorem pastStore_of_same_keys (hid : hs'.identityKey = hs.identityKey)
    (hek : hs'.ephermoralKey = hs.ephermoralKey) (hct : hs'.cipherText = hs.cipherText)
    (hlen : hs.usedPreKeys.length ≠ 1) (hlen' : hs'.usedPreKeys.length ≠ 1) :
    pastStore P hs' = pastStore P hs := by
  rw [pastStore, pastStore, if_neg hlen, if_neg hlen', inboundOnDefaultKeys,
    inboundOnDefaultKeys, inbound_of_same_keys hid hek hct]

/-- A call past the store. -/
theorem pastStore_of_ne_nullopt {m : StorageManager} (hm : w.manager = some m)
    (h : outcome (createInboundSession P hs w) ≠ .ok none) :
    slipsThrough m hs = true ∧ outcome (createInboundSession P hs w) = pastStore P hs := by
  rw [createInboundSession_outcome hm] at h ⊢
  cases hslip : slipsThrough m hs with
  | false =>
    rw [hslip] at h
    exact absurd rfl h
  | true => exact ⟨rfl, rfl⟩

/-- **No secret.** Two store-backed calls that do not answer `nullopt` answer alike, if their
handshakes have the same identity key, ephemeral key and cipher text: on any two devices, after
any calls, and whatever prekeys the handshakes name, as long as they do not name exactly one.
With one the call past the store reads behind the end of the list (`pastStore`), and what it
answers then has no definition. -/
theorem answer_from_public_keys (hm : w.manager ≠ none) (hm' : w'.manager ≠ none)
    (hid : hs'.identityKey = hs.identityKey) (hek : hs'.ephermoralKey = hs.ephermoralKey)
    (hct : hs'.cipherText = hs.cipherText) (hlen : hs.usedPreKeys.length ≠ 1)
    (hlen' : hs'.usedPreKeys.length ≠ 1) (h : outcome (createInboundSession P hs w) ≠ .ok none)
    (h' : outcome (createInboundSession P hs' w') ≠ .ok none) :
    outcome (createInboundSession P hs' w') = outcome (createInboundSession P hs w) := by
  obtain ⟨m, hm⟩ := Option.ne_none_iff_exists'.mp hm
  obtain ⟨m', hm'⟩ := Option.ne_none_iff_exists'.mp hm'
  rw [(pastStore_of_ne_nullopt hm h).2, (pastStore_of_ne_nullopt hm' h').2]
  exact pastStore_of_same_keys hid hek hct hlen hlen'

/-- Empty blobs, and the reference KEM: the call throws. -/
theorem emptyBlobs_not_nullopt {hs : InitialMessageHandshake} (hct : hs.cipherText = Key.zero)
    (hlen : 1 < hs.usedPreKeys.length) :
    outcome (createInboundSession Reference.primitives hs (zeroWorld.setManager emptyBlobs))
      ≠ .ok none := by
  have hslip : slipsThrough emptyBlobs hs = true := by
    rcases hids : hs.usedPreKeys with _ | ⟨a, _ | ⟨b, rest⟩⟩
    · simp [hids] at hlen
    · simp [hids] at hlen
    · simp [slipsThrough, hids, emptyBlobs, tooShort, mlkemSkb]
  rw [createInboundSession_outcome (m := emptyBlobs) rfl, if_pos hslip, pastStore,
    if_neg (by omega), inboundOnDefaultKeys, Ne, inbound_outcome_iff, inboundAnswer_eq_nullopt]
  rintro ⟨ss, -, hdec, -, -⟩
  rw [hct] at hdec
  cases hdec.symm.trans Reference.mlkimplDec_zero

/-- Alice's handshake, and the same with other prekeys. -/
def otherPrekeys : InitialMessageHandshake :=
  { aliceHandshake Key.zero with usedPreKeys := [7, 8, 9] }

theorem answer_from_public_keys_emptyBlobs :
    outcome (createInboundSession Reference.primitives otherPrekeys
        (zeroWorld.setManager emptyBlobs))
      = outcome (createInboundSession Reference.primitives (aliceHandshake Key.zero)
        (zeroWorld.setManager emptyBlobs)) := by
  have hlen : (aliceHandshake Key.zero).usedPreKeys.length = 2 := rfl
  exact answer_from_public_keys (by simp [World.setManager]) (by simp [World.setManager])
    rfl rfl rfl (by rw [hlen]; decide) (by decide)
    (emptyBlobs_not_nullopt rfl (by rw [hlen]; decide)) (emptyBlobs_not_nullopt rfl (by decide))

/-- When a store-backed call returns a session. -/
theorem createInboundSession_eq_some {s : MessagingSession}
    (h : outcome (createInboundSession P hs w) = .ok (some s)) :
    ∃ ss, P.mlkimplDec hs.cipherText Key.zero = .ok ss := by
  cases hm : w.manager with
  | none =>
    have hnone : createInboundSession P hs w
        = .error (.notImplemented sessionManagerWarning) w :=
      bind_of_error (assertStore_of_none hm)
    rw [hnone] at h
    cases h
  | some m =>
    have hne : outcome (createInboundSession P hs w) ≠ .ok none := by
      rw [h]
      simp
    have hpast := pastStore_of_ne_nullopt hm hne
    rw [hpast.2, pastStore] at h
    by_cases hlen : hs.usedPreKeys.length = 1
    · rw [if_pos hlen] at h
      cases h
    · rw [if_neg hlen, inboundOnDefaultKeys, inbound_outcome_iff, inboundAnswer_eq_session] at h
      obtain ⟨SK, ⟨ss, ds, hdec, -⟩, -⟩ := h
      exact ⟨ss, hdec⟩

/-- What a store-backed call of a run delivers, it delivers from the world it finds. -/
theorem inbound_of_mem_answers {s : MessagingSession} {calls : List LibraryCall}
    (h : (LibraryCall.createInboundSession hs, .ok (.messagingSession (some s)))
      ∈ answers (LibraryCall.run P) calls w) :
    ∃ w₁, outcome (createInboundSession P hs w₁) = .ok (some s) := by
  obtain ⟨before, -, -, hout⟩ := mem_answers h
  have hmap : .ok (.messagingSession (some s))
      = (outcome (createInboundSession P hs (worldAfter P before w))).map
        Answer.messagingSession := hout.trans (outcome_bind_pure _ _ _)
  cases hw : outcome (createInboundSession P hs (worldAfter P before w)) with
  | error e => simp [hw, Except.map] at hmap
  | ok r =>
    simp only [hw, Except.map, Except.ok.injEq, Answer.messagingSession.injEq] at hmap
    exact ⟨worldAfter P before w, by rw [hw, hmap]⟩

/-- **No session at all.** Where the KEM refuses the secret key that is all zero, as one that
checks the hash in the key does, the store-backed call returns a session in no run. -/
theorem no_session_with_key_check
    (hcheck : ∀ ct, ∃ code, P.mlkimplDec ct Key.zero = .error code) (calls : List LibraryCall)
    (w : World) (hs : InitialMessageHandshake) (s : MessagingSession) :
    (LibraryCall.createInboundSession hs, .ok (.messagingSession (some s)))
      ∉ answers (LibraryCall.run P) calls w := by
  intro hmem
  obtain ⟨w₁, hout⟩ := inbound_of_mem_answers hmem
  obtain ⟨ss, hdec⟩ := createInboundSession_eq_some hout
  obtain ⟨code, hcode⟩ := hcheck hs.cipherText
  rw [hcode] at hdec
  cases hdec

/-- The reference KEM does, whatever the cipher text. -/
theorem reference_mlkimplDec_zeroKey (ct : Key mlkemCtb) :
    Reference.primitives.mlkimplDec ct Key.zero = .error (-1) := by
  have hhash : Reference.sha3_256 1568 (0 / 2 ^ (8 * 1536) % 2 ^ (8 * 1568))
      ≠ 0 / 2 ^ (8 * 3104) % 2 ^ 256 := by decide +kernel
  refine Reference.mlkimplDec_of_none ?_
  rw [Key.toNat_zero, Reference.kemDecapsulate]
  exact if_neg hhash

theorem no_session_with_key_check_emptyBlobs :
    (LibraryCall.createInboundSession (aliceHandshake Key.zero),
      .ok (.messagingSession (some MessagingSession.init)))
      ∉ answers (LibraryCall.run Reference.primitives)
        [.refill Key.zero 1, .createInboundSession (aliceHandshake Key.zero)]
        (zeroWorld.setManager emptyBlobs) :=
  no_session_with_key_check (fun ct => ⟨_, reference_mlkimplDec_zeroKey ct⟩) _ _ _ _

/-! ### What a run leaves in the store -/

/-- A blob that was too short stays so, and so does an empty one in its place. -/
theorem tooShort_of_writesEmpty {b b' : Option Vkey} {size : Nat} (hsize : 0 < size)
    (h : b' = b ∨ b' = some []) (hshort : tooShort b size = true) : tooShort b' size = true := by
  rcases h with rfl | rfl
  · exact hshort
  · simpa [tooShort] using hsize

theorem slipsThrough_of_writesEmpty {m m' : StorageManager}
    (hid : m'.identity = m.identity ∨ m'.identity = some [])
    (hpre : ∀ id type, m'.prekeys id type = m.prekeys id type ∨ m'.prekeys id type = some [])
    (h : slipsThrough m hs = true) : slipsThrough m' hs = true := by
  unfold slipsThrough at h ⊢
  split at h
  · cases h
  · simp only [Bool.and_eq_true] at h ⊢
    exact ⟨tooShort_of_writesEmpty (by decide) hid h.1,
      tooShort_of_writesEmpty (by decide) (hpre _ _) h.2⟩
  · simp only [Bool.and_eq_true] at h ⊢
    obtain ⟨⟨⟨hi, ha⟩, ho⟩, hq⟩ := h
    exact ⟨⟨⟨tooShort_of_writesEmpty (by decide) hid hi,
      tooShort_of_writesEmpty (by decide) (hpre _ _) ha⟩,
      tooShort_of_writesEmpty (by decide) (hpre _ _) ho⟩,
      tooShort_of_writesEmpty (by decide) (hpre _ _) hq⟩

/-- **Run.** Whatever calls are made, blobs are only ever replaced by empty ones. -/
theorem worldAfter_writesEmpty (calls : List LibraryCall) (w : World) :
    WritesEmpty w (worldAfter P calls w) :=
  runEnd_keeps writesEmpty_frame (PublishFrame.run writesEmpty_publishFrame) calls w

end Responder

/-- No X25519 key and ML-KEM key that were generated share an identifier. -/
def NoCrossClash (P : Primitives) (es : List Event) : Prop :=
  ∀ pair qpair, .boxKeypair pair ∈ es → .mlkemKeypair qpair ∈ es →
    keyid P pair.Public ≠ keyid P qpair.Public

/-- A slot of the store has its content from before, or is that of a key generated since. -/
structure Fills (P : Primitives) (w w' : World) : Prop where
  grows : TraceGrows w w'
  slots : ∀ m', w'.manager = some m' → ∃ m, w.manager = some m ∧ ∀ id type,
    m'.prekeys id type = m.prekeys id type ∨
      ∃ k ∈ generated P (w.newEvents w'), k.identifier = id ∧ k.type = type

theorem fills_frame : Frame (Fills P) where
  refl w := ⟨traceGrows_of_same rfl, fun m hm => ⟨m, hm, fun _ _ => Or.inl rfl⟩⟩
  trans := by
    rintro w₁ w₂ w₃ ⟨hgrows, hslots⟩ ⟨hgrows', hslots'⟩
    refine ⟨traceGrows_publishFrame.frame.trans hgrows hgrows', ?_⟩
    intro m₃ hm₃
    obtain ⟨m₂, hm₂, h₂⟩ := hslots' m₃ hm₃
    obtain ⟨m₁, hm₁, h₁⟩ := hslots m₂ hm₂
    refine ⟨m₁, hm₁, fun id type => ?_⟩
    rw [newEvents_trans hgrows hgrows', generated_append]
    rcases h₂ id type with hkept | ⟨k, hk, hslot⟩
    · rw [hkept]
      rcases h₁ id type with hkept | ⟨k, hk, hslot⟩
      · exact Or.inl hkept
      · exact Or.inr ⟨k, List.mem_append_left _ hk, hslot⟩
    · exact Or.inr ⟨k, List.mem_append_right _ hk, hslot⟩

/-- What leaves the prekeys alone. -/
def SamePrekeys (w w' : World) : Prop :=
  TraceGrows w w' ∧
    w'.manager.map StorageManager.prekeys = w.manager.map StorageManager.prekeys

theorem samePrekeys_draws : DrawFrame SamePrekeys where
  frame := {
    refl := fun _ => ⟨traceGrows_of_same rfl, rfl⟩
    trans := fun h h' => ⟨traceGrows_publishFrame.frame.trans h.1 h'.1, h'.2.trans h.2⟩ }
  skip _ _ := ⟨traceGrows_of_same rfl, rfl⟩
  log _ e := ⟨⟨[e], rfl⟩, rfl⟩

theorem SamePrekeys.fills {w w' : World} (h : SamePrekeys w w') : Fills P w w' := by
  obtain ⟨hgrows, hsame⟩ := h
  refine ⟨hgrows, fun m' hm' => ?_⟩
  rw [hm', Option.map_some, eq_comm, Option.map_eq_some_iff] at hsame
  obtain ⟨m, hm, hprekeys⟩ := hsame
  exact ⟨m, hm, fun id type => Or.inl (by rw [hprekeys])⟩

theorem keeps_storeIdentity_samePrekeys (blob : Vkey) :
    Keeps SamePrekeys (storeIdentityKeyPair blob) := by
  intro w
  cases hm : w.manager with
  | none =>
    rw [storeIdentityKeyPair_of_none hm]
    exact samePrekeys_draws.frame.refl w
  | some m =>
    rw [storeIdentityKeyPair_apply hm]
    refine ⟨traceGrows_of_same rfl, ?_⟩
    rw [hm]
    cases hacc : m.accepts 0 <;> simp [StorageManager.write, hacc]

/-- `make_lkb` stores no prekey. -/
theorem keeps_makeLkb_samePrekeys (deviceId : UInt32) :
    Keeps SamePrekeys (makeLkb P deviceId) := by
  have hR := samePrekeys_draws.frame
  have hQ : ExitFrame SamePrekeys SamePrekeys SamePrekeys := ⟨hR.trans, hR.trans⟩
  refine (exits_makeLkb samePrekeys_draws hQ ?_ deviceId).keeps
  intro keys fault lkb
  refine (Keeps.bind hR (keeps_storeIdentity_samePrekeys _) fun stored => ?_).exits
  cases stored with
  | false => exact Keeps.throw hR _
  | true => exact Keeps.pure hR _

theorem keeps_refill_fills (priv : Xckey) (count : UInt32) :
    Keeps (Fills P) (refill P priv count) := by
  intro w
  obtain ⟨es, htrace, hmanager⟩ := refill_stores (P := P) priv count w
  refine ⟨⟨es, htrace⟩, fun m' hm' => ?_⟩
  rw [hm', eq_comm, Option.map_eq_some_iff] at hmanager
  obtain ⟨m, hm, rfl⟩ := hmanager
  refine ⟨m, hm, fun id type => ?_⟩
  rw [htrace.newEvents]
  rcases prekeys_foldl_apply (storeCalls P es) m id type with hkept | ⟨c, hc, hid, htype, -⟩
  · exact Or.inl hkept
  · exact Or.inr ⟨c.toNamed, stores_generated c hc, hid, htype⟩

/-- **Step.** A call changes no slot but under the identifier and type of a key it generates. -/
theorem LibraryCall.keeps_fills (c : LibraryCall) : Keeps (Fills P) (c.run P) := by
  have hd := samePrekeys_draws
  have hR := hd.frame
  have hsame {x : GcryptM Answer} (hx : Keeps SamePrekeys x) : Keeps (Fills P) x :=
    fun w => (hx w).fills
  cases c with
  | makeLkb deviceId =>
    exact hsame (Keeps.bind hR (keeps_makeLkb_samePrekeys deviceId) fun _ => Keeps.pure hR _)
  | refill priv count =>
    exact Keeps.bind fills_frame (keeps_refill_fills priv count)
      fun _ => Keeps.pure fills_frame _
  | makeServerPayload count deviceId keys =>
    exact hsame (Keeps.bind hR (hd.makeServerPayload count deviceId keys)
      fun _ => Keeps.pure hR _)
  | createOutboundSession alice id keys =>
    exact hsame (Keeps.bind hR (hd.createOutboundSession alice id keys) fun _ => Keeps.pure hR _)
  | createInboundSession hs =>
    exact hsame (Keeps.bind hR (hd.logs.createInboundSession hs) fun _ => Keeps.pure hR _)
  | createInboundSessionExplicit bob spk opk qsk hs =>
    exact hsame (Keeps.bind hR (hd.logs.inbound bob spk opk qsk hs) fun _ => Keeps.pure hR _)

theorem worldAfter_without_store (calls : List LibraryCall) {w : World} (hm : w.manager = none) :
    (worldAfter P calls w).manager = none := by
  cases hm' : (worldAfter P calls w).manager with
  | none => rfl
  | some m' =>
    obtain ⟨m, hm₀, -⟩ :=
      (runEnd_keeps fills_frame (LibraryCall.keeps_fills (P := P)) calls w).slots m' hm'
    rw [hm] at hm₀
    cases hm₀

/-- **Replay.** A call that does not answer `nullopt` answers the same after any further
calls. -/
theorem same_answer_ever_after {hs : InitialMessageHandshake} {w : World}
    (h : outcome (createInboundSession P hs w) ≠ .ok none)
    (calls : List LibraryCall) :
    outcome (createInboundSession P hs (worldAfter P calls w))
      = outcome (createInboundSession P hs w) := by
  cases hm : w.manager with
  | none =>
    have hnone {v : World} (hv : v.manager = none) : outcome (createInboundSession P hs v)
        = .error (.notImplemented sessionManagerWarning) :=
      congrArg outcome (bind_of_error (assertStore_of_none hv))
    rw [hnone hm, hnone (worldAfter_without_store calls hm)]
  | some m =>
    obtain ⟨hslip, hpast⟩ := pastStore_of_ne_nullopt hm h
    obtain ⟨m', hm', hid, hpre⟩ := worldAfter_writesEmpty (P := P) calls w m hm
    rw [hpast, createInboundSession_outcome hm',
      if_pos (slipsThrough_of_writesEmpty hid hpre hslip)]

/-- Also after the identity and the prekeys have been replaced. -/
theorem same_answer_ever_after_emptyBlobs :
    outcome (createInboundSession Reference.primitives (aliceHandshake Key.zero)
        (worldAfter Reference.primitives
          [.makeLkb 0, .createInboundSession (aliceHandshake Key.zero), .refill Key.zero 1]
          (zeroWorld.setManager emptyBlobs)))
      = outcome (createInboundSession Reference.primitives (aliceHandshake Key.zero)
        (zeroWorld.setManager emptyBlobs)) :=
  same_answer_ever_after (emptyBlobs_not_nullopt rfl (by decide)) _

/-- A handshake that slips through finds a prekey of either type under its second
identifier. -/
theorem slots_of_slips {m : StorageManager} {hs : InitialMessageHandshake}
    (hslip : slipsThrough m hs = true) (hlen : hs.usedPreKeys.length ≠ 1) :
    ∃ o, m.prekeys o .prekey ≠ none ∧ m.prekeys o .quantum ≠ none := by
  unfold slipsThrough at hslip
  split at hslip
  · cases hslip
  · rename_i a hids
    simp [hids] at hlen
  · rename_i a o rest hids
    simp only [Bool.and_eq_true] at hslip
    obtain ⟨⟨-, ho⟩, hq⟩ := hslip
    refine ⟨o, ?_, ?_⟩
    · intro hnone
      simp [tooShort, hnone] at ho
    · intro hnone
      simp [tooShort, hnone] at hq

/-- **Never, but for a clash.** After any run on a store without prekeys the store-backed
responder answers `nullopt` to every handshake with no or two prekeys, if no two keys of
different types that were generated share an identifier. -/
theorem nullopt_without_clash {calls : List LibraryCall} {w : World} {m : StorageManager}
    (hm : w.manager = some m) (hempty : ∀ id type, m.prekeys id type = none)
    (hclash : NoCrossClash P (w.newEvents (worldAfter P calls w)))
    {hs : InitialMessageHandshake} (hlen : hs.usedPreKeys.length ≠ 1) :
    outcome (createInboundSession P hs (worldAfter P calls w)) = .ok none := by
  obtain ⟨m', hm', -⟩ := worldAfter_writesEmpty (P := P) calls w m hm
  rw [createInboundSession_outcome hm']
  cases hslip : slipsThrough m' hs with
  | false => rfl
  | true =>
    obtain ⟨o, hprekey, hquantum⟩ := slots_of_slips hslip hlen
    obtain ⟨m₀, hm₀, hslots⟩ :=
      (runEnd_keeps fills_frame (LibraryCall.keeps_fills (P := P)) calls w).slots m' hm'
    obtain rfl : m = m₀ := Option.some.inj (hm.symm.trans hm₀)
    have hnamed : ∀ type, m'.prekeys o type ≠ none →
        ∃ k ∈ generated P (w.newEvents (worldAfter P calls w)),
          k.identifier = o ∧ k.type = type := by
      intro type hne
      rcases hslots o type with hkept | hslot
      · exact absurd (hkept.trans (hempty o type)) hne
      · exact hslot
    obtain ⟨k, hk, hkid, hktype⟩ := hnamed .prekey hprekey
    obtain ⟨k', hk', hkid', hktype'⟩ := hnamed .quantum hquantum
    obtain ⟨e, he, hname⟩ := mem_generated.mp hk
    obtain ⟨e', he', hname'⟩ := mem_generated.mp hk'
    -- The type tells which kind of pair each of the two was generated as.
    cases e with
    | boxKeypair pair =>
      cases hname
      cases e' with
      | mlkemKeypair qpair =>
        cases hname'
        exact absurd (hkid.trans hkid'.symm) (hclash pair qpair he he')
      | boxKeypair pair' =>
        cases hname'
        cases hktype'
      | _ => cases hname'
    | mlkemKeypair qpair =>
      cases hname
      cases hktype
    | _ => cases hname

theorem noCrossClash_of_nodup {es : List Event} (h : (generatedIds P es).Nodup) :
    NoCrossClash P es := by
  intro pair qpair hpair hqpair hid
  have heq : Event.boxKeypair pair = .mlkemKeypair qpair :=
    eq_of_nodup_filterMap h hpair hqpair (congrArg some hid) rfl
  cases heq

/-- Two rounds of a refill, whose four keys have four identifiers. -/
theorem nullopt_without_clash_freshWorld :
    outcome (createInboundSession Reference.primitives (aliceHandshake Key.zero)
      (worldAfter Reference.primitives [.refill Key.zero 2] freshWorld)) = .ok none :=
  nullopt_without_clash (show freshWorld.manager = some _ from rfl) (fun _ _ => rfl)
    (noCrossClash_of_nodup freshWorld_refill_ids) (by decide)

end Gcrypt
