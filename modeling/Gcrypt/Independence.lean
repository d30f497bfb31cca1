import Gcrypt.Library.Relational
import Gcrypt.Inbound
import Gcrypt.Publishing

/-!
# Gcrypt.Independence

What the library's calls depend on, by comparing two runs of each.

`Indistinct R` says that a relation between worlds is respected by drawing random bytes, and
`IndistinctWrites R` that it is by writing to the store too. Then every call but the
store-backed `create_inbound_session` respects it, and that one does if the two loads from the
store do. Two such relations are used:

* `SameCore`: the worlds differ in the trace only, so the trace is a ghost
  (`SameCore.indistinct`);
* `SameVerdicts`: the stores may hold different blobs, as long as they will answer the
  writes to come alike (`SameVerdicts.indistinct`).
-/

namespace Gcrypt

open Effect Keygen

variable {P : Primitives}

/-! ### Indistinct worlds -/

/-- Worlds in `R` have the same random bytes to come, and stay in `R` when both draw or both log
an event: a program cannot tell them apart by these. -/
structure Indistinct (R : World → World → Prop) : Prop where
  entropy : ∀ {w w'}, R w w' → w'.entropy = w.entropy
  skip : ∀ {w w'}, R w w' → ∀ n, R (w.skip n) (w'.skip n)
  log : ∀ {w w'}, R w w' → ∀ e, R (w.log e) (w'.log e)

/-- Also by what publishing does to the store. -/
structure IndistinctWrites (R : World → World → Prop) : Prop extends Indistinct R where
  assertStore : Respects R assertStore
  storeIdentityKeyPair : ∀ blob, Respects R (storeIdentityKeyPair blob)
  storeOneTimePrekey : ∀ id type blob, Respects R (storeOneTimePrekey id type blob)

section Statements

variable {R : World → World → Prop}

theorem respects_liftExcept {α : Type} (x : Except Fault α) : Respects R (liftExcept x) := by
  cases x with
  | ok a => exact Matches.pure a
  | error e => exact Matches.throw e

theorem respects_valueOrThrow {α : Type} (x : Except KeyGenError α) :
    Respects R (valueOrThrow x) := by
  cases x with
  | ok a => exact Matches.pure a
  | error e => exact Matches.throw _

/-! The guarded loads of the store-backed `create_inbound_session`. -/

theorem respects_loadPrekeyHalf (hpre : ∀ id type, Respects R (loadOneTimePrekey id type))
    (n : Nat) (id : UInt32) (type : KeyType) (offset : Nat) :
    Respects R (loadPrekeyHalf n id type offset) := by
  refine Matches.bind (hpre id type) fun blob => ?_
  cases blob with
  | none => exact Matches.pure none
  | some blob =>
    refine Matches.bind (respects_liftExcept _) fun loaded => ?_
    exact Matches.pure _

theorem respects_loadOneTimeHalf (hpre : ∀ id type, Respects R (loadOneTimePrekey id type))
    (hs : InitialMessageHandshake) :
    Respects R (loadOneTimeHalf hs) := by
  unfold loadOneTimeHalf
  by_cases hlen : hs.usedPreKeys.length > 1
  · rw [if_pos hlen]
    refine Matches.bind (respects_liftExcept _) fun id => ?_
    refine Matches.bind (respects_loadPrekeyHalf hpre _ _ _ _) fun half => ?_
    cases half <;> exact Matches.pure _
  · rw [if_neg hlen]
    exact Matches.pure _

theorem respects_loadIdentityHalves (hik : Respects R loadIdentityKeyPair) :
    Respects R loadIdentityHalves := by
  refine Matches.bind hik fun blob => ?_
  cases blob with
  | none => exact Matches.pure none
  | some pik =>
    refine Matches.bind (respects_liftExcept _) fun first => ?_
    obtain ⟨loaded, Public, pik⟩ := first
    cases loaded with
    | true => exact Matches.pure none
    | false =>
      refine Matches.bind (respects_liftExcept _) fun second => ?_
      exact Matches.pure _

/-! The explicit `create_inbound_session`, which but logs. -/

section Log

variable (hlog : ∀ {w w'}, R w w' → ∀ e, R (w.log e) (w'.log e))
include hlog

theorem respects_logEvent (e : Event) : Respects R (logEvent e) :=
  ⟨fun h => Alike.ok () (hlog h e)⟩

theorem respects_ssecret (a b : Xckey) : Respects R (X25519.ssecret P a b) := by
  refine Matches.bind (respects_logEvent hlog _) fun _ => ?_
  cases P.cryptoScalarmultCurve25519 a b with
  | some out => exact Matches.pure out
  | none => exact Matches.throw _

theorem respects_decapsulate (ct : Key mlkemCtb) (qsk : Qprivkey) :
    Respects R (Mlkem32.decapsulate P ct qsk) := by
  refine Matches.bind (respects_logEvent hlog _) fun _ => ?_
  cases P.mlkimplDec ct qsk with
  | ok out => exact Matches.pure out
  | error ret => exact Matches.throw _

theorem respects_inboundDerivation (opk : Option Xckey) (hs : InitialMessageHandshake)
    (d₁ d₂ d₃ : Xckey) (ss : Key mlkemBytes) :
    Respects R (inboundDerivation P opk hs d₁ d₂ d₃ ss) := by
  cases opk with
  | none => exact respects_liftExcept _
  | some k =>
    refine Matches.bind (respects_ssecret hlog _ _) fun d₄ => ?_
    exact respects_liftExcept _

theorem respects_inbound (bob : Xckeypair) (spk : Xckey) (opk : Option Xckey) (qsk : Qprivkey)
    (hs : InitialMessageHandshake) :
    Respects R (createInboundSessionExplicit P bob spk opk qsk hs) := by
  refine Matches.bind (respects_decapsulate hlog _ _) fun ss => ?_
  refine Matches.bind (respects_ssecret hlog _ _) fun d₁ => ?_
  refine Matches.bind (respects_ssecret hlog _ _) fun d₂ => ?_
  refine Matches.bind (respects_ssecret hlog _ _) fun d₃ => ?_
  refine Matches.bind ((respects_inboundDerivation hlog _ _ _ _ _ _).attempt _) fun SK => ?_
  cases SK <;> exact Matches.pure _

end Log

section Draws

variable (hR : Indistinct R)
include hR

theorem Indistinct.peek {w w' : World} (h : R w w') (n : Nat) : w'.peek n = w.peek n := by
  have hbytes : (w'.peek n).bytes = (w.peek n).bytes :=
    congrArg (fun e => (List.range n).map e) (hR.entropy h)
  exact Key.ext hbytes

theorem respects_randombytesBuf (n : Nat) : Respects R (randombytesBuf n) := by
  refine ⟨fun {w w'} h => ?_⟩
  rw [randombytesBuf_apply, randombytesBuf_apply, hR.peek h]
  exact Alike.ok _ (hR.skip h n)

/-! ### Generating -/

theorem respects_cryptoBoxKeypair : Respects R (cryptoBoxKeypair P) := by
  refine Matches.bind (respects_randombytesBuf hR 32) fun seed => ?_
  refine Matches.bind (respects_logEvent hR.log _) fun _ => ?_
  exact Matches.pure _

theorem respects_mlkimplKeypair : Respects R (mlkimplKeypair P) := by
  refine Matches.bind (respects_randombytesBuf hR 64) fun coins => ?_
  cases P.mlkimplKeypair coins with
  | ok pair => exact Matches.bind (respects_logEvent hR.log _) fun _ => Matches.pure _
  | error code => exact Matches.pure _

theorem respects_makePair : Respects R (X25519.makePair P) :=
  Matches.bind (respects_cryptoBoxKeypair hR) fun _ => Matches.pure _

theorem respects_makeIdPair : Respects R (X25519.makeIdPair P) :=
  Matches.bind (respects_cryptoBoxKeypair hR) fun _ => Matches.pure _

theorem respects_mlkemMakePair : Respects R (Mlkem32.makePair P) := by
  refine Matches.bind (respects_mlkimplKeypair hR) fun r => ?_
  cases r <;> exact Matches.pure _

theorem respects_mlkemMakeIdPair : Respects R (Mlkem32.makeIdPair P) := by
  refine Matches.bind (respects_mlkimplKeypair hR) fun r => ?_
  cases r <;> exact Matches.pure _

theorem respects_fillOneTimePreKeys (count : Nat) (map : UnorderedMap Xckeypair) :
    Respects R (fillOneTimePreKeys P count map) := by
  induction count generalizing map with
  | zero => exact Matches.pure _
  | succ count ih =>
    refine Matches.bind (respects_makePair hR) fun r => ?_
    refine Matches.bind (respects_valueOrThrow r) fun pair => ?_
    exact ih _

theorem respects_fillOneTimeQuantumKeys (count : Nat) (map : UnorderedMap Qkeypair) :
    Respects R (fillOneTimeQuantumKeys P count map) := by
  induction count generalizing map with
  | zero => exact Matches.pure _
  | succ count ih =>
    refine Matches.bind (respects_mlkemMakePair hR) fun r => ?_
    refine Matches.bind (respects_valueOrThrow r) fun pair => ?_
    exact ih _

/-! ### The server payload -/

theorem respects_serverPayloadLoop (keys : LocalKeyBundle) (remaining i : Nat)
    (pOtpk : List Xcikey) (pOtQpk : List Qsidkey) :
    Respects R (serverPayloadLoop P keys remaining i pOtpk pOtQpk) := by
  induction remaining generalizing i pOtpk pOtQpk with
  | zero => exact Matches.pure _
  | succ remaining ih =>
    refine Matches.bind (respects_randombytesBuf hR 64) fun Z => ?_
    exact ih _ _ _

theorem respects_makeServerPayload (count : Nat) (deviceId : UInt32) (keys : LocalKeyBundle) :
    Respects R (makeServerPayload P count deviceId keys) := by
  refine Matches.bind (respects_randombytesBuf hR 64) fun Z_SPK => ?_
  refine Matches.bind (respects_randombytesBuf hR 64) fun Z_PQSPK => ?_
  refine Matches.bind (respects_randombytesBuf hR 4) fun word => ?_
  refine Matches.bind (respects_serverPayloadLoop hR keys count 0 [] []) fun entries => ?_
  exact Matches.pure _

/-! ### Sessions on keys in hand -/

theorem respects_encapsulate (PK : Qpubkey) : Respects R (Mlkem32.encapsulate P PK) := by
  refine Matches.bind (respects_randombytesBuf hR 32) fun coins => ?_
  cases P.mlkimplEnc PK coins with
  | ok r => exact Matches.pure _
  | error ret => exact Matches.throw _

theorem respects_outboundDerivation (EK : Xckeypair) (keys : ForeignPrekeyBundle)
    (d₁ d₂ d₃ : Xckey) (ss : Key mlkemBytes) :
    Respects R (outboundDerivation P EK keys d₁ d₂ d₃ ss) := by
  unfold outboundDerivation
  cases keys.oneTimePreKey with
  | none => exact respects_liftExcept _
  | some k =>
    refine Matches.bind (respects_ssecret hR.log _ _) fun d₄ => ?_
    exact respects_liftExcept _

theorem respects_createOutboundSession (alice : Xckeypair) (id : Xckey)
    (keys : ForeignPrekeyBundle) : Respects R (createOutboundSession P alice id keys) := by
  refine Matches.bind (respects_liftExcept _) fun verified => ?_
  cases verified with
  | false => exact Matches.pure none
  | true =>
    refine Matches.bind (respects_makePair hR) fun r => ?_
    cases r with
    | error e => exact Matches.pure none
    | ok EK =>
      refine Matches.bind (respects_encapsulate hR _) fun PQPK => ?_
      refine Matches.bind (respects_ssecret hR.log _ _) fun d₁ => ?_
      refine Matches.bind (respects_ssecret hR.log _ _) fun d₂ => ?_
      refine Matches.bind (respects_ssecret hR.log _ _) fun d₃ => ?_
      refine Matches.bind ((respects_outboundDerivation hR EK keys d₁ d₂ d₃ _).attempt _)
        fun SK => ?_
      cases SK <;> exact Matches.pure _

end Draws

section Writes

variable (hR : IndistinctWrites R)
include hR

/-! ### Publishing -/

theorem respects_makeLkb (deviceId : UInt32) : Respects R (makeLkb P deviceId) := by
  -- The Ed25519 generator is the X25519 one.
  have hik : Respects R (Ed25519.makePair P) := respects_makePair hR.toIndistinct
  refine Matches.bind hR.assertStore fun _ => ?_
  refine Matches.bind hik fun r => ?_
  refine Matches.bind (respects_valueOrThrow r) fun ik => ?_
  refine Matches.bind (respects_makeIdPair hR.toIndistinct) fun r => ?_
  refine Matches.bind (respects_valueOrThrow r) fun spk => ?_
  refine Matches.bind (respects_mlkemMakeIdPair hR.toIndistinct) fun r => ?_
  refine Matches.bind (respects_valueOrThrow r) fun qpk => ?_
  refine Matches.bind (respects_fillOneTimePreKeys hR.toIndistinct _ _) fun otk => ?_
  refine Matches.bind (respects_fillOneTimeQuantumKeys hR.toIndistinct _ _) fun otq => ?_
  refine Matches.bind (hR.storeIdentityKeyPair _) fun stored => ?_
  cases stored with
  | false => exact Matches.throw _
  | true => exact Matches.pure _

theorem respects_refillPreKey : Respects R (refillPreKey P) := by
  refine Matches.bind (respects_makePair hR.toIndistinct) fun r => ?_
  refine Matches.bind (respects_valueOrThrow r) fun pair => ?_
  refine Matches.bind (hR.storeOneTimePrekey _ _ _) fun stored => ?_
  cases stored with
  | false => exact Matches.throw _
  | true => exact Matches.pure _

theorem respects_refillQuantumPreKey (priv : Xckey) :
    Respects R (refillQuantumPreKey P priv) := by
  refine Matches.bind (respects_mlkemMakePair hR.toIndistinct) fun r => ?_
  refine Matches.bind (respects_valueOrThrow r) fun pair => ?_
  refine Matches.bind (hR.storeOneTimePrekey _ _ _) fun stored => ?_
  cases stored with
  | false => exact Matches.throw _
  | true =>
    refine Matches.bind (respects_randombytesBuf hR.toIndistinct 64) fun Z => ?_
    exact Matches.pure _

theorem respects_refillLoop (priv : Xckey) (count : Nat) (payload : RefillPayload) :
    Respects R (refillLoop P priv count payload) := by
  induction count generalizing payload with
  | zero => exact Matches.pure _
  | succ count ih =>
    refine Matches.bind (respects_refillPreKey hR) fun x => ?_
    refine Matches.bind (respects_refillQuantumPreKey hR priv) fun q => ?_
    exact ih _

theorem respects_refill (priv : Xckey) (count : UInt32) : Respects R (refill P priv count) :=
  Matches.bind hR.assertStore fun _ => respects_refillLoop hR priv _ _

/-! ### Sessions on keys in the store -/

theorem respects_createInboundSession (hik : Respects R loadIdentityKeyPair)
    (hpre : ∀ id type, Respects R (loadOneTimePrekey id type)) (hs : InitialMessageHandshake) :
    Respects R (createInboundSession P hs) := by
  refine Matches.bind hR.assertStore fun _ => ?_
  by_cases hlen : hs.usedPreKeys.length < 1
  · rw [if_pos hlen]
    exact Matches.pure none
  · rw [if_neg hlen]
    refine Matches.bind (respects_loadIdentityHalves hik) fun ik => ?_
    cases ik with
    | none => exact Matches.pure none
    | some ik =>
      refine Matches.bind (respects_liftExcept _) fun signedId => ?_
      refine Matches.bind (respects_loadPrekeyHalf hpre _ _ _ _) fun spk => ?_
      cases spk with
      | none => exact Matches.pure none
      | some spk =>
        refine Matches.bind (respects_loadOneTimeHalf hpre hs) fun opk => ?_
        cases opk with
        | none => exact Matches.pure none
        | some opk =>
          refine Matches.bind (respects_liftExcept _) fun quantumId => ?_
          refine Matches.bind (respects_loadPrekeyHalf hpre _ _ _ _) fun qpk => ?_
          cases qpk with
          | none => exact Matches.pure none
          | some qpk => exact respects_inbound hR.log _ _ _ _ _

end Writes

end Statements

/-! ### Equal up to the trace -/

/-- The worlds have the same store and the same random bytes to come. -/
structure SameCore (w w' : World) : Prop where
  manager : w'.manager = w.manager
  entropy : w'.entropy = w.entropy

theorem sameCore_equivalence : Equivalence SameCore where
  refl _ := ⟨rfl, rfl⟩
  symm h := ⟨h.manager.symm, h.entropy.symm⟩
  trans h h' := ⟨h'.manager.trans h.manager, h'.entropy.trans h.entropy⟩

/-- What uses the manager respects `SameCore` where it does so for one manager. -/
theorem SameCore.withManager {α : Type} {f : StorageManager → GcryptM α}
    (hf : ∀ m, Respects SameCore (f m)) : Respects SameCore (withManager f) := by
  refine ⟨fun {w w'} h => ?_⟩
  cases hm : w.manager with
  | none =>
    rw [withManager_of_none hm, withManager_of_none (h.manager.trans hm)]
    exact Alike.error _ h
  | some m =>
    rw [withManager_of_some hm, withManager_of_some (h.manager.trans hm)]
    exact (hf m).alike h

theorem SameCore.indistinct : IndistinctWrites SameCore where
  entropy h := h.entropy
  skip h n := ⟨h.manager, by rw [World.skip, World.skip, h.entropy]⟩
  log h _ := ⟨h.manager, h.entropy⟩
  assertStore := SameCore.withManager fun _ => Matches.pure ()
  storeIdentityKeyPair blob :=
    SameCore.withManager fun m => ⟨fun h => Alike.ok _ ⟨rfl, h.entropy⟩⟩
  storeOneTimePrekey id type blob :=
    SameCore.withManager fun m => ⟨fun h => Alike.ok _ ⟨rfl, h.entropy⟩⟩

theorem SameCore.loadIdentityKeyPair : Respects SameCore loadIdentityKeyPair :=
  SameCore.withManager fun _ => ⟨fun h => Alike.ok _ ⟨h.manager, h.entropy⟩⟩

theorem SameCore.loadOneTimePrekey (id : UInt32) (type : KeyType) :
    Respects SameCore (loadOneTimePrekey id type) :=
  SameCore.withManager fun _ => ⟨fun h => Alike.ok _ ⟨h.manager, h.entropy⟩⟩

/-! ### Equal up to the content of the store -/

/-- The worlds have the same random bytes to come, and either no store both, or stores
that answer the writes to come alike. -/
structure SameVerdicts (w w' : World) : Prop where
  verdicts : w'.manager.map StorageManager.accepts = w.manager.map StorageManager.accepts
  entropy : w'.entropy = w.entropy

theorem sameVerdicts_equivalence : Equivalence SameVerdicts where
  refl _ := ⟨rfl, rfl⟩
  symm h := ⟨h.verdicts.symm, h.entropy.symm⟩
  trans h h' := ⟨h'.verdicts.trans h.verdicts, h'.entropy.trans h.entropy⟩

theorem SameVerdicts.withManager {α : Type} {f : StorageManager → GcryptM α}
    (hf : ∀ m m' w w', m'.accepts = m.accepts → SameVerdicts w w' →
      Alike SameVerdicts (f m w) (f m' w')) : Respects SameVerdicts (withManager f) := by
  refine ⟨fun {w w'} h => ?_⟩
  have hverdicts := h.verdicts
  cases hm : w.manager with
  | none =>
    rw [hm, Option.map_none, Option.map_eq_none_iff] at hverdicts
    rw [withManager_of_none hm, withManager_of_none hverdicts]
    exact Alike.error _ h
  | some m =>
    rw [hm, Option.map_some, Option.map_eq_some_iff] at hverdicts
    obtain ⟨m', hm', hacc⟩ := hverdicts
    rw [withManager_of_some hm, withManager_of_some hm']
    exact hf m m' w w' hacc h

/-- The verdict on a write, and the verdicts after it, do not depend on what is written. -/
theorem StorageManager.write_verdict {m m' c c' : StorageManager} (h : m'.accepts = m.accepts) :
    (m'.write c').1 = (m.write c).1 ∧ (m'.write c').2.accepts = (m.write c).2.accepts := by
  unfold StorageManager.write
  rw [h]
  cases m.accepts 0 <;> exact ⟨rfl, rfl⟩

theorem SameVerdicts.write {w w' : World} {m m' : StorageManager} (h : SameVerdicts w w')
    (hacc : m'.accepts = m.accepts) (c c' : StorageManager) :
    Alike SameVerdicts (.ok (m.write c).1 (w.setManager (m.write c).2) :
      EStateM.Result Fault World Bool) (.ok (m'.write c').1 (w'.setManager (m'.write c').2)) := by
  obtain ⟨hverdict, hafter⟩ : (m'.write c').1 = (m.write c).1 ∧
      (m'.write c').2.accepts = (m.write c).2.accepts := StorageManager.write_verdict hacc
  rw [hverdict]
  exact Alike.ok _ ⟨by simp [hafter], h.entropy⟩

theorem SameVerdicts.indistinct : IndistinctWrites SameVerdicts where
  entropy h := h.entropy
  skip h n := ⟨h.verdicts, by rw [World.skip, World.skip, h.entropy]⟩
  log h _ := ⟨h.verdicts, h.entropy⟩
  assertStore := SameVerdicts.withManager fun _ _ _ _ _ h => Alike.ok () h
  storeIdentityKeyPair blob :=
    SameVerdicts.withManager fun _ _ _ _ hacc h => h.write hacc _ _
  storeOneTimePrekey id type blob :=
    SameVerdicts.withManager fun _ _ _ _ hacc h => h.write hacc _ _

end Gcrypt
