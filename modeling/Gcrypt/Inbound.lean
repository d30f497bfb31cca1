import Gcrypt.Handshake

/-!
# Gcrypt.Inbound

What the store-backed `create_inbound_session` does, by the length of `usedPreKeys` and by
the blobs it loads (`createInboundSession_one`, `createInboundSession_two`,
`createInboundSession_of_not_slips`); everything about it is read off these.

The four loads of the function test the loader's result with the wrong polarity,
so a blob gets past its test only when it is **too short** (`tooShort`), and then
the key it was meant to fill is still all zero. `slipsThrough` says for which
handshakes every blob does so; only then is the explicit overload reached, and it
runs on zero keys. In every other case the answer is `nullopt`.
-/

namespace Gcrypt

open Effect Handshake

/-! ### What a call may do to the world -/

/-- The store is unchanged, and every event added to the trace satisfies `p`. -/
def World.Extends (p : Event → Prop) (w w' : World) : Prop :=
  w'.manager = w.manager ∧ ∃ es, w'.trace = w.trace ++ es ∧ ∀ e ∈ es, p e

/-- The events a call added. -/
def World.newEvents (w w' : World) : List Event := w'.trace.drop w.trace.length

/-- The call added exactly these events. -/
def World.Traced (es : List Event) (w w' : World) : Prop := w'.trace = w.trace ++ es

/-- The call added exactly these events, and left the store alone. -/
def World.Logged (es : List Event) (w w' : World) : Prop :=
  w'.manager = w.manager ∧ w'.trace = w.trace ++ es

/-- The store was asked for a blob. -/
def Event.IsLookup : Event → Prop
  | .loadIdentityKeyPair => True
  | .loadOneTimePrekey _ _ => True
  | _ => False

/-- A private key was used. -/
def Event.IsSecret : Event → Prop
  | .ssecret _ _ => True
  | .decapsulate _ => True
  | _ => False

theorem World.Traced.newEvents {es : List Event} {w w' : World} (h : World.Traced es w w') :
    w.newEvents w' = es := by
  rw [World.newEvents, h, List.drop_left]

theorem World.Traced.trans {es es' : List Event} {w w₁ w₂ : World} (h : World.Traced es w w₁)
    (h' : World.Traced es' w₁ w₂) : World.Traced (es ++ es') w w₂ := by
  rw [World.Traced, h', h, List.append_assoc]

section Extends

variable {p : Event → Prop} {w w' : World}

theorem extends_frame (p : Event → Prop) : Frame (World.Extends p) where
  refl w := ⟨rfl, [], by simp, by simp⟩
  trans := by
    rintro w₁ w₂ w₃ ⟨hm, es, ht, hes⟩ ⟨hm', es', ht', hes'⟩
    refine ⟨hm'.trans hm, es ++ es', by rw [ht', ht, List.append_assoc], ?_⟩
    intro e he
    rcases List.mem_append.mp he with he | he
    · exact hes e he
    · exact hes' e he

theorem extends_log (w : World) {e : Event} (he : p e) : World.Extends p w (w.log e) := by
  refine ⟨rfl, [e], rfl, ?_⟩
  intro e' he'
  rw [List.mem_singleton.mp he']
  exact he

theorem World.Extends.weaken {q : Event → Prop} (h : World.Extends p w w')
    (hpq : ∀ e, p e → q e) : World.Extends q w w' := by
  obtain ⟨hm, es, ht, hes⟩ := h
  exact ⟨hm, es, ht, fun e he => hpq e (hes e he)⟩

theorem World.Logged.extends {es : List Event} (h : World.Logged es w w')
    (hes : ∀ e ∈ es, p e) : World.Extends p w w' := ⟨h.1, es, h.2, hes⟩

theorem World.Logged.nil (w : World) : World.Logged [] w w := ⟨rfl, by simp⟩

theorem World.Logged.log {es : List Event} (h : World.Logged es w w') (e : Event) :
    World.Logged (es ++ [e]) w (w'.log e) :=
  ⟨h.1, by rw [World.log_trace, h.2, List.append_assoc]⟩

theorem World.Extends.newEvents (h : World.Extends p w w') : ∀ e ∈ w.newEvents w', p e := by
  obtain ⟨-, es, ht, hes⟩ := h
  rw [World.Traced.newEvents ht]
  exact hes

/-- What is in the trace after a first step is new after any further ones. -/
theorem World.Extends.mem_newEvents {q : Event → Prop} {w₁ : World} {e : Event}
    (h : World.Extends p w w₁) (h' : World.Extends q (w₁.log e) w') : e ∈ w.newEvents w' := by
  obtain ⟨-, es, ht, -⟩ := h
  obtain ⟨-, es', ht', -⟩ := h'
  rw [World.newEvents, ht', World.log_trace, ht, List.append_assoc, List.append_assoc,
    List.drop_left]
  simp

end Extends

/-! ### The explicit overload keeps the store -/

section Keeps

variable {P : Primitives}

theorem keeps_liftExcept {α : Type} {R : World → World → Prop} (hR : Frame R)
    (x : Except Fault α) : Keeps R (liftExcept x) := by
  cases x with
  | ok a => exact Keeps.pure hR a
  | error e => exact Keeps.throw hR e

theorem keeps_ssecret (a b : Xckey) :
    Keeps (World.Extends Event.IsSecret) (X25519.ssecret P a b) := by
  intro w
  cases h : P.cryptoScalarmultCurve25519 a b with
  | some k => rw [X25519.ssecret_of_some w h]; exact extends_log w trivial
  | none => rw [X25519.ssecret_of_none w h]; exact extends_log w trivial

theorem keeps_decapsulate (ct : Key mlkemCtb) (qsk : Qprivkey) :
    Keeps (World.Extends Event.IsSecret) (Mlkem32.decapsulate P ct qsk) := by
  intro w
  cases h : P.mlkimplDec ct qsk with
  | ok ss => rw [Mlkem32.decapsulate_of_ok h]; exact extends_log w trivial
  | error ret => rw [Mlkem32.decapsulate_of_error h]; exact extends_log w trivial

theorem keeps_inboundDerivation (opk : Option Xckey) (hs : InitialMessageHandshake)
    (d₁ d₂ d₃ : Xckey) (ss : Key 32) :
    Keeps (World.Extends Event.IsSecret) (inboundDerivation P opk hs d₁ d₂ d₃ ss) := by
  cases opk with
  | none => exact keeps_liftExcept (extends_frame _) _
  | some k =>
    refine Keeps.bind (extends_frame _) (keeps_ssecret _ _) ?_
    intro d
    exact keeps_liftExcept (extends_frame _) _

variable {bob : Xckeypair} {spk : Xckey} {opk : Option Xckey} {qsk : Qprivkey}
  {hs : InitialMessageHandshake}

theorem keeps_inbound :
    Keeps (World.Extends Event.IsSecret)
      (createInboundSessionExplicit P bob spk opk qsk hs) := by
  have hR : Frame (World.Extends Event.IsSecret) := extends_frame _
  refine Keeps.bind hR (keeps_decapsulate _ _) fun ss => ?_
  refine Keeps.bind hR (keeps_ssecret _ _) fun d₁ => ?_
  refine Keeps.bind hR (keeps_ssecret _ _) fun d₂ => ?_
  refine Keeps.bind hR (keeps_ssecret _ _) fun d₃ => ?_
  refine Keeps.bind hR ((keeps_inboundDerivation _ _ _ _ _ _).attempt _) fun SK => ?_
  cases SK with
  | none => exact Keeps.pure hR _
  | some SK => exact Keeps.pure hR _

/-- Once decapsulation has succeeded, `DH_1` is evaluated with the signed prekey. -/
theorem inbound_logs_ssecret {ss : Key mlkemBytes} (w : World)
    (hdec : P.mlkimplDec hs.cipherText qsk = .ok ss) :
    World.Extends Event.IsSecret
      ((w.log (.decapsulate qsk)).log (.ssecret spk hs.identityKey))
      (finalState (createInboundSessionExplicit P bob spk opk qsk hs w)) := by
  have hR : Frame (World.Extends Event.IsSecret) := extends_frame _
  unfold createInboundSessionExplicit
  rw [bind_of_ok (Mlkem32.decapsulate_of_ok hdec)]
  cases h : P.cryptoScalarmultCurve25519 spk hs.identityKey with
  | none =>
    rw [bind_of_error (X25519.ssecret_of_none _ h)]
    exact hR.refl _
  | some d₁ =>
    rw [bind_of_ok (X25519.ssecret_of_some _ h)]
    refine Keeps.bind hR (keeps_ssecret _ _) (fun d₂ => ?_) _
    refine Keeps.bind hR (keeps_ssecret _ _) fun d₃ => ?_
    refine Keeps.bind hR ((keeps_inboundDerivation _ _ _ _ _ _).attempt _) fun SK => ?_
    cases SK with
    | none => exact Keeps.pure hR _
    | some SK => exact Keeps.pure hR _

end Keeps

/-! ### The guarded loads -/

/-- The blob is there and has fewer than `size` bytes. -/
def tooShort (blob : Option Vkey) (size : Nat) : Bool := blob.any fun b => b.length < size

section Loads

variable {w : World} {m : StorageManager} (h : w.manager = some m)
include h

/-- The guard lets a load pass exactly when it failed, with a zero key. -/
theorem loadPrekeyHalf_apply {n : Nat} (id : UInt32) (type : KeyType) {offset : Nat}
    (hw : n + offset < sizeTRange) :
    loadPrekeyHalf n id type offset w
      = .ok (if tooShort (m.prekeys id type) (n + offset) then some Key.zero else none)
          (w.log (.loadOneTimePrekey id type)) := by
  rw [loadPrekeyHalf, bind_of_ok (loadOneTimePrekey_apply h id type)]
  cases hb : m.prekeys id type with
  | none => rfl
  | some blob =>
    by_cases hlen : blob.length < n + offset
    · dsimp only
      rw [bind_of_ok (liftExcept_apply_ok (loadKeybS_of_short hw hlen) _)]
      simp [tooShort, hlen]
    · dsimp only
      rw [bind_of_ok (liftExcept_apply_ok (loadKeybS_of_long (by omega)) _)]
      simp [tooShort, hlen]

theorem loadIdentityHalves_apply :
    loadIdentityHalves w
      = .ok (if tooShort m.identity 32 then some Xckeypair.zero else none)
          (w.log .loadIdentityKeyPair) := by
  rw [loadIdentityHalves, bind_of_ok (loadIdentityKeyPair_apply h)]
  cases hb : m.identity with
  | none => rfl
  | some blob =>
    by_cases hlen : blob.length < 32
    · -- The first load fails and passes; so does the second, further into the blob.
      dsimp only
      rw [bind_of_ok (liftExcept_apply_ok
        (loadKeybS_of_short (n := 32) (by decide) (by omega)) _)]
      simp only [Bool.false_eq_true, if_false]
      rw [bind_of_ok (liftExcept_apply_ok
        (loadKeybS_of_short (n := 32) (by decide) (by omega)) _)]
      simp [tooShort, hlen, Xckeypair.zero]
    · dsimp only
      rw [bind_of_ok (liftExcept_apply_ok
        (loadKeybS_of_long (n := 32) (by omega)) _)]
      simp [tooShort, hlen]

theorem loadOneTimeHalf_apply {hs : InitialMessageHandshake} {s o : UInt32}
    {rest : List UInt32} (hids : hs.usedPreKeys = s :: o :: rest) :
    loadOneTimeHalf hs w
      = .ok (if tooShort (m.prekeys o .prekey) (32 + 32) then some (some Key.zero) else none)
          (w.log (.loadOneTimePrekey o .prekey)) := by
  have hid₁ : vectorAt hs.usedPreKeys 1 = .ok o := by simp [vectorAt, hids]
  unfold loadOneTimeHalf
  rw [if_pos (by simp [hids]), bind_of_ok (liftExcept_apply_ok hid₁ _),
    bind_of_ok (loadPrekeyHalf_apply h o .prekey (by decide))]
  cases tooShort (m.prekeys o .prekey) (32 + 32) <;> rfl

end Loads

/-! ### The specification -/

/-- Every blob the function asks for is there and too short for its load. The last
one is asked for under the **one-time** prekey's identifier. -/
def slipsThrough (m : StorageManager) (hs : InitialMessageHandshake) : Bool :=
  match hs.usedPreKeys with
  | [] => false
  | [s] => tooShort m.identity 32 && tooShort (m.prekeys s .prekey) (32 + 32)
  | s :: o :: _ =>
    tooShort m.identity 32 && tooShort (m.prekeys s .prekey) (32 + 32) &&
      tooShort (m.prekeys o .prekey) (32 + 32) &&
      tooShort (m.prekeys o .quantum) (mlkemSkb + mlkemSkb)

/-- What the function looks up, in order. It stops at the first blob that is not there
or long enough, and reads the one-time prekey's identifier twice. -/
def loadsMade (m : StorageManager) (hs : InitialMessageHandshake) : List Event :=
  match hs.usedPreKeys with
  | [] => []
  | s :: rest =>
    .loadIdentityKeyPair ::
      if tooShort m.identity 32 then
        .loadOneTimePrekey s .prekey ::
          if tooShort (m.prekeys s .prekey) (32 + 32) then
            match rest with
            | [] => []
            | o :: _ =>
              .loadOneTimePrekey o .prekey ::
                if tooShort (m.prekeys o .prekey) (32 + 32) then
                  [.loadOneTimePrekey o .quantum]
                else []
          else []
      else []

theorem isLookup_of_loadsMade {m : StorageManager} {hs : InitialMessageHandshake} :
    ∀ e ∈ loadsMade m hs, e.IsLookup := by
  intro e he
  cases e with
  | loadIdentityKeyPair => trivial
  | loadOneTimePrekey id type => trivial
  | _ =>
    unfold loadsMade at he
    grind

/-- The explicit overload on default-initialised keys. -/
def inboundOnDefaultKeys (P : Primitives) (hs : InitialMessageHandshake) :
    GcryptM (Option MessagingSession) :=
  createInboundSessionExplicit P Xckeypair.zero Key.zero (some Key.zero) Key.zero hs

variable {P : Primitives} {m : StorageManager} {hs : InitialMessageHandshake} {w : World}

/-- A handshake that names no one-time prekey: `nullopt`, or a read past the end of
`usedPreKeys`. -/
theorem createInboundSession_one {s : UInt32} (h : w.manager = some m)
    (hids : hs.usedPreKeys = [s]) :
    ∃ w₁, World.Logged (loadsMade m hs) w w₁ ∧
      createInboundSession P hs w
        = if slipsThrough m hs then .error .undefinedBehaviour w₁ else .ok none w₁ := by
  have hlen : ¬ hs.usedPreKeys.length < 1 := by simp [hids]
  have hid₀ : vectorAt hs.usedPreKeys 0 = .ok s := by simp [vectorAt, hids]
  have hid₁ : vectorAt hs.usedPreKeys 1 = .error .undefinedBehaviour := by simp [vectorAt, hids]
  have hone : loadOneTimeHalf hs = pure (some none) := by simp [loadOneTimeHalf, hids]
  have h₁ := (World.Logged.nil w).log .loadIdentityKeyPair
  have h₂ := h₁.log (.loadOneTimePrekey s .prekey)
  unfold createInboundSession
  rw [bind_of_ok (assertStore_apply h), if_neg hlen, bind_of_ok (loadIdentityHalves_apply h)]
  simp only [slipsThrough, loadsMade, hids]
  cases tooShort m.identity 32 with
  | false => exact ⟨_, h₁, rfl⟩
  | true =>
    simp only [if_true, Bool.true_and]
    rw [bind_of_ok (liftExcept_apply_ok (hids ▸ hid₀) _),
      bind_of_ok (loadPrekeyHalf_apply (h₁.1.trans h) s .prekey (by decide))]
    cases tooShort (m.prekeys s .prekey) (32 + 32) with
    | false => exact ⟨_, h₂, rfl⟩
    | true =>
      simp only [if_true]
      rw [hone, bind_of_ok (pure_apply _ _)]
      exact ⟨_, h₂, bind_of_error (liftExcept_apply_error (hids ▸ hid₁) _)⟩

/-- A handshake that names one: `nullopt`, or the explicit overload on zero keys. -/
theorem createInboundSession_two {s o : UInt32} {rest : List UInt32} (h : w.manager = some m)
    (hids : hs.usedPreKeys = s :: o :: rest) :
    ∃ w₁, World.Logged (loadsMade m hs) w w₁ ∧
      createInboundSession P hs w
        = if slipsThrough m hs then inboundOnDefaultKeys P hs w₁ else .ok none w₁ := by
  have hlen : ¬ hs.usedPreKeys.length < 1 := by simp [hids]
  have hid₀ : vectorAt hs.usedPreKeys 0 = .ok s := by simp [vectorAt, hids]
  have hid₁ : vectorAt hs.usedPreKeys 1 = .ok o := by simp [vectorAt, hids]
  have h₁ := (World.Logged.nil w).log .loadIdentityKeyPair
  have h₂ := h₁.log (.loadOneTimePrekey s .prekey)
  have h₃ := h₂.log (.loadOneTimePrekey o .prekey)
  have h₄ := h₃.log (.loadOneTimePrekey o .quantum)
  unfold createInboundSession
  rw [bind_of_ok (assertStore_apply h), if_neg hlen, bind_of_ok (loadIdentityHalves_apply h)]
  simp only [slipsThrough, loadsMade, hids]
  cases tooShort m.identity 32 with
  | false => exact ⟨_, h₁, rfl⟩
  | true =>
    simp only [if_true, Bool.true_and]
    rw [bind_of_ok (liftExcept_apply_ok (hids ▸ hid₀) _),
      bind_of_ok (loadPrekeyHalf_apply (h₁.1.trans h) s .prekey (by decide))]
    cases tooShort (m.prekeys s .prekey) (32 + 32) with
    | false => exact ⟨_, h₂, rfl⟩
    | true =>
      simp only [if_true, Bool.true_and]
      rw [bind_of_ok (loadOneTimeHalf_apply (h₂.1.trans h) hids)]
      cases tooShort (m.prekeys o .prekey) (32 + 32) with
      | false => exact ⟨_, h₃, rfl⟩
      | true =>
        simp only [if_true, Bool.true_and]
        rw [bind_of_ok (liftExcept_apply_ok (hids ▸ hid₁) _),
          bind_of_ok (loadPrekeyHalf_apply (h₃.1.trans h) o .quantum (by decide))]
        cases tooShort (m.prekeys o .quantum) (mlkemSkb + mlkemSkb) with
        | false => exact ⟨_, h₄, rfl⟩
        | true => exact ⟨_, h₄, rfl⟩

/-- **Fail-closed part.** Unless every blob slips through, the answer is `nullopt`,
and the call has only looked blobs up. -/
theorem createInboundSession_of_not_slips (h : w.manager = some m)
    (hslip : slipsThrough m hs = false) :
    ∃ w₁, World.Logged (loadsMade m hs) w w₁ ∧ createInboundSession P hs w = .ok none w₁ := by
  rcases hids : hs.usedPreKeys with _ | ⟨s, _ | ⟨o, rest⟩⟩
  · refine ⟨w, ?_, ?_⟩
    · rw [loadsMade, hids]
      exact World.Logged.nil w
    · unfold createInboundSession
      rw [bind_of_ok (assertStore_apply h), if_pos (by simp [hids])]
      rfl
  · obtain ⟨w₁, hw₁, heq⟩ := createInboundSession_one (P := P) h hids
    exact ⟨w₁, hw₁, by rw [heq, hslip]; rfl⟩
  · obtain ⟨w₁, hw₁, heq⟩ := createInboundSession_two (P := P) h hids
    exact ⟨w₁, hw₁, by rw [heq, hslip]; rfl⟩

/-- The store-backed call never changes the store. -/
theorem keeps_createInboundSession (hs : InitialMessageHandshake) :
    Keeps (World.Extends fun _ => True) (createInboundSession P hs) := by
  intro w
  cases h : w.manager with
  | none =>
    unfold createInboundSession
    rw [bind_of_error (assertStore_of_none h)]
    exact (extends_frame _).refl w
  | some m =>
    have hlogged {w₁ : World} (hw₁ : World.Logged (loadsMade m hs) w w₁) :
        World.Extends (fun _ => True) w w₁ := hw₁.extends fun _ _ => trivial
    cases hslip : slipsThrough m hs with
    | false =>
      obtain ⟨w₁, hw₁, heq⟩ := createInboundSession_of_not_slips (P := P) h hslip
      rw [heq]
      exact hlogged hw₁
    | true =>
      rcases hids : hs.usedPreKeys with _ | ⟨s, _ | ⟨o, rest⟩⟩
      · simp [slipsThrough, hids] at hslip
      · obtain ⟨w₁, hw₁, heq⟩ := createInboundSession_one (P := P) h hids
        rw [heq, hslip]
        exact hlogged hw₁
      · obtain ⟨w₁, hw₁, heq⟩ := createInboundSession_two (P := P) h hids
        rw [heq, hslip]
        exact (extends_frame _).trans (hlogged hw₁)
          ((keeps_inbound w₁).weaken fun _ _ => trivial)

end Gcrypt
