import Gcrypt.Library.Agreement
import Gcrypt.Pqxdh

/-!
# Gcrypt.Handshake

One specification for each of the two handshake functions, in terms of what they
ask of the primitives.

Both roles derive their root key in the same way (`rootKey`): from the secrets of a
list of **mandatory** Diffie-Hellman queries, the secret of one **optional** query
(the one-time prekey), and a KEM secret. The roles differ in how a failure shows:
the mandatory queries run before the `try` block, so their failure is thrown; the
optional query and the derivation run inside it, so theirs is `nullopt`.

The results here are stated with `Agreement.secrets`. All results about sessions are
read off them, and no later module unfolds the two functions.
-/

namespace Gcrypt.Handshake

open Effect Agreement

variable (P : Primitives)

/-! ### Queries and the root key -/

/-- `X25519::ssecret` without its fault. -/
abbrev dh : Xckey → Xckey → Option Xckey := P.cryptoScalarmultCurve25519

/-- What `HKDF::KDF<32>` derives from the concatenation of 32-byte secrets. -/
def rootKey (ks : List (Key 32)) : Option (Key 32) :=
  (HKDF.kdf P 32 (kconcat (ks.map fun k => ⟨32, k⟩))).toOption

/-- `DH_1`, `DH_2`, `DH_3` of the initiator. -/
def outboundQueries (alice ek : Xckeypair) (keys : ForeignPrekeyBundle) : List (Xckey × Xckey) :=
  [(alice.Private, keys.signedPreKey.key), (ek.Private, keys.identityKey),
    (ek.Private, keys.signedPreKey.key)]

/-- `DH_4` of the initiator, where the bundle has a one-time prekey. -/
def outboundOptional (ek : Xckeypair) (keys : ForeignPrekeyBundle) : List (Xckey × Xckey) :=
  keys.oneTimePreKey.toList.map fun k => (ek.Private, k.key)

/-- `DH_1`, `DH_2`, `DH_3` of the responder. -/
def inboundQueries (bob : Xckeypair) (spk : Xckey) (hs : InitialMessageHandshake) :
    List (Xckey × Xckey) :=
  [(spk, hs.identityKey), (bob.Private, hs.ephermoralKey), (spk, hs.ephermoralKey)]

/-- `DH_4` of the responder, where a one-time private key is supplied. -/
def inboundOptional (opk : Option Xckey) (hs : InitialMessageHandshake) : List (Xckey × Xckey) :=
  opk.toList.map fun k => (k, hs.ephermoralKey)

/-- What the `try` block delivers: none if the optional query or the KDF fails. -/
def derive (ds : List Xckey) (optional : List (Xckey × Xckey)) (ss : Key 32) :
    Option (Key 32) :=
  (secrets (dh P) optional).bind fun ds' => rootKey P (ds ++ ds' ++ [ss])

/-- The ephemeral pair of the call, the first thing it draws. -/
abbrev ephemeral (w : World) : Xckeypair := Keygen.nextBoxPair P w

/-- The coins of the encapsulation, drawn after the ephemeral pair. -/
def encapsulationCoins (w : World) : Key 32 := (w.skip 32).peek 32

/-! ### The shared parts -/

variable {P}

/-- The `try` block without a fourth Diffie-Hellman. -/
theorem attempt_kdf (ks : List (Key 32)) (w : World) :
    attempt Fault.isRuntimeError
        (liftExcept (HKDF.kdf P 32 (kconcat (ks.map fun k => (⟨32, k⟩ : AnyKey))))) w
      = .ok (rootKey P ks) w := by
  unfold rootKey
  cases hk : HKDF.kdf P 32 (kconcat (ks.map fun k => (⟨32, k⟩ : AnyKey))) with
  | ok k => exact attempt_of_ok rfl
  | error e => exact attempt_of_caught rfl (HKDF.kdf_error hk)

/-- The `try` block with a fourth Diffie-Hellman: its failure is caught as well. -/
theorem attempt_ssecret_kdf (a b : Xckey) (ds : List Xckey) (ss : Key 32) (w : World) :
    attempt Fault.isRuntimeError
        (X25519.ssecret P a b >>= fun d => liftExcept
          (HKDF.kdf P 32 (kconcat ((ds ++ [d] ++ [ss]).map fun k => (⟨32, k⟩ : AnyKey))))) w
      = .ok (derive P ds [(a, b)] ss) (w.log (.ssecret a b)) := by
  cases hd : dh P a b with
  | none =>
    rw [attempt_of_caught (bind_of_error (X25519.ssecret_of_none w hd)) rfl]
    simp only [derive, secrets, hd, Option.bind_none]
  | some d =>
    rw [attempt_bind_of_ok (X25519.ssecret_of_some w hd), attempt_kdf]
    simp only [derive, secrets, hd, Option.bind_some, Option.map_some]

/-- The two `try` blocks deliver `derive` of the mandatory secrets, and leave the
store alone. -/
theorem attempt_outboundDerivation (EK : Xckeypair) (keys : ForeignPrekeyBundle)
    (d₁ d₂ d₃ : Xckey) (ss : Key 32) (w : World) :
    ∃ w', attempt Fault.isRuntimeError (outboundDerivation P EK keys d₁ d₂ d₃ ss) w
      = .ok (derive P [d₁, d₂, d₃] (outboundOptional EK keys) ss) w' := by
  unfold outboundDerivation outboundOptional
  cases keys.oneTimePreKey with
  | none => exact ⟨_, attempt_kdf [d₁, d₂, d₃, ss] w⟩
  | some k => exact ⟨_, attempt_ssecret_kdf EK.Private k.key [d₁, d₂, d₃] ss w⟩

theorem attempt_inboundDerivation (opk : Option Xckey) (hs : InitialMessageHandshake)
    (d₁ d₂ d₃ : Xckey) (ss : Key 32) (w : World) :
    ∃ w', attempt Fault.isRuntimeError (inboundDerivation P opk hs d₁ d₂ d₃ ss) w
      = .ok (derive P [d₁, d₂, d₃] (inboundOptional opk hs) ss) w' := by
  unfold inboundDerivation inboundOptional
  cases opk with
  | none => exact ⟨_, attempt_kdf [d₁, d₂, d₃, ss] w⟩
  | some k => exact ⟨_, attempt_ssecret_kdf k hs.ephermoralKey [d₁, d₂, d₃] ss w⟩

section Mandatory

variable {α : Type} {q₁ q₂ q₃ : Xckey × Xckey} {f : Xckey → Xckey → Xckey → GcryptM α}

/-- Three mandatory secrets that exist are handed on. -/
theorem ssecrets_of_some {d₁ d₂ d₃ : Xckey} (w : World)
    (h : secrets (dh P) [q₁, q₂, q₃] = some [d₁, d₂, d₃]) :
    (do let d₁ ← X25519.ssecret P q₁.1 q₁.2
        let d₂ ← X25519.ssecret P q₂.1 q₂.2
        let d₃ ← X25519.ssecret P q₃.1 q₃.2
        f d₁ d₂ d₃) w
      = f d₁ d₂ d₃ (((w.log (.ssecret q₁.1 q₁.2)).log (.ssecret q₂.1 q₂.2)).log
          (.ssecret q₃.1 q₃.2)) := by
  obtain ⟨k₁, l₁, h₁, hl₁, heq₁⟩ := (secrets_cons_eq_some _).mp h
  obtain ⟨k₂, l₂, h₂, hl₂, rfl⟩ := (secrets_cons_eq_some _).mp hl₁
  obtain ⟨k₃, l₃, h₃, hl₃, rfl⟩ := (secrets_cons_eq_some _).mp hl₂
  cases heq₁
  rw [bind_of_ok (X25519.ssecret_of_some w h₁), bind_of_ok (X25519.ssecret_of_some _ h₂),
    bind_of_ok (X25519.ssecret_of_some _ h₃)]

/-- A mandatory secret that does not exist is thrown. -/
theorem ssecrets_of_none (w : World) (h : secrets (dh P) [q₁, q₂, q₃] = none) :
    Throws (do
      let d₁ ← X25519.ssecret P q₁.1 q₁.2
      let d₂ ← X25519.ssecret P q₂.1 q₂.2
      let d₃ ← X25519.ssecret P q₃.1 q₃.2
      f d₁ d₂ d₃) w := by
  unfold Throws
  cases h₁ : dh P q₁.1 q₁.2 with
  | none => exact ⟨_, _, bind_of_error (X25519.ssecret_of_none w h₁)⟩
  | some d₁ =>
    rw [bind_of_ok (X25519.ssecret_of_some w h₁)]
    cases h₂ : dh P q₂.1 q₂.2 with
    | none => exact ⟨_, _, bind_of_error (X25519.ssecret_of_none _ h₂)⟩
    | some d₂ =>
      rw [bind_of_ok (X25519.ssecret_of_some _ h₂)]
      cases h₃ : dh P q₃.1 q₃.2 with
      | none => exact ⟨_, _, bind_of_error (X25519.ssecret_of_none _ h₃)⟩
      | some d₃ => simp [secrets, h₁, h₂, h₃] at h

end Mandatory

/-- Three queries that succeed deliver three secrets. -/
theorem secrets_three {q₁ q₂ q₃ : Xckey × Xckey} {ds : List Xckey}
    (h : secrets (dh P) [q₁, q₂, q₃] = some ds) : ∃ d₁ d₂ d₃, ds = [d₁, d₂, d₃] := by
  obtain ⟨d₁, l₁, -, hl₁, rfl⟩ := (secrets_cons_eq_some _).mp h
  obtain ⟨d₂, l₂, -, hl₂, rfl⟩ := (secrets_cons_eq_some _).mp hl₁
  obtain ⟨d₃, l₃, -, hl₃, rfl⟩ := (secrets_cons_eq_some _).mp hl₂
  cases hl₃
  exact ⟨d₁, d₂, d₃, rfl⟩

/-! ### The initiator -/

section Outbound

variable {alice : Xckeypair} {id : Xckey} {keys : ForeignPrekeyBundle} {w : World}

theorem outbound_of_verify_error {e : Fault} (hv : verifyForeignBundle P id keys = .error e) :
    Throws (createOutboundSession P alice id keys) w := by
  unfold Throws createOutboundSession
  exact ⟨e, w, bind_of_error (liftExcept_apply_error hv w)⟩

theorem outbound_of_rejected (hv : verifyForeignBundle P id keys = .ok false) :
    createOutboundSession P alice id keys w = .ok none w := by
  unfold createOutboundSession
  rw [bind_of_ok (liftExcept_apply_ok hv w)]
  rfl

/-- The encapsulation comes first, and its failure is thrown. -/
theorem outbound_of_enc_error {ret : Int} (hv : verifyForeignBundle P id keys = .ok true)
    (henc : P.mlkimplEnc keys.quantumKey (encapsulationCoins w) = .error ret) :
    Throws (createOutboundSession P alice id keys) w := by
  unfold Throws createOutboundSession
  rw [bind_of_ok (liftExcept_apply_ok hv w)]
  simp only [Bool.not_true, Bool.false_eq_true, if_false]
  rw [bind_of_ok (Keygen.X25519.makePair_apply P w)]
  exact ⟨_, _, bind_of_error (Mlkem32.encapsulate_of_error (w := (w.skip 32).log _) henc)⟩

/-- So is the failure of a mandatory secret. -/
theorem outbound_of_ssecret_none {ct : Key mlkemCtb} {ss : Key mlkemBytes}
    (hv : verifyForeignBundle P id keys = .ok true)
    (henc : P.mlkimplEnc keys.quantumKey (encapsulationCoins w) = .ok (ct, ss))
    (hd : secrets (dh P) (outboundQueries alice (ephemeral P w) keys) = none) :
    Throws (createOutboundSession P alice id keys) w := by
  unfold Throws createOutboundSession
  rw [bind_of_ok (liftExcept_apply_ok hv w)]
  simp only [Bool.not_true, Bool.false_eq_true, if_false]
  rw [bind_of_ok (Keygen.X25519.makePair_apply P w)]
  dsimp only
  rw [bind_of_ok (Mlkem32.encapsulate_of_ok (w := (w.skip 32).log _) henc)]
  exact ssecrets_of_none _ hd

/-- With the signatures verified and the mandatory steps done, the call returns: a
session if the derivation delivers a key, else `nullopt`. -/
theorem outbound_of_steps {ct : Key mlkemCtb} {ss : Key mlkemBytes} {ds : List Xckey}
    (hv : verifyForeignBundle P id keys = .ok true)
    (henc : P.mlkimplEnc keys.quantumKey (encapsulationCoins w) = .ok (ct, ss))
    (hd : secrets (dh P) (outboundQueries alice (ephemeral P w) keys) = some ds) :
    ∃ w', createOutboundSession P alice id keys w
      = .ok ((derive P ds (outboundOptional (ephemeral P w) keys) ss).map fun SK =>
          finalizeOutboundSession alice.Public (ephemeral P w).Public ct SK keys) w' := by
  obtain ⟨d₁, d₂, d₃, rfl⟩ := secrets_three hd
  unfold createOutboundSession
  rw [bind_of_ok (liftExcept_apply_ok hv w)]
  simp only [Bool.not_true, Bool.false_eq_true, if_false]
  rw [bind_of_ok (Keygen.X25519.makePair_apply P w)]
  dsimp only
  rw [bind_of_ok (Mlkem32.encapsulate_of_ok (w := (w.skip 32).log _) henc), ssecrets_of_some _ hd]
  obtain ⟨w', hSK⟩ := attempt_outboundDerivation (P := P) (ephemeral P w) keys d₁ d₂ d₃ ss _
  refine ⟨w', (bind_of_ok hSK).trans ?_⟩
  cases derive P [d₁, d₂, d₃] (outboundOptional (ephemeral P w) keys) ss <;> rfl

/-- **Inversion.** Everything a session relies on. -/
theorem outbound_eq_some {res : SessionInitResult} {w' : World}
    (h : createOutboundSession P alice id keys w = .ok (some res) w') :
    ∃ ct ss ds SK, verifyForeignBundle P id keys = .ok true ∧
      P.mlkimplEnc keys.quantumKey (encapsulationCoins w) = .ok (ct, ss) ∧
      secrets (dh P) (outboundQueries alice (ephemeral P w) keys) = some ds ∧
      derive P ds (outboundOptional (ephemeral P w) keys) ss = some SK ∧
      res = finalizeOutboundSession alice.Public (ephemeral P w).Public ct SK keys := by
  cases hv : verifyForeignBundle P id keys with
  | error e =>
    have hthrow : Throws (createOutboundSession P alice id keys) w := outbound_of_verify_error hv
    obtain ⟨e', s, he⟩ := hthrow
    rw [he] at h
    cases h
  | ok verified =>
    cases verified with
    | false =>
      rw [outbound_of_rejected hv] at h
      cases h
    | true =>
      cases henc : P.mlkimplEnc keys.quantumKey (encapsulationCoins w) with
      | error ret =>
        have hthrow : Throws (createOutboundSession P alice id keys) w :=
          outbound_of_enc_error hv henc
        obtain ⟨e', s, he⟩ := hthrow
        rw [he] at h
        cases h
      | ok kem =>
        obtain ⟨ct, ss⟩ := kem
        cases hd : secrets (dh P) (outboundQueries alice (ephemeral P w) keys) with
        | none =>
          obtain ⟨e', s, he⟩ := outbound_of_ssecret_none hv henc hd
          rw [he] at h
          cases h
        | some ds =>
          obtain ⟨s, hs⟩ := outbound_of_steps hv henc hd
          rw [hs] at h
          injection h with hres
          obtain ⟨SK, hSK, rfl⟩ := Option.map_eq_some_iff.mp hres
          exact ⟨ct, ss, ds, SK, rfl, rfl, rfl, hSK, rfl⟩

/-- The call throws exactly when a check throws, or a mandatory step fails after
the signatures were accepted. -/
theorem outbound_returns_iff :
    Returns (createOutboundSession P alice id keys) w ↔
      (∃ b, verifyForeignBundle P id keys = .ok b) ∧
      (verifyForeignBundle P id keys = .ok true →
        (∃ kem, P.mlkimplEnc keys.quantumKey (encapsulationCoins w) = .ok kem) ∧
        ∃ ds, secrets (dh P) (outboundQueries alice (ephemeral P w) keys) = some ds) := by
  constructor
  · intro h
    rw [returns_iff_not_throws] at h
    cases hv : verifyForeignBundle P id keys with
    | error e => exact absurd (outbound_of_verify_error hv) h
    | ok verified =>
      refine ⟨⟨verified, rfl⟩, ?_⟩
      rintro ⟨⟩
      cases henc : P.mlkimplEnc keys.quantumKey (encapsulationCoins w) with
      | error ret => exact absurd (outbound_of_enc_error hv henc) h
      | ok kem =>
        refine ⟨⟨kem, rfl⟩, ?_⟩
        cases hd : secrets (dh P) (outboundQueries alice (ephemeral P w) keys) with
        | none => exact absurd (outbound_of_ssecret_none hv henc hd) h
        | some ds => exact ⟨ds, rfl⟩
  · rintro ⟨⟨verified, hv⟩, hsteps⟩
    cases verified with
    | false => exact ⟨none, w, outbound_of_rejected hv⟩
    | true =>
      obtain ⟨⟨⟨ct, ss⟩, henc⟩, ds, hd⟩ := hsteps hv
      obtain ⟨w', hw'⟩ := outbound_of_steps hv henc hd
      exact ⟨_, w', hw'⟩

end Outbound

/-! ### The responder -/

section Inbound

variable {bob : Xckeypair} {spk : Xckey} {opk : Option Xckey} {qsk : Qprivkey}
  {hs : InitialMessageHandshake} {w : World}

/-- The session the responder ends with. -/
def inboundSession (hs : InitialMessageHandshake) (SK : Key 32) : MessagingSession :=
  { MessagingSession.init with
    remoteIdentityKey := hs.identityKey
    remoteRatchetKey := hs.ephermoralKey
    rootKey := SK }

theorem inbound_of_dec_error {ret : Int} (hdec : P.mlkimplDec hs.cipherText qsk = .error ret) :
    Throws (createInboundSessionExplicit P bob spk opk qsk hs) w := by
  unfold Throws createInboundSessionExplicit
  exact ⟨_, _, bind_of_error (Mlkem32.decapsulate_of_error hdec)⟩

theorem inbound_of_ssecret_none {ss : Key mlkemBytes}
    (hdec : P.mlkimplDec hs.cipherText qsk = .ok ss)
    (hd : secrets (dh P) (inboundQueries bob spk hs) = none) :
    Throws (createInboundSessionExplicit P bob spk opk qsk hs) w := by
  unfold Throws createInboundSessionExplicit
  rw [bind_of_ok (Mlkem32.decapsulate_of_ok hdec)]
  exact ssecrets_of_none _ hd

theorem inbound_of_steps (opk : Option Xckey) {ss : Key mlkemBytes} {ds : List Xckey}
    (hdec : P.mlkimplDec hs.cipherText qsk = .ok ss)
    (hd : secrets (dh P) (inboundQueries bob spk hs) = some ds) :
    ∃ w', createInboundSessionExplicit P bob spk opk qsk hs w
      = .ok ((derive P ds (inboundOptional opk hs) ss).map (inboundSession hs)) w' := by
  obtain ⟨d₁, d₂, d₃, rfl⟩ := secrets_three hd
  unfold createInboundSessionExplicit
  rw [bind_of_ok (Mlkem32.decapsulate_of_ok hdec), ssecrets_of_some _ hd]
  obtain ⟨w', hSK⟩ := attempt_inboundDerivation (P := P) opk hs d₁ d₂ d₃ ss _
  refine ⟨w', (bind_of_ok hSK).trans ?_⟩
  cases derive P [d₁, d₂, d₃] (inboundOptional opk hs) ss <;> rfl

/-- What the call delivers is a function of its arguments: `none` if it throws. -/
def inboundAnswer (P : Primitives) (bob : Xckeypair) (spk : Xckey) (opk : Option Xckey)
    (qsk : Qprivkey) (hs : InitialMessageHandshake) : Option (Option MessagingSession) :=
  match P.mlkimplDec hs.cipherText qsk with
  | .error _ => none
  | .ok ss => (secrets (dh P) (inboundQueries bob spk hs)).map fun ds =>
      (derive P ds (inboundOptional opk hs) ss).map (inboundSession hs)

/-- **Specification** of the five-argument call. -/
theorem inbound_outcome_iff {r : Option MessagingSession} :
    outcome (createInboundSessionExplicit P bob spk opk qsk hs w) = .ok r ↔
      inboundAnswer P bob spk opk qsk hs = some r := by
  cases hdec : P.mlkimplDec hs.cipherText qsk with
  | error ret =>
    have hthrow : Throws (createInboundSessionExplicit P bob spk opk qsk hs) w :=
      inbound_of_dec_error hdec
    obtain ⟨e, s, he⟩ := hthrow
    simp [inboundAnswer, hdec, he]
  | ok ss =>
    cases hd : secrets (dh P) (inboundQueries bob spk hs) with
    | none =>
      have hthrow : Throws (createInboundSessionExplicit P bob spk opk qsk hs) w :=
        inbound_of_ssecret_none hdec hd
      obtain ⟨e, s, he⟩ := hthrow
      simp [inboundAnswer, hdec, hd, he]
    | some ds =>
      obtain ⟨s, hs'⟩ := inbound_of_steps (w := w) opk hdec hd
      simp [inboundAnswer, hdec, hd, hs']

/-- The primitives deliver a root key for the responder. -/
def Derives (P : Primitives) (bob : Xckeypair) (spk : Xckey) (opk : Option Xckey)
    (qsk : Qprivkey) (hs : InitialMessageHandshake) (SK : Key 32) : Prop :=
  ∃ ss ds, P.mlkimplDec hs.cipherText qsk = .ok ss ∧
    secrets (dh P) (inboundQueries bob spk hs) = some ds ∧
    derive P ds (inboundOptional opk hs) ss = some SK

/-- The steps outside the `try` block succeed, and one inside it fails: the fourth
Diffie-Hellman, or the key derivation. -/
def DerivationFails (P : Primitives) (bob : Xckeypair) (spk : Xckey) (opk : Option Xckey)
    (qsk : Qprivkey) (hs : InitialMessageHandshake) : Prop :=
  ∃ ss ds, P.mlkimplDec hs.cipherText qsk = .ok ss ∧
    secrets (dh P) (inboundQueries bob spk hs) = some ds ∧
    derive P ds (inboundOptional opk hs) ss = none

theorem inboundAnswer_eq_session {s : MessagingSession} :
    inboundAnswer P bob spk opk qsk hs = some (some s) ↔
      ∃ SK, Derives P bob spk opk qsk hs SK ∧ inboundSession hs SK = s := by
  unfold inboundAnswer Derives
  cases P.mlkimplDec hs.cipherText qsk with
  | error ret => simp
  | ok ss => cases secrets (dh P) (inboundQueries bob spk hs) <;> simp

theorem inboundAnswer_eq_nullopt :
    inboundAnswer P bob spk opk qsk hs = some none ↔ DerivationFails P bob spk opk qsk hs := by
  unfold inboundAnswer DerivationFails
  cases P.mlkimplDec hs.cipherText qsk with
  | error ret => simp
  | ok ss => cases secrets (dh P) (inboundQueries bob spk hs) <;> simp

end Inbound

end Gcrypt.Handshake
