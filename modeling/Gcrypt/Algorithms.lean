import Gcrypt.Keygen

/-!
# Gcrypt.Algorithms

`hashing.hpp`, `algorithms.hpp` and `algorithms.cpp`: X25519, XEdDSA, HKDF and
ML-KEM as the library wraps them.

Points and scalars share the type `Xckey`, as in the source: nothing but the text
of a function says which of the two an argument is.
-/

namespace Gcrypt

open Effect

variable (P : Primitives) {n : Nat}

/-! ### Hashing -/

/-- `hashing::SHA`, at `GCRYPT_HASH_SIZE` 512. -/
def sha (data : Key n) : Key 64 := P.cryptoHashSha512 data.bytes

/-- `hashing::hash255_i(i, message)`: SHA-512 of `2^256 - 1 - i`, little-endian,
followed by the message. -/
def hash255I (i : UInt8) (message : Key n) : Key 64 :=
  P.cryptoHashSha512 ((0xFF - i) :: List.replicate 31 0xFF ++ message.bytes)

/-! ### Ed25519 and X25519 -/

namespace Ed25519

/-- `signbit`: bit 255. -/
def signbit (key : Xckey) : Bool := (key.byteAt 31 >>> 7) &&& 1 = 1

/-- `ycoord`: the key with bit 255 cleared. -/
def ycoord (key : Xckey) : Xckey :=
  ⟨(kcpy key).bytes.set 31 ((kcpy key).byteAt 31 &&& 0x7F), by simp⟩

end Ed25519

namespace X25519

/-- `ssecret`: the shared secret, or a `std::runtime_error`. -/
def ssecret (localPrivateKey remotePublicKey : Xckey) : GcryptM Xckey := do
  logEvent (.ssecret localPrivateKey remotePublicKey)
  match P.cryptoScalarmultCurve25519 localPrivateKey remotePublicKey with
  | some out => return out
  | none => throw (.runtimeError "Gathering shared secret in X25519 key pair failed.")

variable {P} {localPrivateKey remotePublicKey out : Xckey} (w : World)

theorem ssecret_of_some
    (h : P.cryptoScalarmultCurve25519 localPrivateKey remotePublicKey = some out) :
    ssecret P localPrivateKey remotePublicKey w
      = .ok out (w.log (.ssecret localPrivateKey remotePublicKey)) := by
  rw [ssecret, bind_of_ok (logEvent_apply _ w), h]
  rfl

theorem ssecret_of_none
    (h : P.cryptoScalarmultCurve25519 localPrivateKey remotePublicKey = none) :
    ssecret P localPrivateKey remotePublicKey w
      = .error (.runtimeError "Gathering shared secret in X25519 key pair failed.")
          (w.log (.ssecret localPrivateKey remotePublicKey)) := by
  rw [ssecret, bind_of_ok (logEvent_apply _ w), h]
  rfl

end X25519

/-! ### XEdDSA -/

namespace XedDSA

/-- `impl::bpscale`, by value: the multiple of the base point. -/
def bpscale (scalar : Xckey) : Xckey := P.cryptoScalarmultEd25519BaseNoclamp scalar

/-- `impl::calculate_key_pair`. -/
def calculateKeyPair (K : Xckey) : Xckeypair :=
  let E := bpscale P K
  { Public := Ed25519.ycoord E
    Private :=
      if Ed25519.signbit E then P.cryptoCoreEd25519ScalarNegate K
      else kcpy K }

/-- The constant `P` of `sig_in_bounds`: `2^255 - 19` in little-endian form. -/
def fieldPrimeBytes : Xckey := ⟨0xED :: List.replicate 30 0xFF ++ [0x7F], rfl⟩

/-- `impl::sig_in_bounds`. -/
def sigInBounds (mkPub R s : Xckey) : Bool :=
  if P.sodiumCompare mkPub fieldPrimeBytes != -1 then false
  else if R.byteAt 31 &&& 0x80 != 0 then false
  else if s.byteAt 31 &&& 0xE0 != 0 then false
  else true

/-- `impl::u_to_y`: numerator, denominator and quotient are all computed with the
scalar functions. -/
def uToY (U : Xckey) : Except Fault Xckey :=
  let C1 := Keygen.fromLebytes 32 1
  let numerator := P.cryptoCoreEd25519ScalarSub U C1
  let denominator := P.cryptoCoreEd25519ScalarAdd U C1
  match P.cryptoCoreEd25519ScalarInvert denominator with
  | none => .error (.invalidArgument "Invalid scalar of ed25519 denominator (=0)")
  | some inverse => .ok (P.cryptoCoreEd25519ScalarMul numerator inverse)

/-- `impl::convert_mont`. -/
def convertMont (U : Xckey) : Except Fault Xckey := do
  let Y ← uToY P (Ed25519.ycoord U)
  return Ed25519.ycoord Y

/-- `sign32(K, M, Z)`. -/
def sign32 (K : Xckey) (M : Key n) (Z : Key 64) : Key 64 :=
  let A := calculateKeyPair P K
  let hash1 := hash255I P 1 (kconcat [⟨_, A.Private⟩, ⟨_, M⟩, ⟨_, Z⟩])
  let R : Xckeypair :=
    { Private := P.cryptoCoreEd25519ScalarReduce hash1
      Public := bpscale P (P.cryptoCoreEd25519ScalarReduce hash1) }
  let hash := sha P (kconcat [⟨_, R.Public⟩, ⟨_, A.Public⟩, ⟨_, M⟩])
  let h := P.cryptoCoreEd25519ScalarReduce hash
  let ha := P.cryptoCoreEd25519ScalarMul h A.Private
  let s := P.cryptoCoreEd25519ScalarAdd R.Private ha
  kconcatEqual R.Public s

/-- `verify32(mkPub, M, rcs)`. -/
def verify32 (mkPub : Xckey) (M : Key n) (rcs : Key 64) : Except Fault Bool :=
  let R := kcpyFrom 32 rcs 0
  let s := kcpyFrom 32 rcs 32
  if !sigInBounds P mkPub R s then .ok false
  else do
    let A ← convertMont P mkPub
    if !P.cryptoCoreEd25519IsValidPoint A then return false
    let hash := sha P (kconcat [⟨_, R⟩, ⟨_, A⟩, ⟨_, M⟩])
    let h := P.cryptoCoreEd25519ScalarReduce hash
    -- `impl::bpscale(s)` picks the overload that returns the product; the result
    -- is dropped and `s` keeps its value.
    let _ := bpscale P s
    let h := P.cryptoCoreEd25519ScalarMul h A
    let rCheck := P.cryptoCoreEd25519ScalarSub s h
    return kmatch rCheck R

end XedDSA

/-! ### HKDF -/

namespace HKDF

variable {m : Nat}

/-- `extract`. -/
def extract (salt : Key n) (ikm : Key m) : Except Fault (Key 32) :=
  match P.cryptoKdfHkdfSha256Extract salt.bytes ikm.bytes with
  | some out => .ok out
  | none => .error (.runtimeError "HKDF_sha256_extract failed.")

/-- `expand`. -/
def expand (outputSize : Nat) (prk : Key n) (info : String) : Except Fault (Key outputSize) :=
  match P.cryptoKdfHkdfSha256Expand outputSize info.toUTF8.toList prk.bytes with
  | some okm => .ok okm
  | none => .error (.runtimeError "HKDF_sha256_expand failed.")

/-- `KDF`, with its default `appDomainInfo`. -/
def kdf (outputSize : Nat) (secretKeyMaterial : Key n) : Except Fault (Key outputSize) := do
  let F : Key 32 := Keygen.filled 32 0xFF
  let KM := kconcatTwo F secretKeyMaterial
  let salt : Key 32 := Keygen.filled 32 0x00
  let prk ← extract P salt KM
  expand P outputSize prk "PQX3DH"

variable {P}

theorem extract_error {salt : Key n} {ikm : Key m} {e : Fault}
    (h : extract P salt ikm = .error e) : e.isRuntimeError = true := by
  unfold extract at h
  split at h
  · cases h
  · cases h
    rfl

theorem expand_error {outputSize : Nat} {prk : Key n} {info : String} {e : Fault}
    (h : expand P outputSize prk info = .error e) : e.isRuntimeError = true := by
  unfold expand at h
  split at h
  · cases h
  · cases h
    rfl

/-- Every failure of the KDF is a `std::runtime_error`. -/
theorem kdf_error {outputSize : Nat} {km : Key n} {e : Fault}
    (h : kdf P outputSize km = .error e) : e.isRuntimeError = true := by
  unfold kdf at h
  dsimp only at h
  cases hx : extract P (Keygen.filled 32 0x00 : Key 32)
      (kconcatTwo (Keygen.filled 32 0xFF : Key 32) km) with
  | error e' =>
    rw [hx] at h
    cases h
    exact extract_error hx
  | ok prk =>
    rw [hx] at h
    exact expand_error h

end HKDF

/-! ### ML-KEM -/

namespace Mlkem32

/-- `kem_keypair`. -/
structure KemKeypair where
  cipherText : Key mlkemCtb
  sharedSecret : Key mlkemBytes

/-- `encapsulate`: a failure of `mlkimpl_enc` is thrown. -/
def encapsulate (PK : Qpubkey) : GcryptM KemKeypair := do
  let coins ← randombytesBuf 32
  match P.mlkimplEnc PK coins with
  | .ok (cipherText, sharedSecret) => return ⟨cipherText, sharedSecret⟩
  | .error ret => throw (.runtimeError s!"MLKEM_32 enc failed with exit code: {ret}.")

/-- `decapsulate`: a failure of `mlkimpl_dec` is thrown. -/
def decapsulate (cipherText : Key mlkemCtb) (privateKey : Qprivkey) :
    GcryptM (Key mlkemBytes) := do
  logEvent (.decapsulate privateKey)
  match P.mlkimplDec cipherText privateKey with
  | .ok out => return out
  | .error ret => throw (.runtimeError s!"MLKEM_32 dec failed with exit code: {ret}.")

variable {P} {PK : Qpubkey} {privateKey : Qprivkey} {ct : Key mlkemCtb} {ss : Key mlkemBytes}
  {ret : Int} {w : World}

theorem encapsulate_of_ok (h : P.mlkimplEnc PK (w.peek 32) = .ok (ct, ss)) :
    encapsulate P PK w = .ok ⟨ct, ss⟩ (w.skip 32) := by
  rw [encapsulate, bind_of_ok (randombytesBuf_apply 32 w), h]
  rfl

theorem encapsulate_of_error (h : P.mlkimplEnc PK (w.peek 32) = .error ret) :
    encapsulate P PK w
      = .error (.runtimeError s!"MLKEM_32 enc failed with exit code: {ret}.") (w.skip 32) := by
  rw [encapsulate, bind_of_ok (randombytesBuf_apply 32 w), h]
  rfl

theorem decapsulate_of_ok (h : P.mlkimplDec ct privateKey = .ok ss) :
    decapsulate P ct privateKey w = .ok ss (w.log (.decapsulate privateKey)) := by
  rw [decapsulate, bind_of_ok (logEvent_apply _ w), h]
  rfl

theorem decapsulate_of_error (h : P.mlkimplDec ct privateKey = .error ret) :
    decapsulate P ct privateKey w
      = .error (.runtimeError s!"MLKEM_32 dec failed with exit code: {ret}.")
          (w.log (.decapsulate privateKey)) := by
  rw [decapsulate, bind_of_ok (logEvent_apply _ w), h]
  rfl

end Mlkem32

end Gcrypt
