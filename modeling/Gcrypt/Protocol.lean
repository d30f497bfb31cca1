import Gcrypt.Library.Bytes

/-!
# Gcrypt.Protocol

The data model of `protocol.hpp`: fixed-size keys, key pairs, and keys that carry
an identifier or a signature.

A `key<N>` is a byte string that carries its own length (`Key`), so no operation
below can build a key of the wrong size. The source wipes a key when it is moved
from or destroyed; keys are values here, and objects in `Gcrypt.Lifetimes`.

`Fault` collects what the library can throw. Reading past the end of a buffer is
not an exception in C++ but undefined behaviour, so it is a fault of its own that
no `catch` clause stops.
-/

namespace Gcrypt

/-! ### Sizes -/

/-- `GCRYPT_X25519_KEY_SIZE`. -/
abbrev x25519KeySize : Nat := 32
/-- `GCRYPT_SIGNATURE_SIZE`. -/
abbrev signatureSize : Nat := 64
/-- `MLKEM_PKB`, at parameter set 1024. -/
abbrev mlkemPkb : Nat := 1568
/-- `MLKEM_SKB`, at parameter set 1024. -/
abbrev mlkemSkb : Nat := 3168
/-- `MLKEM_CTB`, at parameter set 1024. -/
abbrev mlkemCtb : Nat := 1568
/-- `MLKEM_BYTES`, the size of a shared secret. -/
abbrev mlkemBytes : Nat := 32
/-- `GCRYPT_INITIAL_PREKEY_BUNDLE_COUNT`. -/
abbrev initialPrekeyBundleCount : Nat := 100

/-- A varying array of bytes (`vkey`). -/
abbrev Vkey := List UInt8

/-! ### Keys -/

/-- `key<N>`: a key of `n` bytes. -/
structure Key (n : Nat) where
  bytes : List UInt8
  size_eq : bytes.length = n
  deriving DecidableEq

namespace Key

variable {n : Nat}

@[ext] theorem ext {k₁ k₂ : Key n} (h : k₁.bytes = k₂.bytes) : k₁ = k₂ := by
  cases k₁; cases k₂; cases h; rfl

/-- A default-initialised key: all zero. -/
def zero : Key n := ⟨List.replicate n 0, List.length_replicate⟩

instance : Inhabited (Key n) := ⟨zero⟩

@[simp] theorem length_bytes (k : Key n) : k.bytes.length = n := k.size_eq

/-- The key read as a little-endian integer. -/
def toNat (k : Key n) : Nat := Bytes.toNat k.bytes

/-- The key that holds an integer in little-endian form. -/
def ofNat (n v : Nat) : Key n := ⟨Bytes.ofNat n v, Bytes.length_ofNat n v⟩

/-- `key[i]`. -/
def byteAt (k : Key n) (i : Nat) : UInt8 := k.bytes.getD i 0

theorem toNat_lt (k : Key n) : k.toNat < 256 ^ n := by
  have h := Bytes.toNat_lt k.bytes
  rwa [k.size_eq] at h

theorem toNat_ofNat (v : Nat) : (ofNat n v).toNat = v % 256 ^ n := Bytes.toNat_ofNat n v

theorem toNat_ofNat_of_lt {v : Nat} (h : v < 256 ^ n) : (ofNat n v).toNat = v := by
  rw [toNat_ofNat, Nat.mod_eq_of_lt h]

theorem toNat_inj {k₁ k₂ : Key n} : k₁.toNat = k₂.toNat ↔ k₁ = k₂ := by
  constructor
  · intro h
    exact ext (Bytes.toNat_inj (by rw [k₁.size_eq, k₂.size_eq]) h)
  · rintro rfl
    rfl

@[simp] theorem toNat_zero : (zero : Key n).toNat = 0 := Bytes.toNat_replicate_zero n

end Key

/-! ### Key pairs, identifiers and signatures -/

/-- `_keypair_impl`. -/
structure KeypairImpl (PublicKeyType PrivateKeyType : Nat → Type)
    (PublicBytes PrivateBytes : Nat) where
  Public : PublicKeyType PublicBytes
  Private : PrivateKeyType PrivateBytes

/-- `idkey<N>`: an identifiable key of `n` bytes. -/
structure Idkey (n : Nat) where
  key : Key n
  identifier : UInt32
  deriving DecidableEq

/-- `sidkey<N, S>`: an identifiable key with a signature of `s` bytes. -/
structure Sidkey (n s : Nat) extends Idkey n where
  signature : Key s
  deriving DecidableEq

abbrev Xckey := Key x25519KeySize
abbrev Xcikey := Idkey x25519KeySize
abbrev Xcsikey := Sidkey x25519KeySize signatureSize
abbrev Xckeypair := KeypairImpl Key Key x25519KeySize x25519KeySize
abbrev Xcikeypair := KeypairImpl Idkey Key x25519KeySize x25519KeySize
abbrev Edkeypair := Xckeypair

abbrev Qpubkey := Key mlkemPkb
abbrev Qpubikey := Idkey mlkemPkb
abbrev Qprivkey := Key mlkemSkb
abbrev Qkeypair := KeypairImpl Key Key mlkemPkb mlkemSkb
abbrev Qikeypair := KeypairImpl Idkey Key mlkemPkb mlkemSkb
abbrev Qsidkey := Sidkey mlkemCtb signatureSize

/-- A value-initialised key pair. -/
def Xckeypair.zero : Xckeypair := ⟨Key.zero, Key.zero⟩

/-! ### Faults -/

/-- What leaves a function of the library other than by `return`. -/
inductive Fault
  /-- `std::runtime_error`. -/
  | runtimeError (what : String)
  /-- `std::invalid_argument`, a `std::logic_error`. -/
  | invalidArgument (what : String)
  /-- `gcrypt::not_implemented`, a `std::logic_error`. -/
  | notImplemented (what : String)
  /-- A thrown `const char*` (`throw keygen::descriptive_error(..)`). -/
  | text (what : String)
  /-- Not an exception: an access outside a buffer. -/
  | undefinedBehaviour
  deriving DecidableEq

/-- What `catch(const std::runtime_error&)` stops. -/
def Fault.isRuntimeError : Fault → Bool
  | .runtimeError _ => true
  | _ => false

end Gcrypt
