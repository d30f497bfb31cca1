import Gcrypt.Store
import Gcrypt.Util

/-!
# Gcrypt.Keygen

`keygen.hpp` and `keygen.cpp`: constant and random keys, and the key pair
generators of the three families.

The Ed25519 generators are the X25519 ones (both call `crypto_box_keypair`), and
every generator returns its pair in an `std::expected`.
-/

namespace Gcrypt.Keygen

open Effect

/-- `KeyGenError`. -/
inductive KeyGenError
  | libraryError | unknownAlgorithm | unknown
  deriving DecidableEq

/-- `descriptive_error`. -/
def descriptiveError : KeyGenError → String
  | .libraryError => "Key Generation failed due to a library error."
  | .unknownAlgorithm => "Key Generation failed due to lack of an algorithm implementation."
  | .unknown => "Key Generation failed with an unknown error."

/-- `from_lebytes<N>(byte)`: a zero key with its first byte set. -/
def fromLebytes (n : Nat) (byte : UInt8) : Key n :=
  ⟨(List.replicate n 0).set 0 byte, by simp⟩

/-- `filled<N>(byte)`. -/
def filled (n : Nat) (byte : UInt8) : Key n := ⟨List.replicate n byte, List.length_replicate⟩

/-- `random<N>()`. -/
def random (n : Nat) : GcryptM (Key n) := randombytesBuf n

variable (P : Primitives)

/-- `crypto_box_keypair`: 32 random bytes, and their X25519 public key. -/
def cryptoBoxKeypair : GcryptM Xckeypair := do
  let seed ← randombytesBuf 32
  let pair : Xckeypair := ⟨P.cryptoScalarmultCurve25519Base seed, seed⟩
  logEvent (.boxKeypair pair)
  return pair

/-- `mlkimpl_keypair` on 64 random bytes. -/
def mlkimplKeypair : GcryptM (Except Int Qkeypair) := do
  let coins ← randombytesBuf 64
  match P.mlkimplKeypair coins with
  | .ok pair => do
    logEvent (.mlkemKeypair pair)
    return .ok pair
  | .error code => return .error code

namespace X25519

/-- `X25519::make_pair`. -/
def makePair : GcryptM (Except KeyGenError Xckeypair) := do
  let out ← cryptoBoxKeypair P
  return .ok out

/-- `X25519::make_id_pair`. -/
def makeIdPair : GcryptM (Except KeyGenError Xcikeypair) := do
  let out ← cryptoBoxKeypair P
  return .ok ⟨⟨out.Public, keyid P out.Public⟩, out.Private⟩

end X25519

namespace Ed25519

/-- `Ed25519::make_pair`. -/
def makePair : GcryptM (Except KeyGenError Edkeypair) := do
  let out ← cryptoBoxKeypair P
  return .ok out

end Ed25519

namespace Mlkem32

/-- `MLKEM_32::make_pair`. -/
def makePair : GcryptM (Except KeyGenError Qkeypair) := do
  match ← mlkimplKeypair P with
  | .ok out => return .ok out
  | .error _ => return .error .libraryError

/-- `MLKEM_32::make_id_pair`. The identifier is left value-initialised. -/
def makeIdPair : GcryptM (Except KeyGenError Qikeypair) := do
  match ← mlkimplKeypair P with
  | .ok out => return .ok ⟨⟨out.Public, 0⟩, out.Private⟩
  | .error _ => return .error .libraryError

end Mlkem32

/-! ### What one call does -/

/-- The box key pair the next call generates. -/
def nextBoxPair (w : World) : Xckeypair :=
  ⟨P.cryptoScalarmultCurve25519Base (w.peek 32), w.peek 32⟩

theorem cryptoBoxKeypair_apply (w : World) :
    cryptoBoxKeypair P w
      = .ok (nextBoxPair P w) ((w.skip 32).log (.boxKeypair (nextBoxPair P w))) := rfl

theorem X25519.makePair_apply (w : World) :
    X25519.makePair P w
      = .ok (.ok (nextBoxPair P w)) ((w.skip 32).log (.boxKeypair (nextBoxPair P w))) := rfl

/-- What the generators can return: the private half is any 32 bytes. -/
theorem isBoxPair_iff_makePair {pair : Xckeypair} :
    IsBoxPair P pair ↔ ∃ w w', X25519.makePair P w = .ok (.ok pair) w' := by
  constructor
  · intro h
    let w : World := ⟨none, fun i => pair.Private.byteAt i, []⟩
    have hpeek : w.peek 32 = pair.Private := by
      refine Key.ext (List.ext_getElem (by simp) ?_)
      intro i hi hi'
      simp [w, World.peek, Key.byteAt, List.getElem?_eq_getElem hi']
    have hpair : nextBoxPair P w = pair := by
      rw [nextBoxPair, hpeek, ← h]
    have hmake := X25519.makePair_apply P w
    rw [hpair] at hmake
    exact ⟨w, _, hmake⟩
  · rintro ⟨w, w', h⟩
    rw [X25519.makePair_apply] at h
    cases h
    rfl

theorem mlkimplKeypair_apply (w : World) :
    mlkimplKeypair P w = match P.mlkimplKeypair (w.peek 64) with
      | .ok pair => .ok (.ok pair) ((w.skip 64).log (.mlkemKeypair pair))
      | .error code => .ok (.error code) (w.skip 64) := by
  rw [mlkimplKeypair, bind_of_ok (randombytesBuf_apply 64 w)]
  cases P.mlkimplKeypair (w.peek 64) <;> rfl

theorem Mlkem32.makePair_of_ok {w : World} {pair : Qkeypair}
    (h : P.mlkimplKeypair (w.peek 64) = .ok pair) :
    Mlkem32.makePair P w = .ok (.ok pair) ((w.skip 64).log (.mlkemKeypair pair)) := by
  have hgen := mlkimplKeypair_apply P w
  rw [h] at hgen
  exact bind_of_ok hgen

theorem Mlkem32.makePair_of_error {w : World} {code : Int}
    (h : P.mlkimplKeypair (w.peek 64) = .error code) :
    Mlkem32.makePair P w = .ok (.error .libraryError) (w.skip 64) := by
  have hgen := mlkimplKeypair_apply P w
  rw [h] at hgen
  exact bind_of_ok hgen

end Gcrypt.Keygen
