import Mathlib.Algebra.Module.Defs
import Mathlib.Data.ZMod.Defs
import Gcrypt.Protocol

/-!
# Gcrypt.Primitives

What the library calls and does not contain: **libsodium** and **mlkem-native**.

`Primitives` has one field per foreign function the modelled code uses, under its
C name. A function that reports failure by its return code is partial here; one
whose return code the library ignores is total. Key generation and encapsulation
are deterministic functions of the bytes they draw, which is how both libraries
implement them on top of `randombytes`.

The model is generic in them. What a result relies on is stated as hypotheses:

* `ScalarLaws`: the documented arithmetic of `crypto_core_ed25519_scalar_*` modulo
  the group order, and of `sodium_compare`;
* `EdwardsGroup` and `CurveLaws`: the group behind the point encodings;
* `KeysAgree`/`KemAgrees`: two key pairs lead to one shared secret.
-/

namespace Gcrypt

/-- The field prime `2^255 - 19` of Curve25519. -/
def fieldPrime : Nat := 2 ^ 255 - 19

/-- The order `L` of the Ed25519 base point. -/
def groupOrder : Nat := 2 ^ 252 + 27742317777372353535851937790883648493

/-- The foreign functions the library calls. -/
structure Primitives where
  /-- `crypto_scalarmult_curve25519(q, n, p)`; it fails when the shared point is zero. -/
  cryptoScalarmultCurve25519 : Xckey → Xckey → Option Xckey
  /-- `crypto_scalarmult_curve25519_base(q, n)`, the public key `crypto_box_keypair` stores. -/
  cryptoScalarmultCurve25519Base : Xckey → Xckey
  /-- `crypto_scalarmult_ed25519_base_noclamp(q, n)`, return code ignored by the caller. -/
  cryptoScalarmultEd25519BaseNoclamp : Xckey → Xckey
  /-- `crypto_core_ed25519_scalar_reduce`. -/
  cryptoCoreEd25519ScalarReduce : Key 64 → Xckey
  /-- `crypto_core_ed25519_scalar_negate`. -/
  cryptoCoreEd25519ScalarNegate : Xckey → Xckey
  /-- `crypto_core_ed25519_scalar_add`. -/
  cryptoCoreEd25519ScalarAdd : Xckey → Xckey → Xckey
  /-- `crypto_core_ed25519_scalar_sub`. -/
  cryptoCoreEd25519ScalarSub : Xckey → Xckey → Xckey
  /-- `crypto_core_ed25519_scalar_mul`. -/
  cryptoCoreEd25519ScalarMul : Xckey → Xckey → Xckey
  /-- `crypto_core_ed25519_scalar_invert`; it fails on zero. -/
  cryptoCoreEd25519ScalarInvert : Xckey → Option Xckey
  /-- `crypto_core_ed25519_is_valid_point`. -/
  cryptoCoreEd25519IsValidPoint : Xckey → Bool
  /-- `sodium_compare`, on 32 bytes. -/
  sodiumCompare : Xckey → Xckey → Int
  /-- `crypto_hash_sha512`, also of a message fed in pieces. -/
  cryptoHashSha512 : List UInt8 → Key 64
  /-- `crypto_generichash` with a four-byte digest read as a `uint32_t`. -/
  cryptoGenerichash : List UInt8 → UInt32
  /-- `crypto_kdf_hkdf_sha256_extract(prk, salt, ikm)`. -/
  cryptoKdfHkdfSha256Extract : List UInt8 → List UInt8 → Option (Key 32)
  /-- `crypto_kdf_hkdf_sha256_expand(okm, okm_len, info, prk)`. -/
  cryptoKdfHkdfSha256Expand : (n : Nat) → List UInt8 → List UInt8 → Option (Key n)
  /-- `randombytes_uniform(bound)`, as a function of the word it draws. It may draw more than
  one, to reject what is uneven; that case is left out. -/
  randombytesUniform : UInt32 → Key 4 → UInt32
  /-- `mlkimpl_keypair`, as a function of the coins it draws; a failure has an exit code. -/
  mlkimplKeypair : Key 64 → Except Int Qkeypair
  /-- `mlkimpl_enc`, as a function of the public key and the coins it draws. -/
  mlkimplEnc : Qpubkey → Key 32 → Except Int (Key mlkemCtb × Key mlkemBytes)
  /-- `mlkimpl_dec`, as a function of the cipher text and the private key. -/
  mlkimplDec : Key mlkemCtb → Qprivkey → Except Int (Key mlkemBytes)

variable (P : Primitives)

/-! ### Scalar arithmetic -/

/-- The documented behaviour of the scalar functions and of `sodium_compare`. -/
structure ScalarLaws : Prop where
  compare (a b : Xckey) : P.sodiumCompare a b = -1 ↔ a.toNat < b.toNat
  reduce (h : Key 64) : (P.cryptoCoreEd25519ScalarReduce h).toNat = h.toNat % groupOrder
  negate (x : Xckey) : (P.cryptoCoreEd25519ScalarNegate x).toNat
    = (groupOrder - x.toNat % groupOrder) % groupOrder
  add (x y : Xckey) : (P.cryptoCoreEd25519ScalarAdd x y).toNat = (x.toNat + y.toNat) % groupOrder
  sub (x y : Xckey) : (P.cryptoCoreEd25519ScalarSub x y).toNat
    = (x.toNat + (groupOrder - y.toNat % groupOrder)) % groupOrder
  mul (x y : Xckey) : (P.cryptoCoreEd25519ScalarMul x y).toNat = x.toNat * y.toNat % groupOrder
  invert_eq_none (x : Xckey) : P.cryptoCoreEd25519ScalarInvert x = none ↔ x.toNat = 0
  invert_eq_some (x y : Xckey) : P.cryptoCoreEd25519ScalarInvert x = some y →
    x.toNat < groupOrder → x.toNat * y.toNat % groupOrder = 1

/-! ### The Edwards group -/

/-- The group of the Ed25519 curve as libsodium exposes it: points, the base point,
and their canonical 32-byte encodings. -/
structure EdwardsGroup where
  Point : Type
  [group : AddCommGroup Point]
  basepoint : Point
  encode : Point → Xckey

attribute [instance] EdwardsGroup.group

/-- What libsodium documents about curve arithmetic: `base_noclamp` encodes the
multiple of the base point, bit 255 of the scalar being ignored, and an X25519
public key is a canonical field element. -/
structure CurveLaws (E : EdwardsGroup) : Prop where
  base_noclamp (n : Xckey) :
    P.cryptoScalarmultEd25519BaseNoclamp n = E.encode ((n.toNat % 2 ^ 255) • E.basepoint)
  base_canonical (n : Xckey) : (P.cryptoScalarmultCurve25519Base n).toNat < fieldPrime

/-! ### Key agreement -/

/-- A pair as `crypto_box_keypair` makes it: the public half is the X25519 public
key of the private half. -/
def IsBoxPair (pair : Xckeypair) : Prop :=
  pair.Public = P.cryptoScalarmultCurve25519Base pair.Private

/-- X25519 commutes on the two pairs, where both sides deliver a secret. -/
def KeysAgree (a b : Xckeypair) : Prop :=
  ∀ k k', P.cryptoScalarmultCurve25519 a.Private b.Public = some k →
    P.cryptoScalarmultCurve25519 b.Private a.Public = some k' → k = k'

/-- Decapsulation recovers the secret encapsulated with `coins` to the pair's
public key, where it delivers one. -/
def KemAgrees (pair : Qkeypair) (coins : Key 32) : Prop :=
  ∀ ct ss ss', P.mlkimplEnc pair.Public coins = .ok (ct, ss) →
    P.mlkimplDec ct pair.Private = .ok ss' → ss = ss'

end Gcrypt
