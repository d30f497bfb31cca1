import Mathlib.Data.ZMod.Basic
import Gcrypt.Reference.Curve25519
import Gcrypt.Reference.Mlkem

/-!
# Gcrypt.Reference.Instance

The reference instance of `Primitives`, and that it obeys the documented laws.

The Edwards group of the instance is the prime-order subgroup, as the multiples of
the base point (`edwards`); its encodings are those of the actual curve points.
-/

namespace Gcrypt.Reference

open Modular

/-- A number modulo the group order, as a scalar. -/
def scalar (v : Nat) : Xckey := Key.ofNat 32 (v % groupOrder)

theorem scalar_toNat (v : Nat) : (scalar v).toNat = v % groupOrder :=
  Key.toNat_ofNat_of_lt ((Nat.mod_lt _ (by decide)).trans (by decide))

/-- `n` bytes, cut off or filled up with zeros. -/
def toKey (n : Nat) (bs : List UInt8) : Key n :=
  ⟨(bs ++ List.replicate n 0).take n, by simp⟩

/-- How mlkem-native reports a missing result. -/
def exitCode {α : Type} : Option α → Except Int α
  | some a => .ok a
  | none => .error (-1)

/-- What libsodium and mlkem-native compute. -/
def primitives : Primitives where
  cryptoScalarmultCurve25519 n p :=
    if x25519 n.toNat p.toNat = 0 then none else some (Key.ofNat 32 (x25519 n.toNat p.toNat))
  cryptoScalarmultCurve25519Base n := Key.ofNat 32 (x25519 n.toNat 9)
  cryptoScalarmultEd25519BaseNoclamp n :=
    -- The base point has order `groupOrder`.
    Key.ofNat 32 (encodeMultiple (n.toNat % 2 ^ 255 % groupOrder))
  cryptoCoreEd25519ScalarReduce h := scalar h.toNat
  cryptoCoreEd25519ScalarNegate x := scalar (groupOrder - x.toNat % groupOrder)
  cryptoCoreEd25519ScalarAdd x y := scalar (x.toNat + y.toNat)
  cryptoCoreEd25519ScalarSub x y := scalar (x.toNat + (groupOrder - y.toNat % groupOrder))
  cryptoCoreEd25519ScalarMul x y := scalar (x.toNat * y.toNat)
  cryptoCoreEd25519ScalarInvert x :=
    if x.toNat = 0 then none
    else some (scalar (powMod groupOrder 253 (x.toNat % groupOrder) (groupOrder - 2)))
  cryptoCoreEd25519IsValidPoint p := isValidPoint p.toNat
  sodiumCompare a b := if a.toNat < b.toNat then -1 else if a.toNat = b.toNat then 0 else 1
  cryptoHashSha512 m := toKey 64 (sha512.digest m)
  cryptoGenerichash m := UInt32.ofNat (Bytes.toNat (blake2b 4 m))
  cryptoKdfHkdfSha256Extract salt ikm := some (toKey 32 (hmac salt ikm))
  cryptoKdfHkdfSha256Expand n info prk := (hkdfExpand n info prk).map (toKey n)
  randombytesUniform bound word := if bound = 0 then 0 else UInt32.ofNat word.toNat % bound
  mlkimplKeypair coins :=
    let pair := kemKeypair (coins.toNat % 2 ^ 256) (coins.toNat / 2 ^ 256)
    .ok ⟨Key.ofNat mlkemPkb pair.1, Key.ofNat mlkemSkb pair.2⟩
  mlkimplEnc pk coins :=
    if kemCheck pk.toNat then
      let kem := kemEncapsulate pk.toNat coins.toNat
      .ok (Key.ofNat mlkemCtb kem.1, Key.ofNat mlkemBytes kem.2)
    else .error (-1)
  mlkimplDec ct sk :=
    exitCode ((kemDecapsulate sk.toNat ct.toNat).map (Key.ofNat mlkemBytes))

/-- Scalar arithmetic is arithmetic modulo the group order. -/
theorem scalarLaws : ScalarLaws primitives where
  compare a b := by
    simp only [primitives]
    by_cases hlt : a.toNat < b.toNat
    · simp [hlt]
    · by_cases heq : a.toNat = b.toNat <;> simp [hlt, heq]
  reduce h := scalar_toNat _
  negate x := scalar_toNat _
  add x y := scalar_toNat _
  sub x y := scalar_toNat _
  mul x y := scalar_toNat _
  invert_eq_none x := by
    simp only [primitives]
    by_cases hx : x.toNat = 0 <;> simp [hx]
  invert_eq_some x y hxy hlt := by
    simp only [primitives] at hxy
    by_cases hx : x.toNat = 0
    · simp [hx] at hxy
    · rw [if_neg hx, Option.some.injEq] at hxy
      rw [← hxy, scalar_toNat, Nat.mod_eq_of_lt hlt, Nat.mul_mod_mod]
      exact mul_powMod_sub_two groupOrder_prime (by decide) (by decide)
        (by rwa [Nat.mod_eq_of_lt hlt])

/-- The multiples of the base point, with the encodings of the curve points. -/
def edwards : EdwardsGroup where
  Point := ZMod groupOrder
  basepoint := 1
  encode k := Key.ofNat 32 (encodeMultiple k.val)

/-- `k B`. -/
def multiple (k : Nat) : edwards.Point := (k : ZMod groupOrder)

theorem nsmul_basepoint (k : Nat) : k • edwards.basepoint = multiple k :=
  nsmul_one (A := ZMod groupOrder) k

theorem encode_multiple (k : Nat) :
    edwards.encode (multiple k) = Key.ofNat 32 (encodeMultiple (k % groupOrder)) := by
  show Key.ofNat 32 (encodeMultiple (k : ZMod groupOrder).val) = _
  rw [ZMod.val_natCast]

theorem sub_multiple (s h a : Nat) :
    s • edwards.basepoint - h • multiple a
      = multiple (s + h * (groupOrder - a % groupOrder)) := by
  have hle : a % groupOrder ≤ groupOrder := (Nat.mod_lt _ (by decide)).le
  show s • (1 : ZMod groupOrder) - h • (a : ZMod groupOrder)
    = ((s + h * (groupOrder - a % groupOrder) : Nat) : ZMod groupOrder)
  rw [Nat.cast_add, Nat.cast_mul, Nat.cast_sub hle, ZMod.natCast_mod, ZMod.natCast_self,
    nsmul_eq_mul, nsmul_eq_mul]
  ring

theorem curveLaws : CurveLaws primitives edwards where
  base_noclamp n := by
    have hmul : ((n.toNat % 2 ^ 255) • (1 : ZMod groupOrder)).val
        = n.toNat % 2 ^ 255 % groupOrder := by
      rw [nsmul_eq_mul, mul_one, ZMod.val_natCast]
    show Key.ofNat 32 (encodeMultiple _) = Key.ofNat 32 (encodeMultiple _)
    rw [← hmul]
    rfl
  base_canonical n := by
    have hlt : x25519 n.toNat 9 < fieldPrime := Nat.mod_lt _ (by decide)
    show (Key.ofNat 32 (x25519 n.toNat 9)).toNat < fieldPrime
    rw [Key.toNat_ofNat_of_lt (hlt.trans (by decide))]
    exact hlt

/-! ### The KEM -/

theorem mlkimplEnc_of_check {pk : Qpubkey} {coins : Key 32} (h : kemCheck pk.toNat = true) :
    primitives.mlkimplEnc pk coins
      = .ok (Key.ofNat mlkemCtb (kemEncapsulate pk.toNat coins.toNat).1,
          Key.ofNat mlkemBytes (kemEncapsulate pk.toNat coins.toNat).2) := by
  simp only [primitives, h, if_true]

theorem mlkimplDec_of_some {ct : Key mlkemCtb} {sk : Qprivkey} {ss : Nat}
    (h : kemDecapsulate sk.toNat ct.toNat = some ss) :
    primitives.mlkimplDec ct sk = .ok (Key.ofNat mlkemBytes ss) := by
  simp only [primitives, h]
  rfl

theorem mlkimplDec_of_none {ct : Key mlkemCtb} {sk : Qprivkey}
    (h : kemDecapsulate sk.toNat ct.toNat = none) :
    primitives.mlkimplDec ct sk = .error (-1) := by
  simp only [primitives, h]
  rfl

/-- Coins that differ in their second half only make different pairs. -/
theorem mlkimplKeypair_ne {coins coins' : Key 64} {pair pair' : Qkeypair}
    (h : primitives.mlkimplKeypair coins = .ok pair)
    (h' : primitives.mlkimplKeypair coins' = .ok pair')
    (hd : coins.toNat % 2 ^ 256 = coins'.toNat % 2 ^ 256)
    (hz : coins.toNat / 2 ^ 256 ≠ coins'.toNat / 2 ^ 256) : pair ≠ pair' := by
  rintro rfl
  have hhalf (c : Key 64) : c.toNat / 2 ^ 256 < 2 ^ 256 :=
    Nat.div_lt_of_lt_mul (c.toNat_lt.trans_eq (by decide))
  simp only [primitives, Except.ok.injEq] at h h'
  have hpriv := congrArg (fun p : Qkeypair => p.Private.toNat) (h.trans h'.symm)
  dsimp only at hpriv
  rw [Key.toNat_ofNat, Key.toNat_ofNat, hd, show mlkemSkb = 3168 from rfl] at hpriv
  exact hz (kemKeypair_private_inj (hhalf coins) (hhalf coins') hpriv)

/-- Encapsulation and decapsulation fit together where the encryption scheme works and its
numbers have the sizes of the formats. -/
theorem roundtrip_of_decrypt {pk : Qpubkey} {sk : Qprivkey} {coins : Key 32} {d z : Nat}
    (hpk : pk.toNat = (pkeKeypair d).1) (hsk : sk.toNat = (kemKeypair d z).2)
    (hcheck : kemCheck (pkeKeypair d).1 = true) (hdk : (pkeKeypair d).2 < 2 ^ (8 * 1536))
    (hek : (pkeKeypair d).1 < 2 ^ (8 * 1568))
    (hct : (kemEncapsulate (pkeKeypair d).1 coins.toNat).1 < 256 ^ mlkemCtb)
    (hm : pkeDecrypt (pkeKeypair d).2 (kemEncapsulate (pkeKeypair d).1 coins.toNat).1
      = coins.toNat) :
    ∃ ct ss, primitives.mlkimplEnc pk coins = .ok (ct, ss) ∧
      primitives.mlkimplDec ct sk = .ok ss := by
  have hkey : kemCheck pk.toNat = true := by
    rw [hpk]
    exact hcheck
  have hsome : kemDecapsulate sk.toNat
      (Key.ofNat mlkemCtb (kemEncapsulate pk.toNat coins.toNat).1).toNat
        = some (kemEncapsulate pk.toNat coins.toNat).2 := by
    rw [hpk, hsk, Key.toNat_ofNat_of_lt hct]
    exact kemDecapsulate_of_decrypt hdk hek hm
  exact ⟨_, _, mlkimplEnc_of_check hkey, mlkimplDec_of_some hsome⟩

/-- The all-zero private key does not contain the hash of its public half. -/
theorem mlkimplDec_zero : primitives.mlkimplDec Key.zero Key.zero = .error (-1) := by
  refine mlkimplDec_of_none ?_
  rw [Key.toNat_zero, Key.toNat_zero]
  decide +kernel

/-! ### A known answer

The KEM pair of the zero seeds, and the encapsulation with zero coins. -/

def zeroSeedPair : Qkeypair :=
  ⟨Key.ofNat mlkemPkb (kemKeypair 0 0).1, Key.ofNat mlkemSkb (kemKeypair 0 0).2⟩

theorem mlkimplKeypair_zero : primitives.mlkimplKeypair Key.zero = .ok zeroSeedPair := by
  simp only [primitives, Key.toNat_zero]
  rfl

/-- The encryption scheme, run once by the kernel: numbers only, so that no list of 3168 bytes
is ever built, and the public key hashed in blocks of 32 bytes. -/
private theorem pke_zero :
    kemCheck (pkeKeypair 0).1 = true ∧ (pkeKeypair 0).2 < 2 ^ (8 * 1536) ∧
      (pkeKeypair 0).1 < 2 ^ (8 * 1568) ∧
      (kemEncapsulate (pkeKeypair 0).1 (Key.zero : Key 32).toNat).1 < 256 ^ mlkemCtb ∧
      pkeDecrypt (pkeKeypair 0).2 (kemEncapsulate (pkeKeypair 0).1 (Key.zero : Key 32).toNat).1
        = (Key.zero : Key 32).toNat ∧
      UInt32.ofNat (Bytes.toNat (blake2b 4 ((List.range 49).flatMap fun j =>
        Bytes.ofNat 32 ((pkeKeypair 0).1 / 256 ^ (j * 32))))) ≠ 0 := by
  decide +kernel

/-- What is encapsulated to the pair comes back. -/
theorem zeroSeedPair_roundtrip : ∃ ct ss,
    primitives.mlkimplEnc zeroSeedPair.Public Key.zero = .ok (ct, ss) ∧
      primitives.mlkimplDec ct zeroSeedPair.Private = .ok ss := by
  obtain ⟨hcheck, hdk, hek, hct, hm, -⟩ := pke_zero
  have hpk : zeroSeedPair.Public.toNat = (pkeKeypair 0).1 := by
    refine Key.toNat_ofNat_of_lt ?_
    rw [pow_bytes, show mlkemPkb = 1568 from rfl]
    exact hek
  have hsk : zeroSeedPair.Private.toNat = (kemKeypair 0 0).2 := by
    refine Key.toNat_ofNat_of_lt ?_
    rw [show mlkemSkb = 3168 from rfl]
    exact kemKeypair_private_lt hdk hek (by decide)
  exact roundtrip_of_decrypt hpk hsk hcheck hdk hek hct hm

/-- The public key of the pair does not hash to zero. Byte by byte the kernel would divide a
number of 1568 bytes each time, hence the blocks. -/
theorem zeroSeedPair_hash : primitives.cryptoGenerichash zeroSeedPair.Public.bytes ≠ 0 := by
  have hbytes : zeroSeedPair.Public.bytes = Bytes.ofNat (49 * 32) (pkeKeypair 0).1 := by
    simp only [zeroSeedPair, kemKeypair]
    rfl
  obtain ⟨-, -, -, -, -, hhash⟩ := pke_zero
  rw [hbytes, Bytes.ofNat_mul]
  exact hhash

end Gcrypt.Reference
