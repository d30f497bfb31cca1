import Gcrypt.Library.Bytes

/-!
# Gcrypt.Reference.Hash

SHA-2, HMAC, HKDF and BLAKE2b on byte strings, with words as natural numbers below
a power of two: the hashing half of the reference instance of `Primitives`.
-/

namespace Gcrypt.Reference

/-- Rotate a `w`-bit word right. -/
def rotr (w x n : Nat) : Nat := x >>> n ||| (x <<< (w - n)) % 2 ^ w

/-- A number from its bytes, most significant first. -/
def ofBigEndian (bs : List UInt8) : Nat := bs.foldl (fun v b => v * 256 + b.toNat) 0

/-- The `n` low bytes of a number, most significant first. -/
def toBigEndian (n v : Nat) : List UInt8 := (Bytes.ofNat n v).reverse

/-- The first `n` chunks of `size` elements. -/
def chunks {α : Type} (size : Nat) : Nat → List α → List (List α)
  | 0, _ => []
  | n + 1, xs => xs.take size :: chunks size n (xs.drop size)

/-! ### SHA-2 -/

/-- The parameters of a member of the SHA-2 family. -/
structure Sha2 where
  wordBits : Nat
  /-- Rotations of `Σ₀`, `Σ₁`, and rotations and shift of `σ₀`, `σ₁`. -/
  bigSigma0 : Nat × Nat × Nat
  bigSigma1 : Nat × Nat × Nat
  smallSigma0 : Nat × Nat × Nat
  smallSigma1 : Nat × Nat × Nat
  constants : List Nat
  initial : List Nat

namespace Sha2

variable (H : Sha2)

def bigSigma (r : Nat × Nat × Nat) (x : Nat) : Nat :=
  rotr H.wordBits x r.1 ^^^ rotr H.wordBits x r.2.1 ^^^ rotr H.wordBits x r.2.2

def smallSigma (r : Nat × Nat × Nat) (x : Nat) : Nat :=
  rotr H.wordBits x r.1 ^^^ rotr H.wordBits x r.2.1 ^^^ x >>> r.2.2

/-- `n` further words of the message schedule, newest first. -/
def schedule : Nat → List Nat → List Nat
  | 0, w => w
  | n + 1, w =>
    schedule n ((H.smallSigma H.smallSigma1 (w.getD 1 0) + w.getD 6 0
      + H.smallSigma H.smallSigma0 (w.getD 14 0) + w.getD 15 0) % 2 ^ H.wordBits :: w)

def rounds : List Nat → List Nat → List Nat → List Nat
  | k :: ks, w :: ws, [a, b, c, d, e, f, g, h] =>
    let choice := (e &&& f) ^^^ ((2 ^ H.wordBits - 1 - e) &&& g)
    let majority := (a &&& b) ^^^ (a &&& c) ^^^ (b &&& c)
    let t1 := (h + H.bigSigma H.bigSigma1 e + choice + k + w) % 2 ^ H.wordBits
    let t2 := (H.bigSigma H.bigSigma0 a + majority) % 2 ^ H.wordBits
    rounds ks ws
      [(t1 + t2) % 2 ^ H.wordBits, a, b, c, (d + t1) % 2 ^ H.wordBits, e, f, g]
  | _, _, state => state

def compress (state : List Nat) (block : List UInt8) : List Nat :=
  let words := (chunks (H.wordBits / 8) 16 block).map ofBigEndian
  let w := (H.schedule (H.constants.length - 16) words.reverse).reverse
  List.zipWith (fun x y => (x + y) % 2 ^ H.wordBits) state (H.rounds H.constants w state)

/-- A one bit, zeros, and the length in bits, up to a multiple of `2 * wordBits` bytes. -/
def padded (m : List UInt8) : List UInt8 :=
  let block := 2 * H.wordBits
  let field := H.wordBits / 4
  m ++ [0x80] ++ List.replicate ((2 * block - 1 - field - m.length % block) % block) 0
    ++ toBigEndian field (8 * m.length)

def digest (m : List UInt8) : List UInt8 :=
  let bytes := H.padded m
  let blocks := chunks (2 * H.wordBits) (bytes.length / (2 * H.wordBits)) bytes
  (blocks.foldl H.compress H.initial).flatMap (toBigEndian (H.wordBits / 8))

end Sha2

def sha512 : Sha2 where
  wordBits := 64
  bigSigma0 := (28, 34, 39)
  bigSigma1 := (14, 18, 41)
  smallSigma0 := (1, 8, 7)
  smallSigma1 := (19, 61, 6)
  constants := [
    0x428a2f98d728ae22, 0x7137449123ef65cd, 0xb5c0fbcfec4d3b2f, 0xe9b5dba58189dbbc,
    0x3956c25bf348b538, 0x59f111f1b605d019, 0x923f82a4af194f9b, 0xab1c5ed5da6d8118,
    0xd807aa98a3030242, 0x12835b0145706fbe, 0x243185be4ee4b28c, 0x550c7dc3d5ffb4e2,
    0x72be5d74f27b896f, 0x80deb1fe3b1696b1, 0x9bdc06a725c71235, 0xc19bf174cf692694,
    0xe49b69c19ef14ad2, 0xefbe4786384f25e3, 0x0fc19dc68b8cd5b5, 0x240ca1cc77ac9c65,
    0x2de92c6f592b0275, 0x4a7484aa6ea6e483, 0x5cb0a9dcbd41fbd4, 0x76f988da831153b5,
    0x983e5152ee66dfab, 0xa831c66d2db43210, 0xb00327c898fb213f, 0xbf597fc7beef0ee4,
    0xc6e00bf33da88fc2, 0xd5a79147930aa725, 0x06ca6351e003826f, 0x142929670a0e6e70,
    0x27b70a8546d22ffc, 0x2e1b21385c26c926, 0x4d2c6dfc5ac42aed, 0x53380d139d95b3df,
    0x650a73548baf63de, 0x766a0abb3c77b2a8, 0x81c2c92e47edaee6, 0x92722c851482353b,
    0xa2bfe8a14cf10364, 0xa81a664bbc423001, 0xc24b8b70d0f89791, 0xc76c51a30654be30,
    0xd192e819d6ef5218, 0xd69906245565a910, 0xf40e35855771202a, 0x106aa07032bbd1b8,
    0x19a4c116b8d2d0c8, 0x1e376c085141ab53, 0x2748774cdf8eeb99, 0x34b0bcb5e19b48a8,
    0x391c0cb3c5c95a63, 0x4ed8aa4ae3418acb, 0x5b9cca4f7763e373, 0x682e6ff3d6b2b8a3,
    0x748f82ee5defb2fc, 0x78a5636f43172f60, 0x84c87814a1f0ab72, 0x8cc702081a6439ec,
    0x90befffa23631e28, 0xa4506cebde82bde9, 0xbef9a3f7b2c67915, 0xc67178f2e372532b,
    0xca273eceea26619c, 0xd186b8c721c0c207, 0xeada7dd6cde0eb1e, 0xf57d4f7fee6ed178,
    0x06f067aa72176fba, 0x0a637dc5a2c898a6, 0x113f9804bef90dae, 0x1b710b35131c471b,
    0x28db77f523047d84, 0x32caab7b40c72493, 0x3c9ebe0a15c9bebc, 0x431d67c49c100d4c,
    0x4cc5d4becb3e42b6, 0x597f299cfc657e2a, 0x5fcb6fab3ad6faec, 0x6c44198c4a475817]
  initial := [
    0x6a09e667f3bcc908, 0xbb67ae8584caa73b, 0x3c6ef372fe94f82b, 0xa54ff53a5f1d36f1,
    0x510e527fade682d1, 0x9b05688c2b3e6c1f, 0x1f83d9abfb41bd6b, 0x5be0cd19137e2179]

def sha256 : Sha2 where
  wordBits := 32
  bigSigma0 := (2, 13, 22)
  bigSigma1 := (6, 11, 25)
  smallSigma0 := (7, 18, 3)
  smallSigma1 := (17, 19, 10)
  constants := [
    0x428a2f98, 0x71374491, 0xb5c0fbcf, 0xe9b5dba5, 0x3956c25b, 0x59f111f1, 0x923f82a4, 0xab1c5ed5,
    0xd807aa98, 0x12835b01, 0x243185be, 0x550c7dc3, 0x72be5d74, 0x80deb1fe, 0x9bdc06a7, 0xc19bf174,
    0xe49b69c1, 0xefbe4786, 0x0fc19dc6, 0x240ca1cc, 0x2de92c6f, 0x4a7484aa, 0x5cb0a9dc, 0x76f988da,
    0x983e5152, 0xa831c66d, 0xb00327c8, 0xbf597fc7, 0xc6e00bf3, 0xd5a79147, 0x06ca6351, 0x14292967,
    0x27b70a85, 0x2e1b2138, 0x4d2c6dfc, 0x53380d13, 0x650a7354, 0x766a0abb, 0x81c2c92e, 0x92722c85,
    0xa2bfe8a1, 0xa81a664b, 0xc24b8b70, 0xc76c51a3, 0xd192e819, 0xd6990624, 0xf40e3585, 0x106aa070,
    0x19a4c116, 0x1e376c08, 0x2748774c, 0x34b0bcb5, 0x391c0cb3, 0x4ed8aa4a, 0x5b9cca4f, 0x682e6ff3,
    0x748f82ee, 0x78a5636f, 0x84c87814, 0x8cc70208, 0x90befffa, 0xa4506ceb, 0xbef9a3f7, 0xc67178f2]
  initial := [
    0x6a09e667, 0xbb67ae85, 0x3c6ef372, 0xa54ff53a, 0x510e527f, 0x9b05688c, 0x1f83d9ab, 0x5be0cd19]

/-! ### HMAC and HKDF over SHA-256 -/

/-- `HMAC-SHA-256`, for keys of at most one block. -/
def hmac (key m : List UInt8) : List UInt8 :=
  let block := key ++ List.replicate (64 - key.length) 0
  let inner := sha256.digest (block.map (· ^^^ 0x36) ++ m)
  sha256.digest (block.map (· ^^^ 0x5C) ++ inner)

/-- `n` further output blocks of `HKDF-Expand`, after the block `previous`. -/
def hkdfBlocks (prk info : List UInt8) : Nat → UInt8 → List UInt8 → List UInt8
  | 0, _, _ => []
  | n + 1, counter, previous =>
    let block := hmac prk (previous ++ info ++ [counter])
    block ++ hkdfBlocks prk info n (counter + 1) block

/-- `HKDF-Expand`, before truncation; there are at most 255 blocks. -/
def hkdfExpand (n : Nat) (info prk : List UInt8) : Option (List UInt8) :=
  if n ≤ 255 * 32 then some (hkdfBlocks prk info ((n + 31) / 32) 1 []) else none

/-! ### BLAKE2b -/

/-- Four words of the working vector at a time. -/
structure Rows where
  a : List Nat
  b : List Nat
  c : List Nat
  d : List Nat

def addRows : List Nat → List Nat → List Nat := List.zipWith fun x y => (x + y) % 2 ^ 64
def xorRotr (r : Nat) : List Nat → List Nat → List Nat :=
  List.zipWith fun x y => rotr 64 (x ^^^ y) r

/-- The mixing function on four columns, with two message words each. -/
def Rows.mix (v : Rows) (x y : List Nat) : Rows :=
  let a := addRows (addRows v.a v.b) x
  let d := xorRotr 32 v.d a
  let c := addRows v.c d
  let b := xorRotr 24 v.b c
  let a := addRows (addRows a b) y
  let d := xorRotr 16 d a
  let c := addRows c d
  ⟨a, xorRotr 63 b c, c, d⟩

/-- Rotate a row left. -/
def turn (n : Nat) (row : List Nat) : List Nat := row.drop n ++ row.take n

/-- One round: the columns, then the diagonals. -/
def Rows.round (m : List Nat) (v : Rows) (s : List Nat) : Rows :=
  let word (i : Nat) := m.getD (s.getD i 0) 0
  let v := v.mix [word 0, word 2, word 4, word 6] [word 1, word 3, word 5, word 7]
  let v : Rows := ⟨v.a, turn 1 v.b, turn 2 v.c, turn 3 v.d⟩
  let v := v.mix [word 8, word 10, word 12, word 14] [word 9, word 11, word 13, word 15]
  ⟨v.a, turn 3 v.b, turn 2 v.c, turn 1 v.d⟩

def blakeSchedule : List (List Nat) :=
  let s := [
    [0, 1, 2, 3, 4, 5, 6, 7, 8, 9, 10, 11, 12, 13, 14, 15],
    [14, 10, 4, 8, 9, 15, 13, 6, 1, 12, 0, 2, 11, 7, 5, 3],
    [11, 8, 12, 0, 5, 2, 15, 13, 10, 14, 3, 6, 7, 1, 9, 4],
    [7, 9, 3, 1, 13, 12, 11, 14, 2, 6, 5, 10, 4, 0, 15, 8],
    [9, 0, 5, 7, 2, 4, 10, 15, 14, 1, 11, 12, 6, 8, 3, 13],
    [2, 12, 6, 10, 0, 11, 8, 3, 4, 13, 7, 5, 15, 14, 1, 9],
    [12, 5, 1, 15, 14, 13, 4, 10, 0, 7, 6, 3, 9, 2, 8, 11],
    [13, 11, 7, 14, 12, 1, 3, 9, 5, 0, 15, 4, 8, 6, 2, 10],
    [6, 15, 14, 9, 11, 3, 0, 8, 12, 2, 13, 7, 1, 4, 10, 5],
    [10, 2, 8, 4, 7, 6, 1, 5, 15, 11, 9, 14, 3, 12, 13, 0]]
  s ++ s.take 2

/-- Compress one block, `t` bytes having been fed with it. -/
def blakeCompress (state : List Nat) (block : List UInt8) (t : Nat) (last : Bool) : List Nat :=
  let m := (chunks 8 16 block).map Bytes.toNat
  let iv := sha512.initial
  let d := List.zipWith (· ^^^ ·) (iv.drop 4) [t, 0, if last then 2 ^ 64 - 1 else 0, 0]
  let v := blakeSchedule.foldl (Rows.round m) ⟨state.take 4, state.drop 4, iv.take 4, d⟩
  List.zipWith (· ^^^ ·) state
    (List.zipWith (· ^^^ ·) v.a v.c ++ List.zipWith (· ^^^ ·) v.b v.d)

/-- Feed the `n` blocks in front of the last one, and then that one. -/
def blakeBlocks : Nat → Nat → List UInt8 → List Nat → List Nat
  | 0, t, m, state =>
    blakeCompress state (m ++ List.replicate (128 - m.length) 0) (t + m.length) true
  | n + 1, t, m, state =>
    blakeBlocks n (t + 128) (m.drop 128) (blakeCompress state (m.take 128) (t + 128) false)

/-- `BLAKE2b` without a key, with a digest of `size` bytes. -/
def blake2b (size : Nat) (m : List UInt8) : List UInt8 :=
  let first := List.zipWith (· ^^^ ·) sha512.initial [0x01010000 + size, 0, 0, 0, 0, 0, 0, 0]
  ((blakeBlocks ((m.length - 1) / 128) 0 m first).flatMap (Bytes.ofNat 8)).take size

example : (sha512.digest []).take 4 = [0xcf, 0x83, 0xe1, 0x35] := by decide +kernel

end Gcrypt.Reference
