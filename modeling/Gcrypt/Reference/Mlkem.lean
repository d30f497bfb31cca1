import Mathlib.Data.Nat.ModEq
import Mathlib.Tactic.Positivity
import Gcrypt.Reference.Hash

/-!
# Gcrypt.Reference.Mlkem

ML-KEM-1024 on natural numbers: the KEM of the reference instance of `Primitives`.

Byte strings are numbers, least significant byte first, and a Keccak state is one
number of 1600 bits, so that a step of the permutation is a few operations on large
numbers. Polynomials are lists of 256 coefficients below `kemPrime`.
-/

namespace Gcrypt.Reference

/-- The `n` low digits of a number in base `2 ^ w`, least significant first. -/
def digits (w : Nat) : Nat → Nat → List Nat
  | 0, _ => []
  | n + 1, x => x % 2 ^ w :: digits w n (x / 2 ^ w)

/-- The number with given digits in base `2 ^ w`. -/
def ofDigits (w : Nat) : List Nat → Nat
  | [] => 0
  | x :: xs => x + 2 ^ w * ofDigits w xs

/-! ### Keccak

Lane `x + 5 y` occupies the 64 bits from `64 (x + 5 y)` on, so a row is 320 bits. -/

def roundConstants : List Nat := [
  0x0000000000000001, 0x0000000000008082, 0x800000000000808a, 0x8000000080008000,
  0x000000000000808b, 0x0000000080000001, 0x8000000080008081, 0x8000000000008009,
  0x000000000000008a, 0x0000000000000088, 0x0000000080008009, 0x000000008000000a,
  0x000000008000808b, 0x800000000000008b, 0x8000000000008089, 0x8000000000008003,
  0x8000000000008002, 0x8000000000000080, 0x000000000000800a, 0x800000008000000a,
  0x8000000080008081, 0x8000000000008080, 0x0000000080000001, 0x8000000080008008]

/-- The lane that `ρ` and `π` bring to each position, and its rotation. -/
def rhoPi : List (Nat × Nat) := [
  (0, 0), (6, 44), (12, 43), (18, 21), (24, 14),
  (3, 28), (9, 20), (10, 3), (16, 45), (22, 61),
  (1, 1), (7, 6), (13, 25), (19, 8), (20, 18),
  (4, 27), (5, 36), (11, 10), (17, 15), (23, 56),
  (2, 62), (8, 55), (14, 39), (15, 41), (21, 2)]

/-- A one in each lane of a row, and in each row of a state. -/
def laneOnes : Nat := 1 + 2 ^ 64 + 2 ^ 128 + 2 ^ 192 + 2 ^ 256
def rowOnes : Nat := 1 + 2 ^ 320 + 2 ^ 640 + 2 ^ 960 + 2 ^ 1280

def lane (s i : Nat) : Nat := (s >>> (64 * i)) % 2 ^ 64
def rotl (x n : Nat) : Nat := (x <<< n) % 2 ^ 64 ||| x >>> (64 - n)

/-- Every lane of a row rotated left by one bit. -/
def rotRow (c : Nat) : Nat :=
  ((c <<< 1) &&& ((2 ^ 64 - 2) * laneOnes)) ||| ((c >>> 63) &&& laneOnes)

def theta (s : Nat) : Nat :=
  let c := (s ^^^ s >>> 320 ^^^ s >>> 640 ^^^ s >>> 960 ^^^ s >>> 1280) % 2 ^ 320
  let left := (c <<< 64) % 2 ^ 320 ||| c >>> 256
  let right := c >>> 64 ||| (c <<< 256) % 2 ^ 320
  s ^^^ ((left ^^^ rotRow right) * rowOnes)

def permute (s : Nat) : List (Nat × Nat) → Nat
  | [] => 0
  | (i, r) :: rest => rotl (lane s i) r + 2 ^ 64 * permute s rest

/-- The lanes of every row turned by `n` positions. -/
def turnRows (s n : Nat) : Nat :=
  ((s >>> (64 * n)) &&& ((2 ^ (64 * (5 - n)) - 1) * rowOnes))
    ||| ((s &&& ((2 ^ (64 * n) - 1) * rowOnes)) <<< (64 * (5 - n)))

def chi (s : Nat) : Nat := s ^^^ ((2 ^ 1600 - 1 - turnRows s 1) &&& turnRows s 2)

def keccakRound (s k : Nat) : Nat := chi (permute (theta s) rhoPi) ^^^ k

def keccakF (s : Nat) : Nat := roundConstants.foldl keccakRound s

/-- Absorb `n` blocks of `rate` bytes. -/
def absorb (rate : Nat) : Nat → Nat → Nat → Nat
  | 0, _, s => s
  | n + 1, m, s => absorb rate n (m / 2 ^ (8 * rate)) (keccakF (s ^^^ m % 2 ^ (8 * rate)))

/-- The state after a padded message of `size` bytes. -/
def sponge (rate suffix size m : Nat) : Nat :=
  let blocks := size / rate + 1
  absorb rate blocks (m + suffix * 2 ^ (8 * size) + 2 ^ (8 * rate * blocks - 1)) 0

def sha3_512 (size m : Nat) : Nat := sponge 72 0x06 size m % 2 ^ 512
def sha3_256 (size m : Nat) : Nat := sponge 136 0x06 size m % 2 ^ 256

/-- `SHAKE256`, for an output of at most one block. -/
def shake256 (out size m : Nat) : Nat := sponge 136 0x1F size m % 2 ^ (8 * out)

/-- The 12-bit digits of `n` blocks of `SHAKE128` output. -/
def shake128Digits : Nat → Nat → List Nat
  | 0, _ => []
  | n + 1, s => digits 12 112 s ++ shake128Digits n (keccakF s)

/-! ### Polynomials -/

def kemPrime : Nat := 3329

def bitReverse : Nat → Nat → Nat
  | 0, _ => 0
  | n + 1, i => i % 2 * 2 ^ n + bitReverse n (i / 2)

def zeta (i : Nat) : Nat := 17 ^ bitReverse 7 i % kemPrime

def addPoly : List Nat → List Nat → List Nat := List.zipWith fun a b => (a + b) % kemPrime
def subPoly : List Nat → List Nat → List Nat :=
  List.zipWith fun a b => (a + (kemPrime - b)) % kemPrime
def scale (c : Nat) (f : List Nat) : List Nat := f.map fun x => c * x % kemPrime

/-- The butterflies below node `i` of the tree, on `2 ^ (d + 1)` coefficients. -/
def nttFrom : Nat → Nat → List Nat → List Nat
  | 0, _, f => f
  | d + 1, i, f =>
    let lo := f.take (2 ^ (d + 1))
    let hi := scale (zeta i) (f.drop (2 ^ (d + 1)))
    nttFrom d (2 * i) (addPoly lo hi) ++ nttFrom d (2 * i + 1) (subPoly lo hi)

def inverseNttFrom : Nat → Nat → List Nat → List Nat
  | 0, _, f => f
  | d + 1, i, f =>
    let lo := inverseNttFrom d (2 * i) (f.take (2 ^ (d + 1)))
    let hi := inverseNttFrom d (2 * i + 1) (f.drop (2 ^ (d + 1)))
    -- The zetas run backwards through the level of the tree.
    addPoly lo hi ++ scale (zeta (3 * 2 ^ (6 - d) - 1 - i)) (subPoly hi lo)

def ntt (f : List Nat) : List Nat := nttFrom 7 1 f
def inverseNtt (f : List Nat) : List Nat := scale 3303 (inverseNttFrom 7 1 f)

/-- Products modulo `X ^ 2 - ζ ^ (2 bitReverse i + 1)`, for the `i`-th pairs on. -/
def mulFrom : Nat → List Nat → List Nat → List Nat
  | i, a₀ :: a₁ :: f, b₀ :: b₁ :: g =>
    let gamma := 17 ^ (2 * bitReverse 7 i + 1) % kemPrime
    (a₀ * b₀ + a₁ * b₁ % kemPrime * gamma) % kemPrime :: (a₀ * b₁ + a₁ * b₀) % kemPrime
      :: mulFrom (i + 1) f g
  | _, _, _ => []

def dotPoly (u v : List (List Nat)) : List Nat :=
  (List.zipWith (mulFrom 0) u v).foldl addPoly (List.replicate 256 0)

/-- The matrix entry `(i, j)`, by rejection. -/
def sampleNtt (rho i j : Nat) : List Nat :=
  let s := sponge 168 0x1F 34 (rho + 2 ^ 256 * (j + 256 * i))
  ((shake128Digits 8 s).filter (· < kemPrime)).take 256

/-- The `i`-th noise polynomial, centred binomial with parameter 2. -/
def noise (seed i : Nat) : List Nat :=
  (digits 4 256 (shake256 128 33 (seed + 2 ^ 256 * i))).map fun b =>
    (b % 2 + b / 2 % 2 + (kemPrime - b / 4 % 2) + (kemPrime - b / 8)) % kemPrime

def compress (d x : Nat) : Nat := (x * 2 ^ (d + 1) + kemPrime) / (2 * kemPrime) % 2 ^ d
def decompress (d y : Nat) : Nat := (kemPrime * y * 2 + 2 ^ d) / 2 ^ (d + 1)

/-! ### The encryption scheme -/

def vec (f : Nat → List Nat) : List (List Nat) := (List.range 4).map f

def pkeKeypair (seed : Nat) : Nat × Nat :=
  let g := sha3_512 33 (seed + 2 ^ 256 * 4)
  let rho := g % 2 ^ 256
  let sigma := g / 2 ^ 256
  let s := vec fun i => ntt (noise sigma i)
  let t := vec fun i => addPoly (dotPoly (vec (sampleNtt rho i)) s) (ntt (noise sigma (4 + i)))
  (ofDigits 12 t.flatten + 2 ^ (8 * 1536) * rho, ofDigits 12 s.flatten)

def pkeEncrypt (ek m coins : Nat) : Nat :=
  let t := chunks 256 4 (digits 12 1024 ek)
  let rho := ek / 2 ^ (8 * 1536)
  let y := vec fun i => ntt (noise coins i)
  let u := vec fun i =>
    addPoly (inverseNtt (dotPoly (vec fun j => sampleNtt rho j i) y)) (noise coins (4 + i))
  let v := addPoly (addPoly (inverseNtt (dotPoly t y)) (noise coins 8))
    ((digits 1 256 m).map (decompress 1))
  ofDigits 11 (u.flatten.map (compress 11)) + 2 ^ (11 * 1024) * ofDigits 5 (v.map (compress 5))

def pkeDecrypt (dk c : Nat) : Nat :=
  let u := chunks 256 4 ((digits 11 1024 c).map (decompress 11))
  let v := (digits 5 256 (c / 2 ^ (11 * 1024))).map (decompress 5)
  let s := chunks 256 4 (digits 12 1024 dk)
  ofDigits 1 ((subPoly v (inverseNtt (dotPoly s (u.map ntt)))).map (compress 1))

/-! ### The KEM -/

/-- Encapsulation and decapsulation key, from the two seeds. -/
def kemKeypair (d z : Nat) : Nat × Nat :=
  let (ek, dk) := pkeKeypair d
  (ek, dk + 2 ^ (8 * 1536) * (ek + 2 ^ (8 * 1568) * (sha3_256 1568 ek + 2 ^ 256 * z)))

/-- The private keys of two seeds that differ in the second half differ in 3168 bytes. -/
theorem kemKeypair_private_inj {d z z' : Nat} (hz : z < 2 ^ 256) (hz' : z' < 2 ^ 256)
    (h : (kemKeypair d z).2 ≡ (kemKeypair d z').2 [MOD 256 ^ 3168]) : z = z' := by
  -- The second half fills the last 32 bytes.
  have hbyte : (2 : Nat) ^ 8 = 256 := rfl
  have hlast (x : Nat) : (kemKeypair d x).2
      = (kemKeypair d 0).2 + 256 ^ (1536 + 1568) * (2 ^ 256 * x) := by
    simp only [pow_add, kemKeypair, pow_mul, hbyte]
    generalize 256 ^ 1536 = a
    generalize 256 ^ 1568 = b
    ring
  have hsize : 256 ^ 3168 = 256 ^ (1536 + 1568) * (2 ^ 256 * 2 ^ 256) := by
    rw [show (2 : Nat) ^ 256 = 256 ^ 32 from rfl, ← pow_add, ← pow_add]
  rw [hlast z, hlast z', hsize] at h
  have hmul : 2 ^ 256 * z ≡ 2 ^ 256 * z' [MOD 2 ^ 256 * 2 ^ 256] :=
    Nat.ModEq.mul_left_cancel' (by positivity) (Nat.ModEq.add_left_cancel' _ h)
  exact (Nat.ModEq.mul_left_cancel' (by positivity) hmul).eq_of_lt_of_lt hz hz'

/-- The check of an encapsulation key: every coefficient is reduced. -/
def kemCheck (ek : Nat) : Bool := (digits 12 1024 ek).all (· < kemPrime)

/-- Cipher text and shared secret. -/
def kemEncapsulate (ek m : Nat) : Nat × Nat :=
  let g := sha3_512 64 (m + 2 ^ 256 * sha3_256 1568 ek)
  (pkeEncrypt ek m (g / 2 ^ 256), g % 2 ^ 256)

/-- The shared secret; none if the key does not contain the hash of its public half. -/
def kemDecapsulate (dk c : Nat) : Option Nat :=
  let ek := dk / 2 ^ (8 * 1536) % 2 ^ (8 * 1568)
  let h := dk / 2 ^ (8 * 3104) % 2 ^ 256
  let z := dk / 2 ^ (8 * 3136)
  if sha3_256 1568 ek = h then
    let m := pkeDecrypt (dk % 2 ^ (8 * 1536)) c
    let g := sha3_512 64 (m + 2 ^ 256 * h)
    if pkeEncrypt ek m (g / 2 ^ 256) = c then some (g % 2 ^ 256)
    else some (shake256 32 1600 (z + 2 ^ 256 * c))
  else
    none

theorem sha3_256_lt (size m : Nat) : sha3_256 size m < 2 ^ 256 := Nat.mod_lt _ (by decide)

theorem add_mul_two_pow_lt {a b n k : Nat} (ha : a < 2 ^ n) (hb : b < 2 ^ k) :
    a + 2 ^ n * b < 2 ^ (n + k) := by
  calc a + 2 ^ n * b < 2 ^ n * (b + 1) := by rw [Nat.mul_succ]; omega
    _ ≤ 2 ^ n * 2 ^ k := Nat.mul_le_mul_left _ hb
    _ = 2 ^ (n + k) := (pow_add 2 n k).symm

theorem pow_bytes (n : Nat) : 256 ^ n = 2 ^ (8 * n) := (pow_mul 2 8 n).symm

/-- The private key fits its format. -/
theorem kemKeypair_private_lt {d z : Nat} (hdk : (pkeKeypair d).2 < 2 ^ (8 * 1536))
    (hek : (pkeKeypair d).1 < 2 ^ (8 * 1568)) (hz : z < 2 ^ 256) :
    (kemKeypair d z).2 < 256 ^ 3168 := by
  have hhash : sha3_256 1568 (pkeKeypair d).1 < 2 ^ 256 := sha3_256_lt _ _
  have hsize : 8 * 3168 = 8 * 1536 + (8 * 1568 + (256 + 256)) := rfl
  rw [pow_bytes, hsize]
  simp only [kemKeypair]
  generalize sha3_256 1568 (pkeKeypair d).1 = h at hhash ⊢
  generalize (pkeKeypair d).1 = ek at hek ⊢
  generalize (pkeKeypair d).2 = dk at hdk ⊢
  exact add_mul_two_pow_lt hdk (add_mul_two_pow_lt hek (add_mul_two_pow_lt hhash hz))

/-- The private key, taken apart. -/
theorem kemKeypair_private {d z : Nat} (hdk : (pkeKeypair d).2 < 2 ^ (8 * 1536))
    (hek : (pkeKeypair d).1 < 2 ^ (8 * 1568)) :
    (kemKeypair d z).2 % 2 ^ (8 * 1536) = (pkeKeypair d).2 ∧
      (kemKeypair d z).2 / 2 ^ (8 * 1536) % 2 ^ (8 * 1568) = (pkeKeypair d).1 ∧
      (kemKeypair d z).2 / 2 ^ (8 * 3104) % 2 ^ 256 = sha3_256 1568 (pkeKeypair d).1 := by
  have hpos (n : Nat) : 0 < 2 ^ n := Nat.two_pow_pos n
  have hsplit : (2 : Nat) ^ (8 * 3104) = 2 ^ (8 * 1536) * 2 ^ (8 * 1568) := by rw [← pow_add]
  have hfirst : (kemKeypair d z).2 / 2 ^ (8 * 1536) = (pkeKeypair d).1
      + 2 ^ (8 * 1568) * (sha3_256 1568 (pkeKeypair d).1 + 2 ^ 256 * z) := by
    simp only [kemKeypair]
    rw [Nat.add_mul_div_left _ _ (hpos _), Nat.div_eq_of_lt hdk, Nat.zero_add]
  refine ⟨?_, ?_, ?_⟩
  · simp only [kemKeypair]
    rw [Nat.add_mul_mod_self_left, Nat.mod_eq_of_lt hdk]
  · rw [hfirst, Nat.add_mul_mod_self_left, Nat.mod_eq_of_lt hek]
  · rw [hsplit, ← Nat.div_div_eq_div_mul, hfirst, Nat.add_mul_div_left _ _ (hpos _),
      Nat.div_eq_of_lt hek, Nat.zero_add, Nat.add_mul_mod_self_left,
      Nat.mod_eq_of_lt (sha3_256_lt _ _)]

/-- Where decryption gives the message back, so does decapsulation the secret: the
checks compare what is computed in the same way on both sides. -/
theorem kemDecapsulate_of_decrypt {d z m : Nat} (hdk : (pkeKeypair d).2 < 2 ^ (8 * 1536))
    (hek : (pkeKeypair d).1 < 2 ^ (8 * 1568))
    (hm : pkeDecrypt (pkeKeypair d).2 (kemEncapsulate (pkeKeypair d).1 m).1 = m) :
    kemDecapsulate (kemKeypair d z).2 (kemEncapsulate (pkeKeypair d).1 m).1
      = some (kemEncapsulate (pkeKeypair d).1 m).2 := by
  obtain ⟨hlow, hpub, hhash⟩ := kemKeypair_private (z := z) hdk hek
  simp only [kemDecapsulate]
  rw [hlow, hpub, hhash, if_pos rfl, hm]
  exact if_pos rfl

end Gcrypt.Reference
