import Mathlib.Tactic.NormNum.Prime
import Gcrypt.Library.Modular
import Gcrypt.Primitives

/-!
# Gcrypt.Reference.Curve25519

Curve25519 as arithmetic on natural numbers: the X25519 ladder, the Edwards group in
extended coordinates, point encodings, and scalars modulo the group order.

This is the curve half of the reference instance of `Primitives`. It exists so that
a concrete run of the model computes what libsodium would compute.
-/

namespace Gcrypt.Reference

open Modular

/-! ### The field -/

def fieldSub (a b : Nat) : Nat := (a + (fieldPrime - b)) % fieldPrime
def fieldInv (a : Nat) : Nat := powMod fieldPrime 255 a (fieldPrime - 2)

/-! ### X25519 -/

/-- The ladder's two points in projective form. -/
structure Ladder where
  x2 : Nat
  z2 : Nat
  x3 : Nat
  z3 : Nat

def Ladder.swap (s : Ladder) : Ladder := ⟨s.x3, s.z3, s.x2, s.z2⟩

/-- One doubling and one differential addition. -/
def Ladder.step (x1 : Nat) (s : Ladder) : Ladder :=
  let a := (s.x2 + s.z2) % fieldPrime
  let aa := a * a % fieldPrime
  let b := fieldSub s.x2 s.z2
  let bb := b * b % fieldPrime
  let e := fieldSub aa bb
  let da := fieldSub s.x3 s.z3 * a % fieldPrime
  let cb := (s.x3 + s.z3) % fieldPrime * b % fieldPrime
  let sum := (da + cb) % fieldPrime
  let diff := fieldSub da cb
  ⟨aa * bb % fieldPrime, e * ((aa + 121665 * e) % fieldPrime) % fieldPrime,
    sum * sum % fieldPrime, x1 * (diff * diff % fieldPrime) % fieldPrime⟩

/-- The ladder over the low `n` bits of `k`, most significant first. -/
def ladder (x1 k : Nat) : Nat → Ladder → Ladder
  | 0, s => s
  | n + 1, s =>
    ladder x1 k n (if k.testBit n then (s.swap.step x1).swap else s.step x1)

/-- Clear the three low bits and bit 255, set bit 254. -/
def clamp (k : Nat) : Nat := k % 2 ^ 254 / 8 * 8 + 2 ^ 254

/-- The `u`-coordinate of the clamped multiple of the point at `u`. -/
def x25519 (k u : Nat) : Nat :=
  let x1 := u % 2 ^ 255 % fieldPrime
  let s := ladder x1 (clamp k) 255 ⟨1, 0, x1, 1⟩
  s.x2 * fieldInv s.z2 % fieldPrime

/-! ### The Edwards group -/

/-- A point in extended coordinates: `x = X / Z`, `y = Y / Z`, `x y = T / Z`. -/
structure Extended where
  X : Nat
  Y : Nat
  Z : Nat
  T : Nat

/-- The curve constant `d`. -/
def curveD : Nat :=
  37095705934669439343138083508754565189542113879843219016388785533085940283555

def Extended.identity : Extended := ⟨0, 1, 1, 0⟩

def Extended.base : Extended where
  X := 15112221349535400772501151409588531511454012693041857206046113283949847762202
  Y := 46316835694926478169428394003475163141307993866256225615783033603165251855960
  Z := 1
  T := 46827403850823179245072216630277197565144205554125654976674165829533817101731

/-- The complete addition law. -/
def Extended.add (p q : Extended) : Extended :=
  let a := fieldSub p.Y p.X * fieldSub q.Y q.X % fieldPrime
  let b := (p.Y + p.X) * (q.Y + q.X) % fieldPrime
  let c := 2 * p.T * q.T * curveD % fieldPrime
  let d := 2 * p.Z * q.Z % fieldPrime
  let e := fieldSub b a
  let f := fieldSub d c
  let g := (d + c) % fieldPrime
  let h := (b + a) % fieldPrime
  ⟨e * f % fieldPrime, g * h % fieldPrime, f * g % fieldPrime, e * h % fieldPrime⟩

/-- The multiple by the low `n` bits of `k`, on top of an accumulator. -/
def Extended.mul : Nat → Nat → Extended → Extended → Extended
  | 0, _, _, acc => acc
  | n + 1, k, p, acc =>
    Extended.mul n (k / 2) (p.add p) (if k % 2 = 1 then acc.add p else acc)

def Extended.isIdentity (p : Extended) : Bool := p.X == 0 && p.Y == p.Z

/-- The canonical encoding: `y`, and the parity of `x` in bit 255. -/
def Extended.encode (p : Extended) : Nat :=
  let zInv := fieldInv p.Z
  p.Y * zInv % fieldPrime + p.X * zInv % fieldPrime % 2 * 2 ^ 255

/-- The encoding of a multiple of the base point. -/
def encodeMultiple (k : Nat) : Nat :=
  (Extended.mul 253 k Extended.base Extended.identity).encode

/-- `sqrt(-1)`. -/
def sqrtMinusOne : Nat :=
  19681161376707505956807079304988542015446066515923890162744021073123829784752

/-- The point an encoding denotes, if it is canonical and on the curve. -/
def decodePoint (v : Nat) : Option Extended :=
  let y := v % 2 ^ 255
  if fieldPrime ≤ y then none
  else
    let yy := y * y % fieldPrime
    let num := fieldSub yy 1
    let den := (curveD * yy + 1) % fieldPrime
    let den3 := den * den % fieldPrime * den % fieldPrime
    let den7 := den3 * den3 % fieldPrime * den % fieldPrime
    let root := num * den3 % fieldPrime
      * powMod fieldPrime 255 (num * den7 % fieldPrime) ((fieldPrime - 5) / 8) % fieldPrime
    let check := den * (root * root % fieldPrime) % fieldPrime
    let signed (x : Nat) : Extended :=
      let x := if x % 2 = v / 2 ^ 255 then x else (fieldPrime - x) % fieldPrime
      ⟨x, y, 1, x * y % fieldPrime⟩
    if check = num then some (signed root)
    else if check = fieldSub 0 num then some (signed (root * sqrtMinusOne % fieldPrime))
    else none

/-- On the curve, in the prime-order subgroup, and not its identity. -/
def isValidPoint (v : Nat) : Bool :=
  match decodePoint v with
  | none => false
  | some p => (Extended.mul 253 groupOrder p Extended.identity).isIdentity && !p.isIdentity

/-! ### The group order is prime -/

/-- Primes small enough to be tested by trial division. -/
def smallPrimes : List Nat :=
  [2, 3, 5, 7, 11, 23, 41, 43, 73, 269, 307, 1361, 2851, 5879, 30703, 82163, 132667, 137849,
    409477, 531581, 1224481]

theorem smallPrimes_prime : ∀ q ∈ smallPrimes, q.Prime := by
  simp only [smallPrimes, List.forall_mem_cons, List.not_mem_nil, false_imp_iff, implies_true]
  norm_num

def groupOrderCertificate : List LucasStep :=
  [⟨14741173, 2, [2, 2, 3, 3, 409477]⟩,
    ⟨58964693, 2, [2, 2, 14741173]⟩,
    ⟨292386187, 2, [2, 3, 3, 3, 3, 307, 5879]⟩,
    ⟨213441916511, 13, [2, 5, 73, 292386187]⟩,
    ⟨1257559732178653, 2, [2, 2, 3, 7, 23, 531581, 1224481]⟩,
    ⟨4434155615661930479, 17, [2, 41, 43, 1257559732178653]⟩,
    ⟨3044861653679985063343, 5, [2, 3, 11, 30703, 82163, 132667, 137849]⟩,
    ⟨172054593956031949258510691, 2, [2, 5, 1361, 2851, 4434155615661930479]⟩,
    ⟨198211423230930754013084525763697, 5,
      [2, 2, 2, 2, 3, 23, 58964693, 3044861653679985063343]⟩,
    ⟨19757330305831588566944191468367130476339, 2,
      [2, 269, 213441916511, 172054593956031949258510691]⟩,
    ⟨276602624281642239937218680557139826668747, 2,
      [2, 7, 19757330305831588566944191468367130476339]⟩,
    ⟨groupOrder, 2, [2, 2, 3, 11, 198211423230930754013084525763697,
      276602624281642239937218680557139826668747]⟩]

theorem groupOrder_prime : groupOrder.Prime := by
  have h : certify 253 smallPrimes groupOrderCertificate = true := by decide +kernel
  exact prime_of_certify smallPrimes_prime h _
    (List.mem_of_getLast? (l := groupOrderCertificate) rfl)

/-! ### The field prime is prime -/

def fieldSmallPrimes : List Nat :=
  [2, 3, 5, 7, 13, 19, 31, 47, 103, 107, 127, 223, 353, 991, 2437, 4153, 57467, 65147, 75707,
    132049, 430751, 569003, 1923133]

theorem fieldSmallPrimes_prime : ∀ q ∈ fieldSmallPrimes, q.Prime := by
  simp only [fieldSmallPrimes, List.forall_mem_cons, List.not_mem_nil, false_imp_iff,
    implies_true]
  norm_num

def fieldPrimeCertificate : List LucasStep :=
  [⟨2773320623, 5, [2, 2437, 569003]⟩,
    ⟨72106336199, 7, [2, 13, 2773320623]⟩,
    ⟨8574133, 2, [2, 2, 3, 7, 103, 991]⟩,
    ⟨1919519569386763, 2, [2, 3, 7, 19, 47, 47, 127, 8574133]⟩,
    ⟨75445702479781427272750846543864801, 7,
      [2, 2, 2, 2, 2, 3, 3, 5, 5, 75707, 72106336199, 1919519569386763]⟩,
    ⟨31757755568855353, 10, [2, 2, 2, 3, 31, 107, 223, 4153, 430751]⟩,
    ⟨74058212732561358302231226437062788676166966415465897661863160754340907, 2,
      [2, 3, 353, 57467, 132049, 1923133, 31757755568855353,
        75445702479781427272750846543864801]⟩,
    ⟨fieldPrime, 2, [2, 2, 3, 65147,
      74058212732561358302231226437062788676166966415465897661863160754340907]⟩]

theorem fieldPrime_prime : fieldPrime.Prime := by
  have h : certify 255 fieldSmallPrimes fieldPrimeCertificate = true := by decide +kernel
  exact prime_of_certify fieldSmallPrimes_prime h _
    (List.mem_of_getLast? (l := fieldPrimeCertificate) rfl)

instance : Fact fieldPrime.Prime := ⟨fieldPrime_prime⟩

end Gcrypt.Reference
