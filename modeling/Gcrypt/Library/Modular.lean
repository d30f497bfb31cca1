import Mathlib.FieldTheory.Finite.Basic
import Mathlib.NumberTheory.LucasPrimality

/-!
# Gcrypt.Library.Modular

Modular exponentiation that evaluates, and what it is good for: **inverses** modulo
a prime (`mul_powMod_sub_two`) and **primality** by a certificate of Lucas tests
(`prime_of_certify`).

Nothing here knows about any particular program.
-/

namespace Modular

/-- `b ^ e` modulo `m`, by squaring, on the `bits` low bits of `e`. -/
def powMod (m : Nat) : Nat → Nat → Nat → Nat
  | 0, _, _ => 1 % m
  | bits + 1, b, e =>
    let r := powMod m bits (b * b % m) (e / 2)
    if e % 2 = 1 then r * b % m else r

theorem powMod_eq {m bits b e : Nat} (h : e < 2 ^ bits) : powMod m bits b e = b ^ e % m := by
  induction bits generalizing b e with
  | zero =>
    have he : e = 0 := by simpa using h
    simp [powMod, he]
  | succ bits ih =>
    have hhalf : e / 2 < 2 ^ bits := by
      rw [Nat.pow_succ] at h
      omega
    have hsquare : powMod m bits (b * b % m) (e / 2) = b ^ (2 * (e / 2)) % m := by
      rw [ih hhalf, ← Nat.pow_mod, ← Nat.pow_two, ← Nat.pow_mul]
    unfold powMod
    rw [hsquare]
    by_cases hodd : e % 2 = 1
    · have he : e = 2 * (e / 2) + 1 := by omega
      rw [if_pos hodd]
      conv_rhs => rw [he, Nat.pow_succ]
      rw [Nat.mod_mul_mod]
    · have he : e = 2 * (e / 2) := by omega
      rw [if_neg hodd]
      conv_rhs => rw [he]

/-- **Inverse.** Modulo a prime, `x ^ (p - 2)` is the inverse of `x`. -/
theorem mul_powMod_sub_two {p bits x : Nat} (hp : p.Prime) (h2 : 2 < p) (hbits : p < 2 ^ bits)
    (hx : x % p ≠ 0) : x * powMod p bits x (p - 2) % p = 1 := by
  have : Fact p.Prime := ⟨hp⟩
  have hx' : (x : ZMod p) ≠ 0 := by
    rw [Ne, ZMod.natCast_eq_zero_iff]
    exact fun hdvd => hx (Nat.mod_eq_zero_of_dvd hdvd)
  have hpow : x ^ (p - 1) % p = 1 % p := by
    rw [← Nat.ModEq, ← ZMod.natCast_eq_natCast_iff]
    push_cast
    exact ZMod.pow_card_sub_one_eq_one hx'
  rw [powMod_eq (by omega), Nat.mul_mod_mod, ← Nat.pow_succ',
    show (p - 2).succ = p - 1 by omega, hpow, Nat.mod_eq_of_lt (by omega)]

/-! ### Primality certificates -/

/-- One use of Lucas's test: a number, a witness, and the prime factors of its
predecessor with multiplicity. -/
structure LucasStep where
  p : Nat
  witness : Nat
  factors : List Nat

/-- The step is sound, given that the numbers in `known` are prime. -/
def LucasStep.check (bits : Nat) (known : List Nat) (s : LucasStep) : Bool :=
  decide (1 < s.p ∧ s.p < 2 ^ bits) && s.factors.all (· ∈ known) &&
    s.factors.prod == s.p - 1 && powMod s.p bits s.witness (s.p - 1) == 1 &&
    s.factors.all fun q => powMod s.p bits s.witness ((s.p - 1) / q) != 1

theorem LucasStep.prime {bits : Nat} {known : List Nat} {s : LucasStep}
    (hknown : ∀ q ∈ known, q.Prime) (h : s.check bits known = true) : s.p.Prime := by
  simp only [LucasStep.check, Bool.and_eq_true, decide_eq_true_eq, List.all_eq_true, beq_iff_eq,
    bne_iff_ne] at h
  obtain ⟨⟨⟨⟨⟨hp, hbits⟩, hmem⟩, hprod⟩, hone⟩, hne⟩ := h
  have hcast (e : Nat) (he : e ≤ s.p - 1) :
      (s.witness : ZMod s.p) ^ e = 1 ↔ powMod s.p bits s.witness e = 1 := by
    rw [powMod_eq (by omega), ← Nat.cast_pow, ← Nat.cast_one,
      ZMod.natCast_eq_natCast_iff, Nat.ModEq, Nat.mod_eq_of_lt hp]
  refine lucas_primality s.p (s.witness : ZMod s.p) ((hcast _ le_rfl).mpr hone) ?_
  intro q hq hdvd
  rw [Ne, hcast _ (Nat.div_le_self _ _)]
  -- A prime that divides the product is one of the factors.
  rw [← hprod] at hdvd
  obtain ⟨r, hr, hqr⟩ := (Prime.dvd_prod_iff hq.prime).mp hdvd
  rw [(Nat.prime_dvd_prime_iff_eq hq (hknown r (hmem r hr))).mp hqr]
  exact hne r hr

/-- The steps hold in turn, each relying on the ones before it. -/
def certify (bits : Nat) : List Nat → List LucasStep → Bool
  | _, [] => true
  | known, s :: steps => s.check bits known && certify bits (s.p :: known) steps

theorem prime_of_certify {bits : Nat} {known : List Nat} {steps : List LucasStep}
    (hknown : ∀ q ∈ known, q.Prime) (h : certify bits known steps = true) :
    ∀ s ∈ steps, s.p.Prime := by
  induction steps generalizing known with
  | nil => exact nofun
  | cons s steps ih =>
    simp only [certify, Bool.and_eq_true] at h
    have hs : s.p.Prime := LucasStep.prime hknown h.1
    intro t ht
    rcases List.mem_cons.mp ht with rfl | ht
    · exact hs
    · exact ih (List.forall_mem_cons.mpr ⟨hs, hknown⟩) h.2 t ht

end Modular
