import Mathlib.GroupTheory.OrderOfElement
import Mathlib.RingTheory.Int.Basic

/-!
# Gcrypt.Library.PrimeOrder

The multiples of an element of prime order, in a group whose elements have codes.

* Where there are fewer codes than the square of the order, the multiples are everything
  that the order annihilates (`exists_nsmul_eq_of_codes`).
* There are as many multiples as the order, so as many codes of multiples are all of them
  (`exists_eq_code`).

Nothing here knows about any particular program.
-/

namespace PrimeOrder

variable {G : Type*} [AddCommGroup G] {q : Nat} {B : G}

/-! ### Multiples -/

theorem nsmul_mod (hB : q • B = 0) (k : Nat) : (k % q) • B = k • B := by
  conv_rhs => rw [← Nat.div_add_mod k q, add_nsmul, mul_comm, mul_nsmul', hB, nsmul_zero, zero_add]

/-- The multiples of an element of prime order are the numbers modulo the order. -/
theorem nsmul_eq_iff (hq : q.Prime) (hB : q • B = 0) (hB0 : B ≠ 0) {i j : Nat} :
    i • B = j • B ↔ i ≡ j [MOD q] := by
  have : Fact q.Prime := ⟨hq⟩
  rw [nsmul_eq_nsmul_iff_modEq, addOrderOf_eq_prime hB hB0]

/-- An element of which a multiple that is not zero modulo the order is a multiple of `B`
is one itself. -/
theorem mem_zmultiples_of_zsmul (hq : q.Prime) {T : G} (hT : q • T = 0) {m : Int}
    (hm : ¬ (q : Int) ∣ m) (h : m • T ∈ AddSubgroup.zmultiples B) :
    T ∈ AddSubgroup.zmultiples B := by
  obtain ⟨a, b, hab⟩ : IsCoprime (q : Int) m :=
    (Nat.prime_iff_prime_int.mp hq).coprime_iff_not_dvd.mpr hm
  have hzero : (q : Int) • T = 0 := by rw [natCast_zsmul, hT]
  have hmul : T = b • (m • T) := by
    calc T = (a * q + b * m) • T := by rw [hab, one_zsmul]
      _ = b • (m • T) := by rw [add_zsmul, mul_zsmul, mul_zsmul, hzero, zsmul_zero, zero_add]
  rw [hmul]
  exact AddSubgroup.zsmul_mem _ h b

/-! ### Codes -/

/-- **No second subgroup.** With fewer codes than `q ^ 2`, what `q` annihilates is a multiple
of `B`. -/
theorem exists_nsmul_eq_of_codes (hq : q.Prime) (hB : q • B = 0) (hB0 : B ≠ 0) {N : Nat}
    {code : G → Fin N} (hcode : Function.Injective code) (hN : N < q * q) {T : G}
    (hT : q • T = 0) : ∃ k : Nat, k • B = T := by
  have hcard : Fintype.card (Fin N) < Fintype.card (Fin q × Fin q) := by simpa using hN
  -- Two of the `q * q` combinations of `B` and `T` have the same code.
  obtain ⟨x, y, hne, hxy⟩ := Fintype.exists_ne_map_eq_of_card_lt
    (fun x : Fin q × Fin q => code (x.1.val • B + x.2.val • T)) hcard
  have hsum : x.1.val • B + x.2.val • T = y.1.val • B + y.2.val • T := hcode hxy
  have hsecond : x.2.val ≠ y.2.val := by
    intro heq
    rw [heq, add_left_inj, nsmul_eq_iff hq hB hB0] at hsum
    have hfirst : x.1.val = y.1.val := hsum.eq_of_lt_of_lt x.1.isLt y.1.isLt
    exact hne (Prod.ext (Fin.ext hfirst) (Fin.ext heq))
  have hdvd : ¬ (q : Int) ∣ (x.2.val : Int) - y.2.val := by
    intro hdvd
    have hx := x.2.isLt
    have hy := y.2.isLt
    have hzero := Int.eq_zero_of_abs_lt_dvd hdvd (by rw [abs_lt]; omega)
    omega
  have hmem : ((x.2.val : Int) - y.2.val) • T ∈ AddSubgroup.zmultiples B := by
    refine AddSubgroup.mem_zmultiples_iff.mpr ⟨(y.1.val : Int) - x.1.val, ?_⟩
    rw [sub_zsmul, sub_zsmul, natCast_zsmul, natCast_zsmul, natCast_zsmul, natCast_zsmul,
      ← sub_eq_add_neg, ← sub_eq_add_neg, sub_eq_sub_iff_add_eq_add, ← hsum, add_comm]
  have hfin : IsOfFinAddOrder B := isOfFinAddOrder_iff_nsmul_eq_zero.mpr ⟨q, hq.pos, hB⟩
  exact AddSubmonoid.mem_multiples_iff _ _ |>.mp
    (hfin.mem_multiples_iff_mem_zmultiples.mpr (mem_zmultiples_of_zsmul hq hT hdvd hmem))

/-- **Pigeonhole.** If `q` different codes all are codes of multiples of `B`, then they are
the codes of all multiples. -/
theorem exists_eq_code (hq : 0 < q) (hB : q • B = 0) {α : Type*} {code : G → α} {f : Fin q → α}
    (hf : Function.Injective f) (hall : ∀ i, ∃ k : Nat, f i = code (k • B)) (k : Nat) :
    ∃ i, f i = code (k • B) := by
  choose g hg using hall
  have hinj : Function.Injective fun i => (⟨g i % q, Nat.mod_lt _ hq⟩ : Fin q) := by
    intro i j hij
    apply hf
    rw [hg i, hg j, ← nsmul_mod hB (g i), ← nsmul_mod hB (g j), Fin.mk.inj hij]
  obtain ⟨i, hi⟩ := Finite.surjective_of_injective hinj ⟨k % q, Nat.mod_lt _ hq⟩
  refine ⟨i, ?_⟩
  rw [hg i, ← nsmul_mod hB (g i), Fin.mk.inj hi, nsmul_mod hB]

end PrimeOrder
