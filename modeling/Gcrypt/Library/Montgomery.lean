import Mathlib.AlgebraicGeometry.EllipticCurve.Affine.Point
import Mathlib.Tactic.FieldSimp
import Mathlib.Tactic.LinearCombination

/-!
# Gcrypt.Library.Montgomery

**Montgomery curves** `v² = u³ + A u² + u` over a field, as elliptic curves of Mathlib.

* `Triple.mul` computes a multiple of a point by doubling and adding in homogeneous
  coordinates. It never divides. A step that would have to makes the last coordinate
  zero, and it stays zero from there on; so one test at the end shows that the whole
  chain followed the group law (`Triple.mul_represents`).
* `toEdwards` is the map to the coordinates of the twisted Edwards form. The inverse of a
  point has the same `y` and `-x` (`toEdwards_neg`), and where `A - 2` is not a square no
  third point has this `y` (`eq_or_eq_neg_of_toEdwards_snd`).

Nothing here knows about any particular program.
-/

namespace Montgomery

open WeierstrassCurve.Affine

variable {F : Type} [Field F]

/-! ### The curve -/

/-- `v² = u³ + A u² + u`. -/
def curve (A : F) : WeierstrassCurve.Affine F := ⟨0, A, 0, 1, 0⟩

theorem equation_iff {A u v : F} :
    (curve A).Equation u v ↔ v ^ 2 = u ^ 3 + A * u ^ 2 + u := by
  rw [WeierstrassCurve.Affine.equation_iff]
  simp [curve]

theorem nonsingular_iff {A u v : F} (h2 : (2 : F) ≠ 0) (hA : A ^ 2 ≠ 4) :
    (curve A).Nonsingular u v ↔ v ^ 2 = u ^ 3 + A * u ^ 2 + u := by
  have hdisc : (curve A).Δ ≠ 0 := by
    have heq : (curve A).Δ = 2 ^ 4 * (A ^ 2 - 4) := by
      simp only [curve, WeierstrassCurve.Δ, WeierstrassCurve.b₂, WeierstrassCurve.b₄,
        WeierstrassCurve.b₆, WeierstrassCurve.b₈]
      ring
    rw [heq]
    exact mul_ne_zero (pow_ne_zero 4 h2) (sub_ne_zero.mpr hA)
  rw [← equation_iff_nonsingular_of_Δ_ne_zero hdisc, equation_iff]

@[simp] theorem negY_eq (A u v : F) : (curve A).negY u v = -v := by
  simp [negY, curve]

theorem addX_eq (A u u' l : F) : (curve A).addX u u' l = l ^ 2 - A - u - u' := by
  simp [curve]

theorem addY_eq (A u u' v l : F) :
    (curve A).addY u u' v l = l * (u - (curve A).addX u u' l) - v := by
  rw [addY, negY_eq, negAddY]
  ring

/-! ### Multiples -/

/-- Homogeneous coordinates: `u = X / Z` and `v = Y / Z`. -/
structure Triple (R : Type) where
  X : R
  Y : R
  Z : R

namespace Triple

section Formulas

variable {R : Type} [CommRing R]

/-- The sum on the line of slope `w / s` through the point, where `c / Z` is what the
square of the slope exceeds the new `u` by. -/
def chord (w s c : R) (t : Triple R) : Triple R :=
  let N := w ^ 2 * t.Z - s ^ 2 * c
  ⟨s * N, w * (t.X * s ^ 2 - N) - t.Y * s ^ 3, s ^ 3 * t.Z⟩

def double (A : R) (t : Triple R) : Triple R :=
  t.chord (3 * t.X ^ 2 + 2 * A * t.X * t.Z + t.Z ^ 2) (2 * t.Y * t.Z) (A * t.Z + t.X + t.X)

/-- Add the point `(u, v)`. -/
def add (A u v : R) (t : Triple R) : Triple R :=
  t.chord (t.Y - v * t.Z) (t.X - u * t.Z) (A * t.Z + t.X + u * t.Z)

/-- Double and add along the `n` low bits of `k`, most significant first. -/
def mul (A u v : R) (k : Nat) : Nat → Triple R → Triple R
  | 0, t => t
  | n + 1, t =>
    mul A u v k n (if k.testBit n then (t.double A).add A u v else t.double A)

end Formulas

variable {A : F} {t : Triple F}

theorem chord_Z_ne_zero {w s c : F} (h : (t.chord w s c).Z ≠ 0) : s ≠ 0 ∧ t.Z ≠ 0 := by
  have hprod : s ^ 3 * t.Z ≠ 0 := h
  exact ⟨fun hs => hprod (by rw [hs]; ring), right_ne_zero_of_mul hprod⟩

/-- A last coordinate that is not zero at the end was never zero. -/
theorem mul_Z_ne_zero {u v : F} {k n : Nat} (h : (t.mul A u v k n).Z ≠ 0) : t.Z ≠ 0 := by
  induction n generalizing t with
  | zero => exact h
  | succ n ih =>
    have hstep := ih h
    by_cases hbit : k.testBit n
    · rw [if_pos hbit] at hstep
      exact (chord_Z_ne_zero (chord_Z_ne_zero hstep).2).2
    · rw [if_neg hbit] at hstep
      exact (chord_Z_ne_zero hstep).2

/-- The triple is one of the point. -/
structure Represents (t : Triple F) (P : (curve A).Point) : Prop where
  Z_ne_zero : t.Z ≠ 0
  coordinates : ∃ u v h, P = .some u v h ∧ t.X = u * t.Z ∧ t.Y = v * t.Z

variable [DecidableEq F]

/-- The formulas of the line are those of the group law. -/
theorem represents_chord {u v u' v' : F} {h : (curve A).Nonsingular u v}
    {h' : (curve A).Nonsingular u' v'} (hne : ¬ (u = u' ∧ v = (curve A).negY u' v'))
    (hX : t.X = u * t.Z) (hY : t.Y = v * t.Z) {w s c : F}
    (hw : w = (curve A).slope u u' v v' * s) (hc : c = (A + u + u') * t.Z)
    (hZ : (t.chord w s c).Z ≠ 0) :
    (t.chord w s c).Represents (.some u v h + .some u' v' h') := by
  refine ⟨hZ, _, _, _, Point.add_some hne, ?_, ?_⟩
  · rw [addX_eq]
    simp only [chord, hw, hc]
    ring
  · rw [addY_eq, addX_eq]
    simp only [chord, hw, hc, hX, hY]
    ring

theorem Represents.double {P : (curve A).Point} (h : t.Represents P)
    (hZ : (t.double A).Z ≠ 0) : (t.double A).Represents (P + P) := by
  obtain ⟨hz, u, v, hns, rfl, hX, hY⟩ := h
  have hv : 2 * v ≠ 0 := by
    intro hzero
    refine (chord_Z_ne_zero hZ).1 ?_
    rw [hY]
    linear_combination t.Z ^ 2 * hzero
  have hne : v ≠ (curve A).negY u v := by
    rw [negY_eq]
    intro heq
    exact hv (by linear_combination heq)
  refine represents_chord (fun hboth => hne hboth.2) hX hY ?_ ?_ hZ
  · have hden : v - -v = 2 * v := by ring
    rw [slope_of_Y_ne rfl hne, negY_eq, hden, hX, hY]
    simp only [curve]
    have h2 : (2 : F) ≠ 0 := left_ne_zero_of_mul hv
    have hv' : v ≠ 0 := right_ne_zero_of_mul hv
    field_simp
    ring
  · rw [hX]
    ring

theorem Represents.add {P : (curve A).Point} {u v : F} (hns : (curve A).Nonsingular u v)
    (h : t.Represents P) (hZ : (t.add A u v).Z ≠ 0) :
    (t.add A u v).Represents (P + .some u v hns) := by
  obtain ⟨hz, u₁, v₁, hns₁, rfl, hX, hY⟩ := h
  have hu : u₁ ≠ u := by
    rintro rfl
    refine (chord_Z_ne_zero hZ).1 ?_
    rw [hX, sub_self]
  have hden : u₁ - u ≠ 0 := sub_ne_zero.mpr hu
  refine represents_chord (fun hboth => hu hboth.1) hX hY ?_ ?_ hZ
  · rw [slope_of_X_ne hu, hX, hY]
    field_simp
  · rw [hX]
    ring

/-- **Multiples.** Where the last coordinate is not zero at the end, the chain has
computed the multiple. -/
theorem mul_represents {u v : F} (hns : (curve A).Nonsingular u v) {k n : Nat}
    (h : t.Represents ((k / 2 ^ n) • Point.some u v hns)) (hZ : (t.mul A u v k n).Z ≠ 0) :
    (t.mul A u v k n).Represents (k • Point.some u v hns) := by
  induction n generalizing t with
  | zero =>
    rw [pow_zero, Nat.div_one] at h
    exact h
  | succ n ih =>
    refine ih ?_ hZ
    have hstep := mul_Z_ne_zero (n := n)
      (t := if k.testBit n then (t.double A).add A u v else t.double A) hZ
    have hhalf : k / 2 ^ (n + 1) = k / 2 ^ n / 2 := by rw [pow_succ, Nat.div_div_eq_div_mul]
    rw [hhalf] at h
    by_cases hbit : k.testBit n
    · rw [if_pos hbit] at hstep ⊢
      have hodd : k / 2 ^ n = k / 2 ^ n / 2 + k / 2 ^ n / 2 + 1 := by
        rw [Nat.testBit_eq_decide_div_mod_eq, decide_eq_true_iff] at hbit
        omega
      rw [hodd, add_nsmul, add_nsmul, one_nsmul]
      exact (h.double (chord_Z_ne_zero hstep).2).add hns hstep
    · rw [if_neg hbit] at hstep ⊢
      have heven : k / 2 ^ n = k / 2 ^ n / 2 + k / 2 ^ n / 2 := by
        rw [Nat.testBit_eq_decide_div_mod_eq, decide_eq_true_iff] at hbit
        omega
      rw [heven, add_nsmul]
      exact h.double hstep

end Triple

/-! ### Edwards coordinates -/

/-- The coordinates in the twisted Edwards form, for `c² = -(A + 2)`. -/
def toEdwards {A : F} (c : F) : (curve A).Point → F × F
  | .zero => (0, 1)
  | .some u v _ => (c * u / v, (u - 1) / (u + 1))

section Edwards

variable {A c : F}

theorem toEdwards_neg [DecidableEq F] (P : (curve A).Point) :
    toEdwards c (-P) = (-(toEdwards c P).1, (toEdwards c P).2) := by
  cases P with
  | zero =>
    show (0, 1) = (-(0 : F), (1 : F))
    rw [neg_zero]
  | some u v h =>
    rw [Point.neg_some]
    simp only [toEdwards, negY_eq, div_neg]

variable (h2 : (2 : F) ≠ 0)
include h2

/-- The points with `x = 0` are those that are their own inverse. -/
theorem toEdwards_fst_eq_zero_iff (hc : c ≠ 0) (P : (curve A).Point) :
    (toEdwards c P).1 = 0 ↔ -P = P := by
  cases P with
  | zero => exact iff_of_true rfl rfl
  | some u v h =>
    have heq := equation_iff.mp h.1
    have hneg : -Point.some u v h = Point.some u v h ↔ v = 0 := by
      rw [Point.neg_some, Point.some.injEq, negY_eq]
      constructor
      · rintro ⟨-, hv⟩
        have htwo : 2 * v = 0 := by linear_combination -hv
        exact (mul_eq_zero.mp htwo).resolve_left h2
      · rintro rfl
        exact ⟨rfl, neg_zero⟩
    rw [hneg]
    constructor
    · intro hx
      rcases div_eq_zero_iff.mp hx with hcu | hv
      · have hu : u = 0 := (mul_eq_zero.mp hcu).resolve_left hc
        rw [hu] at heq
        exact pow_eq_zero_iff two_ne_zero |>.mp (by linear_combination heq)
      · exact hv
    · rintro rfl
      exact div_zero _

variable (hA : ¬ IsSquare (A - 2))
include hA

omit h2 in
/-- The map to `y` is defined at every point. -/
theorem add_one_ne_zero_of_nonsingular {u v : F} (h : (curve A).Nonsingular u v) : u + 1 ≠ 0 := by
  intro hzero
  refine hA ⟨v, ?_⟩
  have heq := equation_iff.mp h.1
  linear_combination -heq - (u ^ 2 + A * u - u + 2 - A) * hzero

/-- The `y` of a point is the `y` of no point with another `u`. -/
theorem toEdwards_snd_inj {u v u' v' : F} {h : (curve A).Nonsingular u v}
    {h' : (curve A).Nonsingular u' v'}
    (hy : (toEdwards c (.some u v h)).2 = (toEdwards c (.some u' v' h')).2) : u = u' := by
  have hu := add_one_ne_zero_of_nonsingular hA h
  have hu' := add_one_ne_zero_of_nonsingular hA h'
  have hcross : (u - 1) * (u' + 1) = (u' - 1) * (u + 1) := (div_eq_div_iff hu hu').mp hy
  have htwo : 2 * (u - u') = 0 := by linear_combination hcross
  exact sub_eq_zero.mp ((mul_eq_zero.mp htwo).resolve_left h2)

/-- The `y` of the identity is its own. -/
theorem toEdwards_snd_ne_one {u v : F} (h : (curve A).Nonsingular u v) :
    (toEdwards c (.some u v h)).2 ≠ 1 := by
  intro hy
  have hu := add_one_ne_zero_of_nonsingular hA h
  have heq : u - 1 = u + 1 := (div_eq_one_iff_eq hu).mp hy
  exact h2 (by linear_combination -heq)

/-- Equal up to the sign of `x`: equal or inverse. -/
theorem eq_or_eq_neg_of_toEdwards_snd {P Q : (curve A).Point}
    (hy : (toEdwards c P).2 = (toEdwards c Q).2) : P = Q ∨ P = -Q := by
  cases P with
  | zero =>
    cases Q with
    | zero => exact Or.inl rfl
    | some u v h => exact absurd hy.symm (toEdwards_snd_ne_one h2 hA h)
  | some u v h =>
    cases Q with
    | zero => exact absurd hy (toEdwards_snd_ne_one h2 hA h)
    | some u' v' h' => exact Point.X_eq_iff.mp (toEdwards_snd_inj h2 hA hy)

end Edwards

end Montgomery
