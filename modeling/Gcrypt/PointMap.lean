import Mathlib.Tactic.IntervalCases
import Gcrypt.Signatures

/-!
# Gcrypt.PointMap

The map from Montgomery to Edwards coordinates, `convert_mont`, against the map of the
curve.

Both are the quotient `(u - 1) / (u + 1)`, but the code divides modulo the **group
order** and the curve divides modulo the **field prime**. The two moduli are coprime,
and their product is larger than any `y (u + 1)` can be, so a number that is both
quotients is the quotient in the integers: only `u = 1` has one
(`eq_one_of_both_quotients`). Everything here is read off that.
-/

namespace Gcrypt.XedDSA

variable {P : Primitives} {E : EdwardsGroup}

/-! ### Two moduli -/

theorem moduli_coprime : Nat.Coprime fieldPrime groupOrder := by
  unfold Nat.Coprime
  decide +kernel

/-- A factor `v` this large divides no `fieldPrime * groupOrder - 2`. -/
theorem no_large_cofactor {v z : Nat} (hlo : fieldPrime + 16 ≤ v) (hhi : v ≤ 2 ^ 255)
    (h : z * v + 2 = fieldPrime * groupOrder) : False := by
  have hmod : (fieldPrime * groupOrder - 2) % v = 0 := by
    rw [← h, Nat.add_sub_cancel]
    exact Nat.mul_mod_left z v
  have htop : (2 : Nat) ^ 255 = fieldPrime + 16 + 3 := by decide
  obtain ⟨j, rfl⟩ := Nat.exists_eq_add_of_le hlo
  have hj : j ≤ 3 := by omega
  interval_cases j <;> exact absurd hmod (by decide +kernel)

/-- A quotient modulo both is a quotient of integers. -/
theorem eq_one_of_both_quotients {u y : Nat} (hu : u < 2 ^ 255)
    (hL : MontgomeryY groupOrder u y) (hp : y * (u + 1) + 1 ≡ u [MOD fieldPrime]) : u = 1 := by
  obtain ⟨hy, hL⟩ := hL
  cases y with
  | zero =>
    -- Both moduli divide `u - 1`, which is smaller than their product.
    have hboth : 1 ≡ u [MOD fieldPrime * groupOrder] := by
      rw [← Nat.modEq_and_modEq_iff_modEq_mul moduli_coprime]
      exact ⟨by simpa using hp, by simpa using hL⟩
    have hlt : (2 : Nat) ^ 255 < fieldPrime * groupOrder := by decide
    exact (Nat.ModEq.eq_of_lt_of_lt hboth (by decide) (hu.trans hlt)).symm
  | succ z =>
    exfalso
    have hboth : z * (u + 1) + 2 ≡ 0 [MOD fieldPrime * groupOrder] := by
      have hsum : u ≡ u + (z * (u + 1) + 2) [MOD fieldPrime * groupOrder] := by
        rw [← Nat.modEq_and_modEq_iff_modEq_mul moduli_coprime]
        have heq : u + (z * (u + 1) + 2) = (z + 1) * (u + 1) + 1 := by ring
        rw [heq]
        exact ⟨hp.symm, hL.symm⟩
      exact (Nat.ModEq.add_left_cancel' u (hsum : u + 0 ≡ _ [MOD _])).symm
    have hdvd : fieldPrime * groupOrder ∣ z * (u + 1) + 2 := (Nat.modEq_zero_iff_dvd).mp hboth
    obtain ⟨k, hk⟩ := hdvd
    have hz : z * (u + 1) ≤ (groupOrder - 2) * (u + 1) :=
      Nat.mul_le_mul_right _ (by omega)
    have hmax : (groupOrder - 2) * (u + 1) ≤ (groupOrder - 2) * 2 ^ 255 :=
      Nat.mul_le_mul_left _ (by omega)
    have htwo : (groupOrder - 2) * 2 ^ 255 + 2 < fieldPrime * groupOrder * 2 := by decide
    have hk1 : k = 1 := by
      have hlt : k < 2 := by
        by_contra hge
        have := Nat.mul_le_mul_left (fieldPrime * groupOrder) (show 2 ≤ k by omega)
        omega
      cases k with
      | zero => omega
      | succ k => omega
    rw [hk1, Nat.mul_one] at hk
    refine no_large_cofactor (v := u + 1) ?_ (by omega) hk
    -- A smaller factor needs a cofactor beyond the group order.
    by_contra hlt
    have hsmall : (groupOrder - 2) * (u + 1) ≤ (groupOrder - 2) * (fieldPrime + 15) :=
      Nat.mul_le_mul_left _ (by omega)
    have hbound : (groupOrder - 2) * (fieldPrime + 15) + 2 < fieldPrime * groupOrder := by decide
    omega

/-! ### The map of the curve -/

/-- `(u - 1) / (u + 1)` in the field, `0` for `u = -1`. -/
def edwardsY (u : Nat) : Nat :=
  (((u : ZMod fieldPrime) - 1) * ((u : ZMod fieldPrime) + 1)⁻¹).val

theorem edwardsY_lt (u : Nat) : edwardsY u < fieldPrime := ZMod.val_lt _

/-- Its encoding is canonical, with sign bit 0. -/
theorem edwardsY_toNat (u : Nat) : (Key.ofNat 32 (edwardsY u)).toNat = edwardsY u :=
  Key.toNat_ofNat_of_lt ((edwardsY_lt u).trans (by decide))

theorem edwardsY_of_zero {u : Nat} (h : (u : ZMod fieldPrime) + 1 = 0) : edwardsY u = 0 := by
  rw [edwardsY, h, inv_zero, mul_zero, ZMod.val_zero]

theorem edwardsY_mul {u : Nat} (h : (u : ZMod fieldPrime) + 1 ≠ 0) :
    edwardsY u * (u + 1) + 1 ≡ u [MOD fieldPrime] := by
  rw [← ZMod.natCast_eq_natCast_iff]
  push_cast
  rw [edwardsY, ZMod.natCast_zmod_val, mul_assoc, inv_mul_cancel₀ h, mul_one, sub_add_cancel]

theorem edwardsY_one : edwardsY 1 = 0 := by
  rw [edwardsY, Nat.cast_one, sub_self, zero_mul, ZMod.val_zero]

/-- A number is the quotient in the field only if it is `edwardsY`. -/
theorem edwardsY_eq {u y : Nat} (h : MontgomeryY fieldPrime u y) : y = edwardsY u := by
  have hne : (u : ZMod fieldPrime) + 1 ≠ 0 := by
    intro hzero
    have hmod : (u + 1) % fieldPrime = 0 := by
      rw [← Nat.dvd_iff_mod_eq_zero, ← ZMod.natCast_eq_zero_iff]
      push_cast
      exact hzero
    exact not_montgomeryY (by decide) hmod h
  have hinv : (u + 1) * ((u : ZMod fieldPrime) + 1)⁻¹.val ≡ 1 [MOD fieldPrime] := by
    rw [← ZMod.natCast_eq_natCast_iff]
    push_cast
    rw [ZMod.natCast_zmod_val, mul_inv_cancel₀ hne]
  exact MontgomeryY.unique hinv h ⟨edwardsY_lt u, edwardsY_mul hne⟩

/-- The quotient in the field is one modulo the group order only for `u = 1`. -/
theorem montgomeryY_edwardsY_iff {u : Nat} (hu : u < 2 ^ 255) :
    MontgomeryY groupOrder u (edwardsY u) ↔ u = 1 := by
  constructor
  · intro h
    by_cases hzero : (u : ZMod fieldPrime) + 1 = 0
    · -- `u = -1` in the field: there `0` would have to be the quotient.
      exfalso
      have hdvd : fieldPrime ∣ u + 1 := by
        rw [← ZMod.natCast_eq_zero_iff]
        push_cast
        exact hzero
      obtain ⟨k, hk⟩ := hdvd
      have htop : (2 : Nat) ^ 255 < fieldPrime * 2 := by decide
      have hk1 : k = 1 := by
        have hlt : k < 2 := by
          by_contra hge
          have := Nat.mul_le_mul_left fieldPrime (show 2 ≤ k by omega)
          omega
        cases k with
        | zero => omega
        | succ k => omega
      rw [hk1, Nat.mul_one] at hk
      have hu' : u = fieldPrime - 1 := by omega
      rw [edwardsY_of_zero hzero, hu'] at h
      revert h
      decide
    · exact eq_one_of_both_quotients hu h (edwardsY_mul hzero)
  · rintro rfl
    rw [edwardsY_one]
    decide

/-- **The point map, exactly.** `convert_mont` returns the encoding of the field quotient
for `u = 1` and for no other `u`. -/
theorem convertMont_exact_iff (laws : ScalarLaws P) (U : Xckey) :
    convertMont P U = .ok (Key.ofNat 32 (edwardsY (U.toNat % 2 ^ 255))) ↔
      U.toNat % 2 ^ 255 = 1 := by
  rw [convertMont_eq_ok_iff laws, edwardsY_toNat]
  exact montgomeryY_edwardsY_iff (Nat.mod_lt _ (by decide))

theorem convertMont_exact_one :
    convertMont Reference.primitives (Key.ofNat 32 1)
        = .ok (Key.ofNat 32 (edwardsY ((Key.ofNat 32 1).toNat % 2 ^ 255))) ↔
      (Key.ofNat 32 1).toNat % 2 ^ 255 = 1 :=
  convertMont_exact_iff Reference.scalarLaws (Key.ofNat 32 1)

/-- The `u` of the base point is mapped to another `y`, and `u = L - 1` is not mapped. -/
theorem convertMont_nine_wrong :
    convertMont Reference.primitives (Key.ofNat 32 9)
        ≠ .ok (Key.ofNat 32 (edwardsY ((Key.ofNat 32 9).toNat % 2 ^ 255))) ∧
      convertMont Reference.primitives (Key.ofNat 32 (groupOrder - 1))
        = .error (.invalidArgument "Invalid scalar of ed25519 denominator (=0)") := by
  constructor
  · rw [Ne, convertMont_eq_ok_iff Reference.scalarLaws, edwardsY_toNat,
      montgomeryY_edwardsY_iff (Nat.mod_lt _ (by decide))]
    decide
  · exact convertMont_of_zero Reference.scalarLaws (by decide)

/-! ### Signer and verifier -/

/-- The `y` of the point the signer works with. -/
def signerY (E : EdwardsGroup) (K : Xckey) : Nat :=
  (E.encode ((K.toNat % 2 ^ 255) • E.basepoint)).toNat % 2 ^ 255

theorem calculateKeyPair_public (curve : CurveLaws P E) (K : Xckey) :
    (calculateKeyPair P K).Public.toNat = signerY E K := by
  rw [calculateKeyPair, ycoord_toNat, bpscale, curve.base_noclamp, signerY]

theorem convertMont_eq_signer_iff (laws : ScalarLaws P) (curve : CurveLaws P E)
    {pair : Xckeypair} (hpair : IsBoxPair P pair) :
    convertMont P pair.Public = .ok (calculateKeyPair P pair.Private).Public ↔
      MontgomeryY groupOrder pair.Public.toNat (signerY E pair.Private) := by
  have hu : pair.Public.toNat < fieldPrime := by
    rw [hpair]
    exact curve.base_canonical _
  rw [convertMont_eq_ok_iff laws, calculateKeyPair_public curve, mod_of_lt_fieldPrime hu]

/-- **Agreement on the identity key, exactly.** The two sides agree where the `y` of the
signer is the quotient modulo the group order; if it is the quotient in the field, as
for every clamped private key, this leaves only `u = 1`. -/
theorem identity_agrees_iff (laws : ScalarLaws P) (curve : CurveLaws P E) {pair : Xckeypair}
    (hpair : IsBoxPair P pair) :
    (convertMont P pair.Public = .ok (calculateKeyPair P pair.Private).Public ↔
      MontgomeryY groupOrder pair.Public.toNat (signerY E pair.Private)) ∧
    (MontgomeryY fieldPrime pair.Public.toNat (signerY E pair.Private) →
      (convertMont P pair.Public = .ok (calculateKeyPair P pair.Private).Public ↔
        pair.Public.toNat = 1)) := by
  have hagree := convertMont_eq_signer_iff laws curve hpair
  refine ⟨hagree, ?_⟩
  intro hfield
  have hu : pair.Public.toNat < 2 ^ 255 := by
    rw [hpair]
    exact (curve.base_canonical _).trans (by decide)
  rw [hagree, edwardsY_eq hfield]
  exact montgomeryY_edwardsY_iff hu

/-- `honestPair` lies on the curve: its two coordinates correspond. -/
theorem honestPair_corresponds :
    MontgomeryY fieldPrime honestPair.Public.toNat
      (signerY Reference.edwards honestPair.Private) := by
  rw [← calculateKeyPair_public Reference.curveLaws]
  decide +kernel

theorem identity_agrees_honestPair :
    convertMont Reference.primitives honestPair.Public
        = .ok (calculateKeyPair Reference.primitives honestPair.Private).Public ↔
      honestPair.Public.toNat = 1 :=
  (identity_agrees_iff Reference.scalarLaws Reference.curveLaws honestPair_isBoxPair).2
    honestPair_corresponds

/-- The two sides work with different identity keys for a clamped private key. -/
theorem honestPair_disagrees :
    IsBoxPair Reference.primitives honestPair ∧
      convertMont Reference.primitives honestPair.Public
        ≠ .ok (calculateKeyPair Reference.primitives honestPair.Private).Public := by
  refine ⟨honestPair_isBoxPair, ?_⟩
  rw [Ne, convertMont_eq_ok_iff Reference.scalarLaws]
  decide +kernel

end Gcrypt.XedDSA
