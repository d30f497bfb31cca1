import Mathlib.Data.Nat.ModEq
import Mathlib.Tactic.Ring
import Gcrypt.Algorithms

/-!
# Gcrypt.Xeddsa

What `verify32` accepts, in plain arithmetic (`verify32_eq_true_iff`).

Given the documented laws of the scalar functions, every test of the verifier is a
statement about little-endian integers. The point `A` it works with is the solution
of `y (u + 1) = u - 1` modulo the **group order** (`MontgomeryY`), since `u_to_y`
only has the scalar functions to compute with; and the final check is the
congruence `s ≡ R + h A`, again modulo the group order, between the integers the
two encodings denote.
-/

namespace Gcrypt.XedDSA

variable {P : Primitives}

/-! ### The top byte -/

/-- A 32-byte string is its low 31 bytes and its top byte. -/
theorem toNat_eq_top (bs : List UInt8) (h : bs.length = 32) :
    Bytes.toNat bs = Bytes.toNat (bs.take 31) + 2 ^ 248 * (bs.getD 31 0).toNat := by
  have hlen : 31 < bs.length := by omega
  have hdrop : bs.drop 31 = [bs[31]] := by
    rw [List.drop_eq_getElem_cons hlen, List.drop_of_length_le (by omega)]
  have hsplit := Bytes.toNat_take_add_drop bs (n := 31) (by omega)
  have htop : bs.getD 31 0 = bs[31] := by simp [hlen]
  rw [hdrop] at hsplit
  rw [← hsplit, htop]
  norm_num [Bytes.toNat]

theorem toNat_take_lt (bs : List UInt8) : Bytes.toNat (bs.take 31) < 2 ^ 248 := by
  have h := Bytes.toNat_lt (bs.take 31)
  have hle : (bs.take 31).length ≤ 31 := by simp
  calc Bytes.toNat (bs.take 31) < 256 ^ (bs.take 31).length := h
    _ ≤ 256 ^ 31 := Nat.pow_le_pow_right (by decide) hle
    _ = 2 ^ 248 := by decide

theorem toNat_split (k : Xckey) :
    ∃ low < 2 ^ 248, k.toNat = low + 2 ^ 248 * (k.byteAt 31).toNat :=
  ⟨_, toNat_take_lt k.bytes, toNat_eq_top k.bytes k.size_eq⟩

theorem and_0x80 : ∀ n < 256, (n &&& 0x80 = 0 ↔ n < 128) := by decide +kernel
theorem and_0xE0 : ∀ n < 256, (n &&& 0xE0 = 0 ↔ n < 32) := by decide +kernel
theorem and_0x7F : ∀ n < 256, n &&& 0x7F = n % 128 := by decide +kernel
theorem shift_7 : ∀ n < 256, ((n >>> 7) &&& 1 = 1 ↔ 128 ≤ n) := by decide +kernel

theorem and_byte_ne_zero (b c : UInt8) :
    (b &&& c != 0) = false ↔ b.toNat &&& c.toNat = 0 := by
  rw [bne_eq_false_iff_eq, ← UInt8.toNat_inj, UInt8.toNat_and]
  rfl

/-- The mask of `R` tests bit 255. -/
theorem highBit_clear_iff (k : Xckey) :
    (k.byteAt 31 &&& 0x80 != 0) = false ↔ k.toNat < 2 ^ 255 := by
  obtain ⟨low, hlow, hk⟩ := toNat_split k
  rw [and_byte_ne_zero, hk]
  refine (and_0x80 _ (k.byteAt 31).toNat_lt).trans ?_
  omega

/-- The mask of `s` tests the top three bits. -/
theorem topBits_clear_iff (k : Xckey) :
    (k.byteAt 31 &&& 0xE0 != 0) = false ↔ k.toNat < 2 ^ 253 := by
  obtain ⟨low, hlow, hk⟩ := toNat_split k
  rw [and_byte_ne_zero, hk]
  refine (and_0xE0 _ (k.byteAt 31).toNat_lt).trans ?_
  omega

/-- `ycoord` clears bit 255. -/
theorem ycoord_toNat (k : Xckey) : (Ed25519.ycoord k).toNat = k.toNat % 2 ^ 255 := by
  have hk : k.toNat = Bytes.toNat (k.bytes.take 31) + 2 ^ 248 * (k.byteAt 31).toNat :=
    toNat_eq_top k.bytes k.size_eq
  have hlow := toNat_take_lt k.bytes
  have htop : ((k.byteAt 31) &&& 0x7F).toNat = (k.byteAt 31).toNat % 128 := by
    rw [UInt8.toNat_and]
    exact and_0x7F _ (k.byteAt 31).toNat_lt
  have hset : (k.bytes.set 31 ((k.byteAt 31) &&& 0x7F)).getD 31 0 = (k.byteAt 31) &&& 0x7F := by
    simp [k.size_eq]
  have hy : (Ed25519.ycoord k).toNat
      = Bytes.toNat (k.bytes.take 31) + 2 ^ 248 * ((k.byteAt 31).toNat % 128) := by
    simp only [Ed25519.ycoord, kcpy_eq, Key.toNat]
    rw [toNat_eq_top _ (by simp), hset, htop, List.take_set_of_le (by omega)]
  rw [hy, hk]
  omega

theorem signbit_iff (k : Xckey) : Ed25519.signbit k = true ↔ 2 ^ 255 ≤ k.toNat := by
  obtain ⟨low, hlow, hk⟩ := toNat_split k
  have hbit : (k.byteAt 31 >>> 7 &&& 1 = 1) ↔ ((k.byteAt 31).toNat >>> 7) &&& 1 = 1 := by
    rw [← UInt8.toNat_inj, UInt8.toNat_and, UInt8.toNat_shiftRight]
    rfl
  unfold Ed25519.signbit
  rw [decide_eq_true_iff, hbit, hk]
  refine (shift_7 _ (k.byteAt 31).toNat_lt).trans ?_
  omega

theorem signbit_eq_false_iff (k : Xckey) : Ed25519.signbit k = false ↔ k.toNat < 2 ^ 255 := by
  rw [← Bool.not_eq_true, signbit_iff, Nat.not_le]

/-- Clearing a sign bit that is clear changes nothing. -/
theorem ycoord_of_signbit {k : Xckey} (h : Ed25519.signbit k = false) : Ed25519.ycoord k = k := by
  refine Key.toNat_inj.mp ?_
  rw [ycoord_toNat, Nat.mod_eq_of_lt ((signbit_eq_false_iff k).mp h)]

theorem signbit_ycoord (k : Xckey) : Ed25519.signbit (Ed25519.ycoord k) = false := by
  rw [signbit_eq_false_iff, ycoord_toNat]
  exact Nat.mod_lt _ (by decide)

/-- What is documented of the curve and its encodings: the base point has prime order,
an encoding denotes one point, and the inverse of a point has the same `y` and the
other sign, unless it is the point itself. -/
structure EdwardsLaws (E : EdwardsGroup) : Prop where
  basepoint_ne_zero : E.basepoint ≠ 0
  order : groupOrder • E.basepoint = 0
  encode_injective : Function.Injective E.encode
  ycoord_neg (T : E.Point) : Ed25519.ycoord (E.encode (-T)) = Ed25519.ycoord (E.encode T)
  signbit_neg (T : E.Point) : -T ≠ T →
    Ed25519.signbit (E.encode (-T)) = !Ed25519.signbit (E.encode T)
  signbit_self (T : E.Point) : -T = T → Ed25519.signbit (E.encode T) = false

/-! ### Bounds -/

theorem fieldPrimeBytes_toNat : fieldPrimeBytes.toNat = fieldPrime := by decide

/-- `sig_in_bounds`, as inequalities. -/
theorem sigInBounds_iff (laws : ScalarLaws P) {mkPub R s : Xckey} :
    sigInBounds P mkPub R s = true ↔
      mkPub.toNat < fieldPrime ∧ R.toNat < 2 ^ 255 ∧ s.toNat < 2 ^ 253 := by
  unfold sigInBounds
  rw [← highBit_clear_iff, ← topBits_clear_iff, ← fieldPrimeBytes_toNat, ← laws.compare]
  by_cases hu : P.sodiumCompare mkPub fieldPrimeBytes = -1
  · cases (R.byteAt 31 &&& 0x80 != 0) <;> cases (s.byteAt 31 &&& 0xE0 != 0) <;> simp [hu]
  · simp [hu]

/-! ### The Montgomery-to-Edwards map -/

/-- `y = (u - 1) / (u + 1)` modulo `q`. -/
def MontgomeryY (q u y : Nat) : Prop := y < q ∧ y * (u + 1) + 1 ≡ u [MOD q]

instance (q u y : Nat) : Decidable (MontgomeryY q u y) := inferInstanceAs (Decidable (_ ∧ _))

/-- Where `u + 1` has an inverse, the quotient is unique. -/
theorem MontgomeryY.unique {q u y y' inv : Nat} (hinv : (u + 1) * inv ≡ 1 [MOD q])
    (h : MontgomeryY q u y) (h' : MontgomeryY q u y') : y = y' := by
  have hprod : y * (u + 1) ≡ y' * (u + 1) [MOD q] :=
    Nat.ModEq.add_right_cancel' 1 (h.2.trans h'.2.symm)
  have hmod : y ≡ y' [MOD q] := by
    calc y = y * 1 := (Nat.mul_one y).symm
      _ ≡ y * ((u + 1) * inv) [MOD q] := hinv.symm.mul_left y
      _ = y * (u + 1) * inv := by ring
      _ ≡ y' * (u + 1) * inv [MOD q] := hprod.mul_right inv
      _ = y' * ((u + 1) * inv) := by ring
      _ ≡ y' * 1 [MOD q] := hinv.mul_left y'
      _ = y' := Nat.mul_one y'
  exact Nat.ModEq.eq_of_lt_of_lt hmod h.1 h'.1

/-- There is no quotient where `u + 1` vanishes. -/
theorem not_montgomeryY {q u y : Nat} (hq : 2 < q) (hu : (u + 1) % q = 0) :
    ¬ MontgomeryY q u y := by
  rintro ⟨-, h⟩
  have hzero : u + 1 ≡ 0 [MOD q] := hu
  have htwo : 2 ≡ 0 [MOD q] := by
    calc 2 = 0 + 1 + 1 := rfl
      _ ≡ y * (u + 1) + 1 + 1 [MOD q] :=
        (((hzero.mul_left y).symm).add_right 1).add_right 1
      _ ≡ u + 1 [MOD q] := h.add_right 1
      _ ≡ 0 [MOD q] := hzero
  have := Nat.ModEq.eq_of_lt_of_lt htwo hq (by omega)
  omega

theorem groupOrder_lt : groupOrder < 2 ^ 253 := by decide

theorem fromLebytes_one_toNat : (Keygen.fromLebytes 32 1).toNat = 1 := by decide

section ConvertMont

variable (laws : ScalarLaws P)
include laws

/-- The denominator `u_to_y` inverts. -/
theorem denominator_toNat (U : Xckey) :
    (P.cryptoCoreEd25519ScalarAdd (Ed25519.ycoord U) (Keygen.fromLebytes 32 1)).toNat
      = (U.toNat % 2 ^ 255 + 1) % groupOrder := by
  rw [laws.add, ycoord_toNat, fromLebytes_one_toNat]

/-- The map throws for `u = -1` modulo the group order. -/
theorem convertMont_of_zero {U : Xckey} (h : (U.toNat % 2 ^ 255 + 1) % groupOrder = 0) :
    convertMont P U
      = .error (.invalidArgument "Invalid scalar of ed25519 denominator (=0)") := by
  have hnone := (laws.invert_eq_none _).mpr ((denominator_toNat laws U).trans h)
  simp only [convertMont, uToY, hnone]
  rfl

/-- Elsewhere it returns the quotient, and the denominator is invertible. -/
theorem convertMont_of_ne_zero {U : Xckey} (h : (U.toNat % 2 ^ 255 + 1) % groupOrder ≠ 0) :
    ∃ A inv, convertMont P U = .ok A ∧ MontgomeryY groupOrder (U.toNat % 2 ^ 255) A.toNat ∧
      (U.toNat % 2 ^ 255 + 1) * inv ≡ 1 [MOD groupOrder] := by
  have hden := denominator_toNat laws U
  cases hinv : P.cryptoCoreEd25519ScalarInvert
      (P.cryptoCoreEd25519ScalarAdd (Ed25519.ycoord U) (Keygen.fromLebytes 32 1)) with
  | none =>
    rw [laws.invert_eq_none, hden] at hinv
    exact absurd hinv h
  | some inverse =>
    have hlt : (U.toNat % 2 ^ 255 + 1) % groupOrder < groupOrder :=
      Nat.mod_lt _ (by decide)
    have hone := laws.invert_eq_some _ _ hinv (by rw [hden]; exact hlt)
    rw [hden] at hone
    have hmul : (U.toNat % 2 ^ 255 + 1) * inverse.toNat ≡ 1 [MOD groupOrder] := by
      calc (U.toNat % 2 ^ 255 + 1) * inverse.toNat
          ≡ (U.toNat % 2 ^ 255 + 1) % groupOrder * inverse.toNat [MOD groupOrder] :=
            ((Nat.mod_modEq _ _).symm).mul_right _
        _ ≡ 1 [MOD groupOrder] := hone
    refine ⟨_, inverse.toNat, by simp only [convertMont, uToY, hinv]; rfl, ?_, hmul⟩
    rw [ycoord_toNat, laws.mul, laws.sub, ycoord_toNat, fromLebytes_one_toNat]
    -- The product is reduced, so clearing bit 255 changes nothing.
    rw [Nat.mod_eq_of_lt ((Nat.mod_lt _ (by decide)).trans (by decide : groupOrder < 2 ^ 255))]
    refine ⟨Nat.mod_lt _ (by decide), ?_⟩
    have hnum : (U.toNat % 2 ^ 255 + (groupOrder - 1 % groupOrder)) % groupOrder + 1
        ≡ U.toNat % 2 ^ 255 [MOD groupOrder] := by
      calc (U.toNat % 2 ^ 255 + (groupOrder - 1 % groupOrder)) % groupOrder + 1
          ≡ U.toNat % 2 ^ 255 + (groupOrder - 1 % groupOrder) + 1 [MOD groupOrder] :=
            (Nat.mod_modEq _ _).add_right 1
        _ = U.toNat % 2 ^ 255 + groupOrder := by
            have : (groupOrder - 1 % groupOrder) + 1 = groupOrder := by decide
            rw [Nat.add_assoc, this]
        _ ≡ U.toNat % 2 ^ 255 [MOD groupOrder] := Nat.add_modEq_right
    generalize (U.toNat % 2 ^ 255 + (groupOrder - 1 % groupOrder)) % groupOrder = num at hnum ⊢
    calc num * inverse.toNat % groupOrder * (U.toNat % 2 ^ 255 + 1) + 1
        ≡ num * inverse.toNat * (U.toNat % 2 ^ 255 + 1) + 1 [MOD groupOrder] :=
          ((Nat.mod_modEq _ _).mul_right _).add_right 1
      _ = num * ((U.toNat % 2 ^ 255 + 1) * inverse.toNat) + 1 := by ring
      _ ≡ num * 1 + 1 [MOD groupOrder] := (hmul.mul_left num).add_right 1
      _ = num + 1 := by rw [Nat.mul_one]
      _ ≡ U.toNat % 2 ^ 255 [MOD groupOrder] := hnum

/-- **Specification** of `convert_mont`. -/
theorem convertMont_eq_ok_iff {U A : Xckey} :
    convertMont P U = .ok A ↔ MontgomeryY groupOrder (U.toNat % 2 ^ 255) A.toNat := by
  by_cases h : (U.toNat % 2 ^ 255 + 1) % groupOrder = 0
  · rw [convertMont_of_zero laws h]
    constructor
    · intro heq
      cases heq
    · intro hA
      exact absurd hA (not_montgomeryY (by decide) h)
  · obtain ⟨A', inv, heq, hA', hmul⟩ := convertMont_of_ne_zero laws h
    rw [heq]
    constructor
    · intro hAA'
      cases hAA'
      exact hA'
    · intro hA
      rw [Key.toNat_inj.mp (MontgomeryY.unique hmul hA' hA)]

/-- The map throws exactly for `u = -1` modulo the group order. -/
theorem convertMont_eq_error_iff {U : Xckey} :
    (∃ e, convertMont P U = .error e) ↔ (U.toNat % 2 ^ 255 + 1) % groupOrder = 0 := by
  constructor
  · rintro ⟨e, he⟩
    by_contra h
    obtain ⟨A, inv, heq, -, -⟩ := convertMont_of_ne_zero laws h
    rw [heq] at he
    cases he
  · intro h
    exact ⟨_, convertMont_of_zero laws h⟩

end ConvertMont

/-! ### Verification -/

section Verify

variable {n : Nat}

/-- The challenge scalar, `SHA-512(R || A || M)` reduced. -/
def challenge (P : Primitives) (R A : Xckey) (M : Key n) : Xckey :=
  P.cryptoCoreEd25519ScalarReduce (sha P (kconcat [⟨_, R⟩, ⟨_, A⟩, ⟨_, M⟩]))

/-- The first half of a signature. -/
def sigR (rcs : Key 64) : Xckey := kcpyFrom 32 rcs 0
/-- The second half. -/
def sigS (rcs : Key 64) : Xckey := kcpyFrom 32 rcs 32

theorem verify32_of_out_of_bounds {mkPub : Xckey} {M : Key n} {rcs : Key 64}
    (h : sigInBounds P mkPub (sigR rcs) (sigS rcs) = false) :
    verify32 P mkPub M rcs = .ok false := by
  unfold sigR sigS at h
  simp only [verify32, h]
  rfl

theorem verify32_of_error {mkPub : Xckey} {M : Key n} {rcs : Key 64} {e : Fault}
    (h : sigInBounds P mkPub (sigR rcs) (sigS rcs) = true) (hA : convertMont P mkPub = .error e) :
    verify32 P mkPub M rcs = .error e := by
  unfold sigR sigS at h
  simp only [verify32, h, hA]
  rfl

/-- In bounds and with a point, the answer is the final comparison. -/
theorem verify32_of_point {mkPub A : Xckey} {M : Key n} {rcs : Key 64}
    (h : sigInBounds P mkPub (sigR rcs) (sigS rcs) = true) (hA : convertMont P mkPub = .ok A) :
    verify32 P mkPub M rcs
      = .ok (P.cryptoCoreEd25519IsValidPoint A &&
          kmatch (P.cryptoCoreEd25519ScalarSub (sigS rcs)
            (P.cryptoCoreEd25519ScalarMul (challenge P (sigR rcs) A M) A)) (sigR rcs)) := by
  unfold sigR sigS at h
  simp only [verify32, h, hA]
  cases hvalid : P.cryptoCoreEd25519IsValidPoint A
  · simp [bind, Except.bind, hvalid]
    rfl
  · simp [bind, Except.bind, hvalid]
    rfl

/-- The final comparison is a congruence between integers. -/
theorem scalarCheck_iff (laws : ScalarLaws P) {R s h A : Xckey} :
    kmatch (P.cryptoCoreEd25519ScalarSub s (P.cryptoCoreEd25519ScalarMul h A)) R = true ↔
      R.toNat < groupOrder ∧ s.toNat ≡ R.toNat + h.toNat * A.toNat [MOD groupOrder] := by
  rw [kmatch_eq_true, ← Key.toNat_inj, laws.sub, laws.mul, Nat.mod_mod]
  have hpos : 0 < groupOrder := by decide
  generalize h.toNat * A.toNat = x
  have hx : x % groupOrder < groupOrder := Nat.mod_lt _ hpos
  constructor
  · intro heq
    refine ⟨heq ▸ Nat.mod_lt _ hpos, ?_⟩
    have hR : s.toNat + (groupOrder - x % groupOrder) ≡ R.toNat [MOD groupOrder] := by
      rw [← heq]
      exact (Nat.mod_modEq _ _).symm
    calc s.toNat ≡ s.toNat + groupOrder [MOD groupOrder] := Nat.add_modEq_right.symm
      _ = s.toNat + (groupOrder - x % groupOrder) + x % groupOrder := by omega
      _ ≡ R.toNat + x [MOD groupOrder] := hR.add (Nat.mod_modEq _ _)
  · rintro ⟨hlt, hs⟩
    refine Nat.ModEq.eq_of_lt_of_lt ?_ (Nat.mod_lt _ hpos) hlt
    calc (s.toNat + (groupOrder - x % groupOrder)) % groupOrder
        ≡ s.toNat + (groupOrder - x % groupOrder) [MOD groupOrder] := Nat.mod_modEq _ _
      _ ≡ R.toNat + x % groupOrder + (groupOrder - x % groupOrder) [MOD groupOrder] :=
        (hs.trans ((Nat.mod_modEq x groupOrder).symm.add_left _)).add_right _
      _ = R.toNat + groupOrder := by omega
      _ ≡ R.toNat [MOD groupOrder] := Nat.add_modEq_right

/-- The relation between integers that `verify32` accepts: the quotient `A` modulo
the group order encodes a point, and `s = R + h A` modulo the group order. -/
structure IntegerRelation (P : Primitives) (mkPub : Xckey) (M : Key n) (rcs : Key 64)
    (A : Xckey) : Prop where
  quotient : MontgomeryY groupOrder mkPub.toNat A.toNat
  valid : P.cryptoCoreEd25519IsValidPoint A = true
  reduced : (sigR rcs).toNat < groupOrder
  equation : (sigS rcs).toNat
    ≡ (sigR rcs).toNat + (challenge P (sigR rcs) A M).toNat * A.toNat [MOD groupOrder]

theorem mod_of_lt_fieldPrime {u : Nat} (h : u < fieldPrime) : u % 2 ^ 255 = u :=
  Nat.mod_eq_of_lt (h.trans (by decide))

/-- **Acceptance.** What `verify32` returns `true` on. -/
theorem verify32_eq_true_iff (laws : ScalarLaws P) {mkPub : Xckey} {M : Key n} {rcs : Key 64} :
    verify32 P mkPub M rcs = .ok true ↔
      mkPub.toNat < fieldPrime ∧ (sigS rcs).toNat < 2 ^ 253 ∧
        ∃ A, IntegerRelation P mkPub M rcs A := by
  constructor
  · intro haccept
    cases hb : sigInBounds P mkPub (sigR rcs) (sigS rcs) with
    | false =>
      rw [verify32_of_out_of_bounds hb] at haccept
      cases haccept
    | true =>
      obtain ⟨hu, -, hs⟩ := (sigInBounds_iff laws).mp hb
      cases hA : convertMont P mkPub with
      | error e =>
        rw [verify32_of_error hb hA] at haccept
        cases haccept
      | ok A =>
        rw [verify32_of_point hb hA, Except.ok.injEq, Bool.and_eq_true, scalarCheck_iff laws]
          at haccept
        obtain ⟨hvalid, hR, heq⟩ := haccept
        have hquot := (convertMont_eq_ok_iff laws).mp hA
        rw [mod_of_lt_fieldPrime hu] at hquot
        exact ⟨hu, hs, A, hquot, hvalid, hR, heq⟩
  · rintro ⟨hu, hs, A, hrel⟩
    have hR : (sigR rcs).toNat < 2 ^ 255 := hrel.reduced.trans (by decide)
    have hb : sigInBounds P mkPub (sigR rcs) (sigS rcs) = true :=
      (sigInBounds_iff laws).mpr ⟨hu, hR, hs⟩
    have hA : convertMont P mkPub = .ok A := by
      rw [convertMont_eq_ok_iff laws, mod_of_lt_fieldPrime hu]
      exact hrel.quotient
    rw [verify32_of_point hb hA, hrel.valid, Bool.true_and,
      (scalarCheck_iff laws).mpr ⟨hrel.reduced, hrel.equation⟩]

/-- `verify32` throws exactly on a signature in bounds under the key `u = -1` modulo
the group order. -/
theorem verify32_eq_error_iff (laws : ScalarLaws P) {mkPub : Xckey} {M : Key n} {rcs : Key 64} :
    (∃ e, verify32 P mkPub M rcs = .error e) ↔
      sigInBounds P mkPub (sigR rcs) (sigS rcs) = true ∧
        (mkPub.toNat + 1) % groupOrder = 0 := by
  cases hb : sigInBounds P mkPub (sigR rcs) (sigS rcs) with
  | false => simp [verify32_of_out_of_bounds hb]
  | true =>
    obtain ⟨hu, -, -⟩ := (sigInBounds_iff laws).mp hb
    have hzero := convertMont_eq_error_iff laws (U := mkPub)
    rw [mod_of_lt_fieldPrime hu] at hzero
    rw [← hzero]
    cases hA : convertMont P mkPub with
    | error e => simp [verify32_of_error hb hA]
    | ok A => simp [verify32_of_point hb hA]

end Verify

end Gcrypt.XedDSA
