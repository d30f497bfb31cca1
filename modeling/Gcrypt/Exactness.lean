import Gcrypt.SigningKey

/-!
# Gcrypt.Exactness

Whether `verify32` accepts the signatures that the scheme promises to accept, and no others.

What is promised is an equation in the Edwards group (`Genuine`); what is checked is a
congruence between integers. The two ask for different points of the same key: the quotient
`(u - 1) / (u + 1)` modulo the field prime, and modulo the group order. Where the one is a
valid point there are genuine signatures of every message (`exists_genuine`), and where the
other is, there are accepted signatures of every message that are not genuine
(`exists_accepted_not_genuine`). So the verifier is exact only under the keys where it has
nothing to accept (`exact_iff`).
-/

namespace Gcrypt.XedDSA

variable {P : Primitives} {E : EdwardsGroup} {n : Nat}

/-! ### The promise -/

/-- What the scheme promises of an accepted signature: `A` is the quotient modulo
the **field prime** and encodes the point `T`, and `R` encodes `s B - h T`. -/
structure GroupRelation (P : Primitives) (E : EdwardsGroup) (mkPub : Xckey) (M : Key n)
    (rcs : Key 64) (A : Xckey) (T : E.Point) : Prop where
  quotient : MontgomeryY fieldPrime mkPub.toNat A.toNat
  valid : P.cryptoCoreEd25519IsValidPoint A = true
  point : E.encode T = A
  equation : sigR rcs
    = E.encode ((sigS rcs).toNat • E.basepoint - (challenge P (sigR rcs) A M).toNat • T)

/-- The documented acceptance condition. -/
def Genuine (P : Primitives) (E : EdwardsGroup) (mkPub : Xckey) (M : Key n) (rcs : Key 64) :
    Prop :=
  mkPub.toNat < fieldPrime ∧ (sigS rcs).toNat < 2 ^ 253 ∧
    ∃ A T, GroupRelation P E mkPub M rcs A T

/-- What is documented of the point check: it lets nothing pass but encodings of points in
the main subgroup, which the group order annihilates. -/
structure PointLaws (P : Primitives) (E : EdwardsGroup) : Prop where
  main_subgroup (A : Xckey) : P.cryptoCoreEd25519IsValidPoint A = true →
    ∃ T, E.encode T = A ∧ groupOrder • T = 0

/-- The quotient of the key modulo `q` exists and is a valid point. -/
def QuotientIsPoint (P : Primitives) (q : Nat) (mkPub : Xckey) : Prop :=
  ∃ A : Xckey, MontgomeryY q mkPub.toNat A.toNat ∧ P.cryptoCoreEd25519IsValidPoint A = true

/-! ### The main subgroup -/

namespace EdwardsLaws

variable (group : EdwardsLaws E)
include group

/-- There are not enough encodings for a second subgroup of this order. -/
theorem exists_nsmul_basepoint {T : E.Point} (hT : groupOrder • T = 0) :
    ∃ a : Nat, a • E.basepoint = T := by
  have hcode : Function.Injective fun T => (⟨(E.encode T).toNat, Key.toNat_lt _⟩ : Fin _) :=
    fun T T' h => group.encode_injective (Key.toNat_inj.mp (Fin.mk.inj h))
  exact PrimeOrder.exists_nsmul_eq_of_codes Reference.groupOrder_prime group.order
    group.basepoint_ne_zero hcode (by decide) hT

/-- A signature equation that holds of the logarithms holds in the group. -/
theorem sub_nsmul_eq {a r h s : Nat} (hs : s ≡ r + h * a [MOD groupOrder]) :
    s • E.basepoint - h • (a • E.basepoint) = r • E.basepoint := by
  rw [sub_eq_iff_eq_add, ← mul_nsmul', ← add_nsmul, group.nsmul_eq_iff]
  exact hs

/-- What the equation computes is a multiple of the base point. -/
theorem exists_sub_nsmul (a h s : Nat) :
    ∃ r : Nat, s • E.basepoint - h • (a • E.basepoint) = r • E.basepoint := by
  refine ⟨s + h * a * (groupOrder - 1), group.sub_nsmul_eq ?_⟩
  have hpos : groupOrder - 1 + 1 = groupOrder := by decide
  calc s ≡ s + h * a * groupOrder [MOD groupOrder] := by simp [Nat.ModEq]
    _ = s + h * a * (groupOrder - 1 + 1) := by rw [hpos]
    _ = s + h * a * (groupOrder - 1) + h * a := by ring

theorem neg_basepoint_ne : -E.basepoint ≠ E.basepoint := by
  intro hself
  have hdouble : 2 • E.basepoint = 0 • E.basepoint := by
    rw [two_nsmul, zero_nsmul, ← neg_eq_iff_add_eq_zero, hself]
  exact absurd (group.nsmul_eq_iff.mp hdouble) (by decide)

/-- Not every integer below the group order is the encoding of a multiple of the base point:
the multiples would use them up, and none would have sign 1. -/
theorem exists_not_encoding :
    ∃ R : Xckey, R.toNat < groupOrder ∧ ∀ k : Nat, R ≠ E.encode (k • E.basepoint) := by
  by_contra hnone
  push Not at hnone
  have hval (i : Fin groupOrder) : (Key.ofNat 32 i.val).toNat = i.val :=
    Key.toNat_ofNat_of_lt (i.isLt.trans (by decide))
  have hinj : Function.Injective fun i : Fin groupOrder => Key.ofNat 32 i.val := by
    intro i j hij
    rw [← Fin.val_inj, ← hval i, ← hval j]
    exact congrArg Key.toNat hij
  have hsign (k : Nat) : Ed25519.signbit (E.encode (k • E.basepoint)) = false := by
    obtain ⟨i, hi⟩ := PrimeOrder.exists_eq_code (by decide) group.order hinj
      (fun i => hnone _ ((hval i).trans_lt i.isLt)) k
    rw [← hi, signbit_eq_false_iff, hval]
    exact i.isLt.trans (by decide)
  have hbase := hsign 1
  have hneg := group.signbit_neg E.basepoint group.neg_basepoint_ne
  rw [one_nsmul] at hbase
  rw [hbase, ← one_nsmul E.basepoint, group.neg_nsmul, hsign] at hneg
  cases hneg

end EdwardsLaws

/-- A valid point is the encoding of a multiple of the base point. -/
theorem exists_multiple_of_valid (group : EdwardsLaws E) (points : PointLaws P E) {A : Xckey}
    (hvalid : P.cryptoCoreEd25519IsValidPoint A = true) :
    ∃ a : Nat, E.encode (a • E.basepoint) = A := by
  obtain ⟨T, rfl, hT⟩ := points.main_subgroup A hvalid
  obtain ⟨a, rfl⟩ := group.exists_nsmul_basepoint hT
  exact ⟨a, rfl⟩

/-! ### Genuine signatures -/

/-- The signature of whoever knows the logarithm `a` of the point, with the nonce `r`. -/
def genuine (P : Primitives) (E : EdwardsGroup) (a r : Nat) (M : Key n) : Key 64 :=
  let R := E.encode (r • E.basepoint)
  let A := E.encode (a • E.basepoint)
  kconcatEqual R (Key.ofNat 32 ((r + (challenge P R A M).toNat * a) % groupOrder))

theorem sigR_genuine (a r : Nat) (M : Key n) :
    sigR (genuine P E a r M) = E.encode (r • E.basepoint) := sigR_kconcatEqual _ _

theorem sigS_genuine (a r : Nat) (M : Key n) :
    (sigS (genuine P E a r M)).toNat
      = (r + (challenge P (E.encode (r • E.basepoint)) (E.encode (a • E.basepoint)) M).toNat * a)
          % groupOrder := sigS_scalar _ _

theorem genuine_of_logarithm (group : EdwardsLaws E) {mkPub : Xckey} {a : Nat}
    (hu : mkPub.toNat < fieldPrime)
    (hA : MontgomeryY fieldPrime mkPub.toNat (E.encode (a • E.basepoint)).toNat)
    (hvalid : P.cryptoCoreEd25519IsValidPoint (E.encode (a • E.basepoint)) = true) (r : Nat)
    (M : Key n) : Genuine P E mkPub M (genuine P E a r M) := by
  refine ⟨hu, ?_, _, a • E.basepoint, hA, hvalid, rfl, ?_⟩
  · rw [sigS_genuine]
    exact (Nat.mod_lt _ (by decide)).trans groupOrder_lt
  · rw [sigS_genuine, sigR_genuine, group.sub_nsmul_eq (Nat.mod_modEq _ _)]

/-- Under every key whose quotient modulo the field prime is a valid point, every message has
a genuine signature. -/
theorem exists_genuine (group : EdwardsLaws E) (points : PointLaws P E) {mkPub : Xckey}
    (hu : mkPub.toNat < fieldPrime) (hpoint : QuotientIsPoint P fieldPrime mkPub) (M : Key n) :
    ∃ rcs, Genuine P E mkPub M rcs := by
  obtain ⟨A, hA, hvalid⟩ := hpoint
  obtain ⟨a, rfl⟩ := exists_multiple_of_valid group points hvalid
  exact ⟨_, genuine_of_logarithm group hu hA hvalid 1 M⟩

/-- Under every key whose quotient modulo the group order is a valid point, every message has
an accepted signature that is not genuine: a forgery whose first half encodes no multiple of
the base point. -/
theorem exists_accepted_not_genuine (laws : ScalarLaws P) (group : EdwardsLaws E)
    (points : PointLaws P E) {mkPub : Xckey} (hu : mkPub.toNat < fieldPrime)
    (hpoint : QuotientIsPoint P groupOrder mkPub) (M : Key n) :
    ∃ rcs, verify32 P mkPub M rcs = .ok true ∧ ¬ Genuine P E mkPub M rcs := by
  obtain ⟨A, hA, hvalid⟩ := hpoint
  obtain ⟨R, hlt, hR⟩ := group.exists_not_encoding
  refine ⟨forged P A R M, forged_accepted laws M hu hA hvalid hlt, ?_⟩
  rintro ⟨-, -, A', T, -, hvalid', hT, hequation⟩
  obtain ⟨a, ha⟩ := exists_multiple_of_valid group points hvalid'
  obtain rfl : a • E.basepoint = T := group.encode_injective (ha.trans hT.symm)
  obtain ⟨r, hr⟩ := group.exists_sub_nsmul a
    (challenge P (sigR (forged P A R M)) A' M).toNat (sigS (forged P A R M)).toNat
  rw [hr, sigR_forged] at hequation
  exact hR r hequation

/-! ### Exactness -/

theorem subgroupPrimitives_pointLaws :
    PointLaws Reference.subgroupPrimitives Reference.curveGroup where
  main_subgroup A hvalid := by
    simp only [Reference.subgroupPrimitives, decide_eq_true_eq] at hvalid
    obtain ⟨T, -, hT, hA⟩ := hvalid
    exact ⟨T, hA, hT⟩

/-- **Exactness, exactly.** Under a given key, `verify32` is right about every signature of a
message if and only if the key is out of bounds, or its quotient is a valid point neither
modulo the group order nor modulo the field prime. -/
theorem exact_iff (laws : ScalarLaws P) (group : EdwardsLaws E) (points : PointLaws P E)
    (mkPub : Xckey) (M : Key n) :
    (∀ rcs, verify32 P mkPub M rcs = .ok true ↔ Genuine P E mkPub M rcs) ↔
      fieldPrime ≤ mkPub.toNat ∨
        ¬ QuotientIsPoint P groupOrder mkPub ∧ ¬ QuotientIsPoint P fieldPrime mkPub := by
  constructor
  · intro hexact
    by_cases hu : mkPub.toNat < fieldPrime
    · right
      have haccept : ¬ QuotientIsPoint P groupOrder mkPub := by
        intro hpoint
        obtain ⟨rcs, hrcs, hnot⟩ := exists_accepted_not_genuine laws group points hu hpoint M
        exact hnot ((hexact rcs).mp hrcs)
      refine ⟨haccept, ?_⟩
      intro hpoint
      obtain ⟨rcs, hrcs⟩ := exists_genuine group points hu hpoint M
      obtain ⟨-, -, A, hA⟩ := (verify32_eq_true_iff laws).mp ((hexact rcs).mpr hrcs)
      exact haccept ⟨A, hA.quotient, hA.valid⟩
    · exact Or.inl (Nat.not_lt.mp hu)
  · intro hcond rcs
    -- Under such a key neither side ever holds.
    rw [verify32_eq_true_iff laws, Genuine]
    rcases hcond with hu | ⟨hinteger, hgroup⟩
    · simp only [Nat.not_lt.mpr hu, false_and]
    · have hno : ¬ ∃ A, IntegerRelation P mkPub M rcs A :=
        fun ⟨A, hA⟩ => hinteger ⟨A, hA.quotient, hA.valid⟩
      have hno' : ¬ ∃ A T, GroupRelation P E mkPub M rcs A T :=
        fun ⟨A, _, hA⟩ => hgroup ⟨A, hA.quotient, hA.valid⟩
      simp only [hno, hno', and_false]

/-- On the curve, under the public key of a generated pair. -/
theorem exact_iff_honestPair :
    (∀ rcs, verify32 Reference.subgroupPrimitives honestPair.Public honestMessage rcs
          = .ok true ↔
        Genuine Reference.subgroupPrimitives Reference.curveGroup honestPair.Public
          honestMessage rcs) ↔
      fieldPrime ≤ honestPair.Public.toNat ∨
        ¬ QuotientIsPoint Reference.subgroupPrimitives groupOrder honestPair.Public ∧
          ¬ QuotientIsPoint Reference.subgroupPrimitives fieldPrime honestPair.Public :=
  exact_iff Reference.subgroupPrimitives_scalarLaws Reference.edwardsLaws
    subgroupPrimitives_pointLaws honestPair.Public honestMessage

/-- A signature that satisfies the group equation is rejected. -/
theorem genuine_rejected :
    Genuine Reference.primitives Reference.edwards honestPair.Public honestMessage
        honestSignature ∧
      verify32 Reference.primitives honestPair.Public honestMessage honestSignature
        = .ok false := by
  refine ⟨⟨by decide +kernel, by decide +kernel,
    (calculateKeyPair Reference.primitives honestPair.Private).Public,
    Reference.multiple (2 ^ 254 + 8), ?_⟩, by decide +kernel⟩
  refine ⟨by decide +kernel, by decide +kernel, ?_, ?_⟩
  · rw [Reference.encode_multiple]
    decide +kernel
  · rw [Reference.sub_multiple, Reference.encode_multiple]
    decide +kernel

end Gcrypt.XedDSA
