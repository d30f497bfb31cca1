import Gcrypt.Signatures

/-!
# Gcrypt.Concatenation

`kconcat` and `kcpy` are inverse to each other: what `kconcat` lays out, `kcpy` reads
back at the running offsets (`kcpyFrom_kconcat`).

`util.hpp` has three overloads of `kconcat`. Which one a call reaches is decided by the
sizes of its arguments (`kconcatPair`), and makes no difference to the bytes: a pack is
laid out as by nested calls with two arguments (`kconcat_nested`).
-/

namespace Gcrypt

variable {n : Nat}

/-- The bytes of a key determine its size. -/
theorem anyKey_ext {k k' : AnyKey} (h : k.2.bytes = k'.2.bytes) : k = k' := by
  obtain ⟨n, k⟩ := k
  obtain ⟨n', k'⟩ := k'
  have hsize : n = n' := by rw [← k.size_eq, h, k'.size_eq]
  subst hsize
  have hkey : k = k' := Key.ext h
  rw [hkey]

/-- `kconcat(k1, k2)`: overload resolution prefers the overload for keys of one size. -/
def kconcatPair (k1 k2 : AnyKey) : AnyKey :=
  if h : k1.1 = k2.1 then ⟨2 * k2.1, kconcatEqual (h ▸ k1.2) k2.2⟩
  else ⟨k1.1 + k2.1, kconcatTwo k1.2 k2.2⟩

@[simp] theorem kconcatPair_bytes (k1 k2 : AnyKey) :
    (kconcatPair k1 k2).2.bytes = k1.2.bytes ++ k2.2.bytes := by
  obtain ⟨n, k1⟩ := k1
  obtain ⟨m, k2⟩ := k2
  by_cases h : n = m
  · subst h
    rw [kconcatPair, dif_pos rfl]
    exact kconcatEqual_bytes k1 k2
  · rw [kconcatPair, dif_neg h]
    exact kconcatTwo_bytes k1 k2

theorem kconcatPair_foldl_bytes (k : AnyKey) (ks : List AnyKey) :
    (ks.foldl kconcatPair k).2.bytes = ((k :: ks).map (·.2.bytes)).flatten := by
  induction ks generalizing k with
  | nil => simp
  | cons k' ks ih => simp [ih]

/-- The pack is laid out as by two-argument calls, nested to the left. -/
theorem kconcat_nested (k : AnyKey) (ks : List AnyKey) :
    (⟨_, kconcat (k :: ks)⟩ : AnyKey) = ks.foldl kconcatPair k := by
  refine anyKey_ext ?_
  rw [kconcat_bytes, kconcatPair_foldl_bytes]

/-- For two keys of one size both overloads lay out the same bytes. -/
theorem kconcatEqual_eq_kconcatTwo (k1 k2 : Key n) :
    (⟨2 * n, kconcatEqual k1 k2⟩ : AnyKey) = ⟨n + n, kconcatTwo k1 k2⟩ := by
  refine anyKey_ext ?_
  rw [kconcatEqual_bytes, kconcatTwo_bytes]

/-- The keys of a pack, their concatenation and its slices. -/
structure Concatenates (k : AnyKey) (ks : List AnyKey) : Prop where
  length : (kconcat (k :: ks)).bytes.length = ((k :: ks).map (·.1)).sum
  slices : ∀ (i : Nat) (hi : i < (k :: ks).length),
    kcpyFrom (k :: ks)[i].1 (kconcat (k :: ks)) (offsetOf (k :: ks) i) = (k :: ks)[i].2
  nested : (⟨_, kconcat (k :: ks)⟩ : AnyKey) = ks.foldl kconcatPair k

/-- **Concatenation and slicing are inverse**, for packs of any keys, and for the halves
of a signature. -/
theorem concatenates :
    (∀ (k : AnyKey) (ks : List AnyKey), Concatenates k ks) ∧
      (∀ {n : Nat} (k1 k2 : Key n),
        (⟨2 * n, kconcatEqual k1 k2⟩ : AnyKey) = ⟨n + n, kconcatTwo k1 k2⟩) ∧
      ∀ (P : Primitives) {n : Nat} (K : Xckey) (M : Key n) (Z : Key 64),
        XedDSA.sigR (XedDSA.sign32 P K M Z) = XedDSA.bpscale P (XedDSA.nonce P K M Z) ∧
          XedDSA.sigS (XedDSA.sign32 P K M Z)
            = P.cryptoCoreEd25519ScalarAdd (XedDSA.nonce P K M Z)
                (P.cryptoCoreEd25519ScalarMul
                  (XedDSA.challenge P (XedDSA.bpscale P (XedDSA.nonce P K M Z))
                    (XedDSA.calculateKeyPair P K).Public M)
                  (XedDSA.calculateKeyPair P K).Private) := by
  refine ⟨fun k ks => ?_, kconcatEqual_eq_kconcatTwo, fun P n K M Z => ?_⟩
  · exact {
      length := (kconcat (k :: ks)).size_eq
      slices := fun i hi => kcpyFrom_kconcat (k :: ks) hi
      nested := kconcat_nested k ks }
  · exact ⟨XedDSA.sigR_sign32 K M Z, XedDSA.sigS_sign32 K M Z⟩

end Gcrypt
