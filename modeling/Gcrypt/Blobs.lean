import Gcrypt.Publishing

/-!
# Gcrypt.Blobs

The blobs that reach the store: `key_bytes` writes them, `load_keyb` reads them back,
and `load_keyb_s` reads and wipes them.

* `RoundTrips` is the contract of the encoder with the loader. The encoder returns no
  bytes at all (`keyBytes_eq_nil`), so it is met for empty keys only (`roundTrips_iff`).
* `BoundsTested` is the contract of the loader's bounds test. The test adds two words, so
  what counts is whether the sum wraps back into the buffer (`boundsTested_iff`).
* `WipesExactly` is the contract of the wiping loader. The wipe starts at the front of
  the buffer, wherever the key was read (`loadKeybS_of_long`), so what counts is how
  the region wiped and the region read differ (`wipesExactly_iff`).
-/

namespace Gcrypt

open Effect Keygen
open Bytes (overwrite slice)

variable {P : Primitives} {n a b : Nat}

/-! ### The encoder -/

/-- `key_bytes` lays out all keys, and `load_keyb` finds each of them. -/
structure RoundTrips (keys : List AnyKey) : Prop where
  length : (keyBytes keys).length = (keys.map (·.1)).sum
  content : keyBytes keys = (keys.map (·.2.bytes)).flatten
  loads : ∀ (i : Nat) (hi : i < keys.length) (ref : Key keys[i].1),
    loadKeyb (keyBytes keys) ref (offsetOf keys i) = .ok (true, keys[i].2)

/-- The blob is `Public || Private`, and decodes to the pair. -/
structure HoldsPair (blob : Vkey) (pair : KeypairImpl Key Key a b) : Prop where
  layout : blob = pair.Public.bytes ++ pair.Private.bytes
  Public : ∀ ref : Key a, loadKeyb blob ref 0 = .ok (true, pair.Public)
  Private : ∀ ref : Key b, loadKeyb blob ref a = .ok (true, pair.Private)

/-- A pack of empty keys has all its keys at offset 0. -/
theorem offsetOf_of_empty {keys : List AnyKey} (h : ∀ k ∈ keys, k.1 = 0) (i : Nat) :
    offsetOf keys i = 0 := by
  rw [offsetOf, List.sum_eq_zero_iff]
  intro size hsize
  obtain ⟨k, hk, rfl⟩ := List.mem_map.mp hsize
  exact h k (List.mem_of_mem_take hk)

theorem bytes_of_empty {k : AnyKey} (h : k.1 = 0) : k.2.bytes = [] :=
  List.length_eq_zero_iff.mp (k.2.size_eq.trans h)

/-- The encoding is right exactly where there is nothing to encode. -/
theorem roundTrips_iff_empty (keys : List AnyKey) : RoundTrips keys ↔ ∀ k ∈ keys, k.1 = 0 := by
  constructor
  · intro h k hk
    have hsum : (keys.map (·.1)).sum = 0 := by
      rw [← h.length, keyBytes_eq_nil]
      rfl
    exact List.sum_eq_zero_iff.mp hsum _ (List.mem_map.mpr ⟨k, hk, rfl⟩)
  · intro h
    refine ⟨?_, ?_, ?_⟩
    · have hsum : offsetOf keys keys.length = 0 := offsetOf_of_empty h _
      rw [offsetOf, List.take_length] at hsum
      rw [hsum, keyBytes_eq_nil]
      rfl
    · rw [keyBytes_eq_nil, eq_comm, List.flatten_eq_nil_iff]
      intro bytes hbytes
      obtain ⟨k, hk, rfl⟩ := List.mem_map.mp hbytes
      exact bytes_of_empty (h k hk)
    · intro i hi ref
      have hk : keys[i].1 = 0 := h _ (List.getElem_mem hi)
      rw [offsetOf_of_empty h, keyBytes_eq_nil, loadKeyb_of_long (by simp [hk])]
      congr 2
      apply Key.ext
      rw [bytes_of_empty hk]
      simp [slice]

theorem not_holdsPair_nil (hsize : 0 < a + b) (pair : KeypairImpl Key Key a b) :
    ¬ HoldsPair [] pair := by
  intro h
  have hlen := congrArg List.length h.layout
  rw [List.length_append, pair.Public.size_eq, pair.Private.size_eq, List.length_nil] at hlen
  omega

/-- What `refill` stores with an X25519 key it returns. -/
theorem refillPreKey_stores {w w₁ : World} {k : Xcikey} (h : refillPreKey P w = .ok k w₁) :
    ∃ m, w₁.manager = some m ∧ m.prekeys k.identifier .prekey = some [] := by
  obtain ⟨pair, w₂, -, hstore, rfl⟩ := refillPreKey_eq_ok h
  rw [keyBytes_eq_nil] at hstore
  exact storeOneTimePrekey_accepted hstore

/-- What `refill` stores with an ML-KEM key it returns. -/
theorem refillQuantumPreKey_stores {priv : Xckey} {w w₁ : World} {k : Qsidkey}
    (h : refillQuantumPreKey P priv w = .ok k w₁) :
    ∃ m, w₁.manager = some m ∧ m.prekeys k.identifier .quantum = some [] := by
  obtain ⟨pair, w₂, w₃, -, hstore, rfl, hk⟩ := refillQuantumPreKey_eq_ok h
  rw [keyBytes_eq_nil] at hstore
  obtain ⟨m, hm, hpre⟩ := storeOneTimePrekey_accepted hstore
  rw [hk]
  exact ⟨m, hm, hpre⟩

/-- No blob that `make_lkb` or `refill` stores for a key it returns holds a key pair. -/
structure StoresNoPair (P : Primitives) : Prop where
  makeLkb : ∀ {deviceId : UInt32} {w w₁ : World} {lkb : LocalKeyBundle},
    makeLkb P deviceId w = .ok lkb w₁ → ∃ m blob, w₁.manager = some m ∧
      m.identity = some blob ∧ ∀ pair : Xckeypair, ¬ HoldsPair blob pair
  refillPreKey : ∀ {w w₁ : World} {k : Xcikey},
    refillPreKey P w = .ok k w₁ → ∃ m blob, w₁.manager = some m ∧
      m.prekeys k.identifier .prekey = some blob ∧ ∀ pair : Xckeypair, ¬ HoldsPair blob pair
  refillQuantumPreKey : ∀ {priv : Xckey} {w w₁ : World} {k : Qsidkey},
    refillQuantumPreKey P priv w = .ok k w₁ → ∃ m blob, w₁.manager = some m ∧
      m.prekeys k.identifier .quantum = some blob ∧ ∀ pair : Qkeypair, ¬ HoldsPair blob pair

theorem storesNoPair (P : Primitives) : StoresNoPair P where
  makeLkb h := by
    obtain ⟨m, hm, hid⟩ := makeLkb_identity h
    exact ⟨m, [], hm, hid, not_holdsPair_nil (by decide)⟩
  refillPreKey h := by
    obtain ⟨m, hm, hpre⟩ := refillPreKey_stores h
    exact ⟨m, [], hm, hpre, not_holdsPair_nil (by decide)⟩
  refillQuantumPreKey h := by
    obtain ⟨m, hm, hpre⟩ := refillQuantumPreKey_stores h
    exact ⟨m, [], hm, hpre, not_holdsPair_nil (by decide)⟩

/-- **The encoder, exactly.** A pack of keys survives the round trip if and only if all
its keys are empty, and no stored pair does. -/
theorem roundTrips_iff (P : Primitives) :
    (∀ keys : List AnyKey, keys ≠ [] → (RoundTrips keys ↔ ∀ k ∈ keys, k.1 = 0)) ∧
      StoresNoPair P :=
  ⟨fun keys _ => roundTrips_iff_empty keys, storesNoPair P⟩

/-- The halves of a pair of keys without a zero byte. -/
def filledPair : Xckeypair := ⟨filled 32 1, filled 32 2⟩

def filledKeys : List AnyKey := [⟨_, filledPair.Public⟩, ⟨_, filledPair.Private⟩]

theorem roundTrips_iff_filledKeys :
    (RoundTrips filledKeys ↔ ∀ k ∈ filledKeys, k.1 = 0) ∧
      ∃ lkb w₁ m blob, Gcrypt.makeLkb Reference.primitives 0 freshWorld = .ok lkb w₁ ∧
        w₁.manager = some m ∧ m.identity = some blob ∧
          ∀ pair : Xckeypair, ¬ HoldsPair blob pair := by
  have hall := roundTrips_iff Reference.primitives
  refine ⟨hall.1 filledKeys (by simp [filledKeys]), ?_⟩
  obtain ⟨lkb, w₁, h⟩ := makeLkb_returns reference_mlkimplKeypair 0
    (show freshWorld.manager = some _ from rfl) rfl
  obtain ⟨m, blob, hm, hid, hpair⟩ := hall.2.makeLkb h
  exact ⟨lkb, w₁, m, blob, h, hm, hid, hpair⟩

/-- Two keys of 32 bytes are encoded as no bytes. -/
theorem filledKeys_not_roundTrips : keyBytes filledKeys = [] ∧ ¬ RoundTrips filledKeys := by
  refine ⟨keyBytes_eq_nil _, ?_⟩
  intro h
  have hlen := h.length
  rw [keyBytes_eq_nil] at hlen
  revert hlen
  decide

/-! ### The bounds test -/

/-- `load_keyb` loads a key exactly where the region lies inside the buffer, never reads
outside the buffer, and leaves the key as it was where it returns `false`. -/
structure BoundsTested (bytes : List UInt8) (ref : Key n) (offset : Nat) : Prop where
  loads : (∃ key, loadKeyb bytes ref offset = .ok (true, key)) ↔ offset + n ≤ bytes.length
  in_bounds : loadKeyb bytes ref offset ≠ .error .undefinedBehaviour
  unchanged : ∀ key, loadKeyb bytes ref offset = .ok (false, key) → key = ref

/-- The copy leaves the buffer where the sum has wrapped back into its range. -/
theorem loadKeyb_eq_error_iff {bytes : List UInt8} {ref : Key n} {offset : Nat} :
    loadKeyb bytes ref offset = .error .undefinedBehaviour ↔
      bytes.length < offset + n ∧ (n + offset) % sizeTRange ≤ bytes.length := by
  by_cases htest : (n + offset) % sizeTRange > bytes.length
  · rw [loadKeyb, if_pos htest]
    exact iff_of_false (by simp) fun h => absurd h.2 (by omega)
  · by_cases hin : offset + n ≤ bytes.length
    · rw [loadKeyb_of_long hin]
      exact iff_of_false (by simp) fun h => absurd h.1 (by omega)
    · rw [loadKeyb, if_neg htest, dif_neg hin]
      exact iff_of_true rfl ⟨by omega, by omega⟩

/-- Nothing but the copy can go wrong. -/
theorem boundsTested_iff_in_bounds {bytes : List UInt8} {ref : Key n} {offset : Nat} :
    BoundsTested bytes ref offset ↔ loadKeyb bytes ref offset ≠ .error .undefinedBehaviour := by
  constructor
  · intro h
    exact h.in_bounds
  · intro hok
    by_cases htest : (n + offset) % sizeTRange > bytes.length
    · have hfalse : loadKeyb bytes ref offset = .ok (false, ref) := by rw [loadKeyb, if_pos htest]
      have hle : (n + offset) % sizeTRange ≤ n + offset := Nat.mod_le _ _
      rw [hfalse] at hok
      refine ⟨?_, by rw [hfalse]; exact hok, ?_⟩
      · rw [hfalse]
        exact iff_of_false (by simp) (by omega)
      · intro key hkey
        rw [hfalse] at hkey
        cases hkey
        rfl
    · have hin : offset + n ≤ bytes.length := by
        by_contra hout
        exact hok (loadKeyb_eq_error_iff.mpr ⟨by omega, by omega⟩)
      refine ⟨iff_of_true ⟨_, loadKeyb_of_long hin⟩ hin, hok, ?_⟩
      intro key hkey
      rw [loadKeyb_of_long hin] at hkey
      cases hkey

/-- **The bounds test, exactly**, over all sizes, lengths and offsets of a `size_t`. -/
theorem boundsTested_iff {bytes : List UInt8} (ref : Key n) {offset : Nat}
    (hn : n < sizeTRange) (hlen : bytes.length < sizeTRange) (hoffset : offset < sizeTRange) :
    BoundsTested bytes ref offset ↔
      n + offset < sizeTRange ∨ bytes.length + sizeTRange < n + offset := by
  rw [boundsTested_iff_in_bounds, ne_eq, loadKeyb_eq_error_iff]
  by_cases hwrap : n + offset < sizeTRange
  · rw [Nat.mod_eq_of_lt hwrap]
    omega
  · -- The sum wraps once.
    have hmod : (n + offset) % sizeTRange = n + offset - sizeTRange := by
      rw [Nat.mod_eq_sub_mod (by omega), Nat.mod_eq_of_lt (by omega)]
    rw [hmod]
    omega

theorem boundsTested_iff_lastOffset :
    BoundsTested (List.replicate 31 0) (Key.zero : Xckey) (2 ^ 64 - 1) ↔
      32 + (2 ^ 64 - 1) < sizeTRange ∨
        (List.replicate 31 (0 : UInt8)).length + sizeTRange < 32 + (2 ^ 64 - 1) :=
  boundsTested_iff Key.zero (by decide) (by decide) (by decide)

/-- At the last offset of all the test compares 31, so that it lets a buffer of 31 bytes
pass. The address of the copy wraps as well: it starts one byte before the buffer. -/
theorem lastOffset_not_boundsTested :
    loadKeyb (List.replicate 31 0) (Key.zero : Xckey) (2 ^ 64 - 1) = .error .undefinedBehaviour ∧
      ¬ BoundsTested (List.replicate 31 0) (Key.zero : Xckey) (2 ^ 64 - 1) := by
  have hcopy : loadKeyb (List.replicate 31 0) (Key.zero : Xckey) (2 ^ 64 - 1)
      = .error .undefinedBehaviour := loadKeyb_eq_error_iff.mpr (by decide)
  exact ⟨hcopy, fun h => h.in_bounds hcopy⟩

/-! ### The wiping loader -/

/-- The region `[offset, offset + n)` has been zeroed, and nothing else has changed. -/
structure Wiped (before after : List UInt8) (offset n : Nat) : Prop where
  length : after.length = before.length
  inside : ∀ i, offset ≤ i → i < offset + n → after[i]? = some 0
  outside : ∀ i, i < offset ∨ offset + n ≤ i → after[i]? = before[i]?

/-- `load_keyb_s` reads a region and zeroes this region, or refuses and changes nothing. -/
structure WipesExactly (bytes : List UInt8) (ref : Key n) (offset : Nat) : Prop where
  loads : ∀ h : offset + n ≤ bytes.length, ∃ after,
    loadKeybS bytes ref offset
      = .ok (true, ⟨slice bytes offset n, Bytes.length_slice h⟩, after) ∧
    Wiped bytes after offset n
  refuses : bytes.length < offset + n → loadKeybS bytes ref offset = .ok (false, ref, bytes)

/-- Inside the buffer: every byte that lies in only one of the region read and the region
wiped is zero already. Outside: the sum of size and offset does not wrap into range. -/
def WipeFits (n offset : Nat) (bytes : List UInt8) : Prop :=
  if offset + n ≤ bytes.length then
    ∀ i, ¬ (i < n ↔ offset ≤ i ∧ i < offset + n) → bytes[i]? = some 0
  else
    bytes.length < (n + offset) % sizeTRange

/-- What the wipe leaves of a buffer. -/
theorem getElem?_wipe {bytes : List UInt8} (h : n ≤ bytes.length) (i : Nat) :
    (overwrite bytes 0 (List.replicate n 0))[i]? = if i < n then some 0 else bytes[i]? := by
  rw [Bytes.getElem?_overwrite (by simpa using h)]
  by_cases hi : i < n
  · simp [hi]
  · simp [hi]

theorem wiped_iff {bytes : List UInt8} {offset : Nat} (h : offset + n ≤ bytes.length) :
    Wiped bytes (overwrite bytes 0 (List.replicate n 0)) offset n ↔
      ∀ i, ¬ (i < n ↔ offset ≤ i ∧ i < offset + n) → bytes[i]? = some 0 := by
  have hwipe (i : Nat) := getElem?_wipe (show n ≤ bytes.length by omega) i
  constructor
  · intro hw i hi
    have hat := hwipe i
    by_cases hin : i < n
    · rw [if_pos hin] at hat
      rw [← hat, hw.outside i (by omega)]
    · rw [if_neg hin] at hat
      rw [← hat]
      exact hw.inside i (by omega) (by omega)
  · intro hzero
    refine ⟨Bytes.length_overwrite _ _ _, ?_, ?_⟩
    · intro i hlo hhi
      rw [hwipe]
      split
      · rfl
      · exact hzero i (by omega)
    · intro i hi
      rw [hwipe]
      split
      · exact (hzero i (by omega)).symm
      · rfl

theorem wipesExactly_iff_fits (bytes : List UInt8) (ref : Key n) (offset : Nat) :
    WipesExactly bytes ref offset ↔ WipeFits n offset bytes := by
  unfold WipeFits
  by_cases h : offset + n ≤ bytes.length
  · have hload : loadKeybS bytes ref offset = .ok (true, _, _) := loadKeybS_of_long h
    rw [if_pos h, ← wiped_iff h]
    constructor
    · intro hexact
      obtain ⟨after, hafter, hwiped⟩ := hexact.loads h
      rw [hload] at hafter
      cases hafter
      exact hwiped
    · intro hwiped
      exact ⟨fun _ => ⟨_, hload, hwiped⟩, fun hshort => absurd h (by omega)⟩
  · rw [if_neg h]
    by_cases hwrap : bytes.length < (n + offset) % sizeTRange
    · have hload : loadKeybS bytes ref offset = .ok (false, ref, bytes) := by
        rw [loadKeybS, loadKeyb, if_pos hwrap]
      exact ⟨fun _ => hwrap, fun _ => ⟨fun hlong => absurd hlong h, fun _ => hload⟩⟩
    · have hload : loadKeybS bytes ref offset = .error .undefinedBehaviour := by
        rw [loadKeybS, loadKeyb, if_neg hwrap, dif_neg h]
      constructor
      · intro hexact
        have hfalse := hexact.refuses (by omega)
        rw [hload] at hfalse
        cases hfalse
      · intro hlt
        exact absurd hlt hwrap

/-- Both ways of loading the private half of `Public || Private` give the halves back and
leave zeros where the private half was. -/
structure LeavesNoPrivate (pub : Key a) (priv : Key b) : Prop where
  alone : ∀ ref : Key b, ∃ after,
    loadKeybS (pub.bytes ++ priv.bytes) ref a = .ok (true, priv, after) ∧
    ∀ i, a ≤ i → i < a + b → after[i]? = some 0
  inTurn : ∀ (ref : Key a) (ref' : Key b), ∃ between after,
    loadKeybS (pub.bytes ++ priv.bytes) ref 0 = .ok (true, pub, between) ∧
    loadKeybS between ref' a = .ok (true, priv, after) ∧
    ∀ i, a ≤ i → i < a + b → after[i]? = some 0

/-- Behind whatever lies in the first half, the private half is read as it is. -/
theorem loadKeybS_private (front : Key a) (priv ref : Key b) :
    loadKeybS (front.bytes ++ priv.bytes) ref a
      = .ok (true, priv, overwrite (front.bytes ++ priv.bytes) 0 (List.replicate b 0)) := by
  rw [loadKeybS_of_long (by simp)]
  have hslice := Bytes.slice_append_right front.bytes priv.bytes
  rw [front.size_eq, priv.size_eq] at hslice
  simp only [hslice]

theorem loadKeybS_public (pub ref : Key a) (priv : Key b) :
    loadKeybS (pub.bytes ++ priv.bytes) ref 0
      = .ok (true, pub, (Key.zero : Key a).bytes ++ priv.bytes) := by
  rw [loadKeybS_of_long (by simp)]
  have hslice := Bytes.slice_append_left pub.bytes priv.bytes
  have hwipe := Bytes.overwrite_append [] (List.replicate a 0) (pub.bytes ++ priv.bytes)
    (by simp)
  rw [pub.size_eq] at hslice
  simp only [List.nil_append, List.length_nil, List.length_replicate] at hwipe
  rw [hwipe, List.drop_left' pub.size_eq]
  simp only [hslice, Key.zero]

/-- The wipe covers the first `b` bytes of the buffer, so it misses the last `a` bytes
of the private half. -/
theorem privateGone_iff (front : Key a) (priv : Key b) :
    (∀ i, a ≤ i → i < a + b →
      (overwrite (front.bytes ++ priv.bytes) 0 (List.replicate b 0))[i]? = some 0) ↔
      ∀ x ∈ priv.bytes.drop (b - a), x = 0 := by
  have hat : ∀ j, (overwrite (front.bytes ++ priv.bytes) 0 (List.replicate b 0))[a + j]?
      = if a + j < b then some 0 else priv.bytes[j]? := by
    intro j
    rw [getElem?_wipe (by simp), List.getElem?_append_right (by simp), front.size_eq,
      Nat.add_sub_cancel_left]
  constructor
  · intro hzero x hx
    obtain ⟨j, hj, rfl⟩ := List.getElem_of_mem hx
    rw [List.length_drop, priv.size_eq] at hj
    have hj' := hzero (a + (b - a + j)) (by omega) (by omega)
    rw [hat, if_neg (by omega), List.getElem?_eq_getElem (by simp; omega)] at hj'
    rw [List.getElem_drop]
    exact Option.some.inj hj'
  · intro hzero i hlo hhi
    obtain ⟨j, rfl⟩ := Nat.exists_eq_add_of_le hlo
    rw [hat]
    split
    · rfl
    · rename_i hge
      have hlen : j < priv.bytes.length := by rw [priv.size_eq]; omega
      have hmem : priv.bytes[j] ∈ priv.bytes.drop (b - a) :=
        List.mem_drop_iff_getElem.mpr ⟨j - (b - a), by omega, by congr 1; omega⟩
      rw [List.getElem?_eq_getElem hlen, hzero _ hmem]

theorem leavesNoPrivate_iff (pub : Key a) (priv : Key b) :
    LeavesNoPrivate pub priv ↔ ∀ x ∈ priv.bytes.drop (b - a), x = 0 := by
  constructor
  · intro h
    obtain ⟨after, hafter, hgone⟩ := h.alone Key.zero
    rw [loadKeybS_private] at hafter
    cases hafter
    exact (privateGone_iff pub priv).mp hgone
  · intro hzero
    refine ⟨fun ref => ?_, fun ref ref' => ?_⟩
    · exact ⟨_, loadKeybS_private pub priv ref, (privateGone_iff pub priv).mpr hzero⟩
    · exact ⟨_, _, loadKeybS_public pub ref priv, loadKeybS_private Key.zero priv ref',
        (privateGone_iff Key.zero priv).mpr hzero⟩

/-- **The wiping loader, exactly.** -/
theorem wipesExactly_iff (bytes : List UInt8) (ref : Key n) (offset : Nat)
    (pub : Key a) (priv : Key b) :
    (WipesExactly bytes ref offset ↔ WipeFits n offset bytes) ∧
      (LeavesNoPrivate pub priv ↔ ∀ x ∈ priv.bytes.drop (b - a), x = 0) :=
  ⟨wipesExactly_iff_fits bytes ref offset, leavesNoPrivate_iff pub priv⟩

/-- Loading the private half of an identity blob wipes the public half, and leaves the
private half in the buffer. -/
theorem filledPair_not_wiped :
    loadKeybS (filledPair.Public.bytes ++ filledPair.Private.bytes) (Key.zero : Xckey) 32
        = .ok (true, filledPair.Private, List.replicate 32 0 ++ filledPair.Private.bytes) ∧
      ¬ WipesExactly (filledPair.Public.bytes ++ filledPair.Private.bytes) (Key.zero : Xckey) 32 ∧
      ¬ LeavesNoPrivate filledPair.Public filledPair.Private := by
  refine ⟨by decide, ?_, ?_⟩
  · intro h
    have hfits := (wipesExactly_iff_fits _ _ _).mp h
    rw [WipeFits, if_pos (by decide)] at hfits
    exact absurd (hfits 0 (by decide)) (by decide)
  · intro h
    exact absurd ((leavesNoPrivate_iff _ _).mp h 2 (by decide)) (by decide)

end Gcrypt
