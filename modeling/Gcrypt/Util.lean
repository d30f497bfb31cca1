import Gcrypt.Primitives

/-!
# Gcrypt.Util

`util.hpp`: comparing, copying and concatenating keys, key identifiers, and the
encoder and loader of the byte blobs that reach the store.

Every function is written as the memory operations of the source (`overwrite` is
`memcpy`); the lemmas next to it say what it computes.
-/

namespace Gcrypt

open Bytes (overwrite slice)

variable {n m : Nat}

/-- `kmatch`: `std::equal` on both keys. -/
def kmatch (k1 k2 : Key n) : Bool := k1.bytes == k2.bytes

theorem kmatch_eq_true {k1 k2 : Key n} : kmatch k1 k2 = true ↔ k1 = k2 := by
  simp only [kmatch, beq_iff_eq]
  exact ⟨Key.ext, fun h => by rw [h]⟩

/-! ### Copies -/

/-- `kcpy(k)`. -/
def kcpy (k : Key n) : Key n :=
  ⟨overwrite (List.replicate n 0) 0 k.bytes, by simp⟩

@[simp] theorem kcpy_eq (k : Key n) : kcpy k = k := by
  apply Key.ext
  have h := Bytes.overwrite_append [] k.bytes (List.replicate n 0) (by simp)
  simpa [kcpy] using h

/-- `kcpy<Take>(k, offset)`: the `take` bytes from `offset` on. -/
def kcpyFrom (take : Nat) (k : Key n) (offset : Nat) : Key take :=
  ⟨overwrite (List.replicate take 0) 0 (slice k.bytes offset take), by simp⟩

theorem kcpyFrom_bytes {take offset : Nat} (k : Key n) (h : offset + take ≤ n) :
    (kcpyFrom take k offset).bytes = slice k.bytes offset take := by
  have hlen : (slice k.bytes offset take).length = take :=
    Bytes.length_slice (by rwa [k.size_eq])
  have hcopy := Bytes.overwrite_append [] (slice k.bytes offset take) (List.replicate take 0)
    (by simp [hlen])
  simpa [kcpyFrom, hlen] using hcopy

/-! ### Concatenation -/

/-- `kconcat` of two keys of one size. -/
def kconcatEqual (k1 k2 : Key n) : Key (2 * n) :=
  ⟨overwrite (overwrite (List.replicate (2 * n) 0) 0 k1.bytes) n k2.bytes, by simp⟩

/-- `kconcat` of two keys of different sizes. -/
def kconcatTwo (k1 : Key n) (k2 : Key m) : Key (n + m) :=
  ⟨overwrite (overwrite (List.replicate (n + m) 0) 0 k1.bytes) n k2.bytes, by simp⟩

/-- A key together with its size, as one argument of a parameter pack. -/
abbrev AnyKey := (n : Nat) × Key n

/-- One step of the fold over the pack: copy the key behind the running offset. -/
def kconcatStep (out : List UInt8 × Nat) (k : AnyKey) : List UInt8 × Nat :=
  (overwrite out.1 out.2 k.2.bytes, out.2 + k.1)

theorem kconcatStep_foldl_length (ks : List AnyKey) (out : List UInt8 × Nat) :
    (ks.foldl kconcatStep out).1.length = out.1.length := by
  induction ks generalizing out with
  | nil => rfl
  | cons k ks ih => rw [List.foldl_cons, ih]; simp [kconcatStep]

/-- `kconcat(keys...)`: all keys of the pack, one behind the other. -/
def kconcat (keys : List AnyKey) : Key (keys.map (·.1)).sum :=
  ⟨(keys.foldl kconcatStep (List.replicate (keys.map (·.1)).sum 0, 0)).1,
    by rw [kconcatStep_foldl_length]; simp⟩

/-- Where the `i`-th key of a pack lies in its encoding. -/
def offsetOf (keys : List AnyKey) (i : Nat) : Nat := ((keys.take i).map (·.1)).sum

/-- Two copies into a zeroed buffer of exactly their total length. -/
theorem overwrite_pair (k1 k2 : List UInt8) :
    overwrite (overwrite (List.replicate (k1.length + k2.length) 0) 0 k1) k1.length k2
      = k1 ++ k2 := by
  have h1 := Bytes.overwrite_append [] k1 (List.replicate (k1.length + k2.length) 0) (by simp)
  simp only [List.nil_append, List.length_nil, List.drop_replicate,
    Nat.add_sub_cancel_left] at h1
  rw [h1, Bytes.overwrite_append k1 k2 _ (by simp)]
  simp

@[simp] theorem kconcatTwo_bytes (k1 : Key n) (k2 : Key m) :
    (kconcatTwo k1 k2).bytes = k1.bytes ++ k2.bytes := by
  have h := overwrite_pair k1.bytes k2.bytes
  rwa [k1.size_eq, k2.size_eq] at h

@[simp] theorem kconcatEqual_bytes (k1 k2 : Key n) :
    (kconcatEqual k1 k2).bytes = k1.bytes ++ k2.bytes := by
  have h := overwrite_pair k1.bytes k2.bytes
  rwa [k1.size_eq, k2.size_eq, ← Nat.two_mul] at h

/-- The fold has laid out the keys seen so far, and the rest is still zero. -/
theorem kconcatStep_foldl (ks : List AnyKey) (done : List UInt8) :
    (ks.foldl kconcatStep (done ++ List.replicate (ks.map (·.1)).sum 0, done.length)).1
      = done ++ (ks.map (·.2.bytes)).flatten := by
  induction ks generalizing done with
  | nil => simp
  | cons k ks ih =>
    have hstep : kconcatStep (done ++ List.replicate ((k :: ks).map (·.1)).sum 0, done.length) k
        = (done ++ k.2.bytes ++ List.replicate (ks.map (·.1)).sum 0,
            (done ++ k.2.bytes).length) := by
      simp only [kconcatStep, List.map_cons, List.sum_cons, List.length_append, Key.length_bytes]
      rw [Bytes.overwrite_append _ _ _ (by simp)]
      simp
    rw [List.foldl_cons, hstep, ih]
    simp

@[simp] theorem kconcat_bytes (keys : List AnyKey) :
    (kconcat keys).bytes = (keys.map (·.2.bytes)).flatten := by
  simpa [kconcat] using kconcatStep_foldl keys []

/-- Every key of a pack is read back at its offset. -/
theorem kcpyFrom_kconcat (keys : List AnyKey) {i : Nat} (hi : i < keys.length) :
    kcpyFrom keys[i].1 (kconcat keys) (offsetOf keys i) = keys[i].2 := by
  have hsizes : (keys.take i).map (·.1)
      = ((keys.map (·.2.bytes)).take i).map List.length := by
    rw [← List.map_take, List.map_map]
    exact List.map_congr_left fun k _ => k.2.size_eq.symm
  have hslice := Bytes.slice_flatten (keys.map (·.2.bytes)) (i := i) (by simpa using hi)
  rw [← hsizes, List.getElem_map, keys[i].2.size_eq] at hslice
  have hend : offsetOf keys i + keys[i].1 ≤ (keys.map (·.1)).sum := by
    conv_rhs => rw [← List.take_append_drop i keys]
    rw [List.map_append, List.sum_append, List.drop_eq_getElem_cons hi, List.map_cons,
      List.sum_cons, offsetOf]
    omega
  apply Key.ext
  rw [kcpyFrom_bytes _ hend, kconcat_bytes, offsetOf, hslice]

/-- Splitting a concatenation where it was joined gives back both halves. -/
theorem kcpyFrom_kconcatEqual (k1 k2 : Key n) :
    kcpyFrom n (kconcatEqual k1 k2) 0 = k1 ∧ kcpyFrom n (kconcatEqual k1 k2) n = k2 := by
  constructor
  · apply Key.ext
    rw [kcpyFrom_bytes _ (by omega), kconcatEqual_bytes]
    simpa using Bytes.slice_append_left k1.bytes k2.bytes
  · apply Key.ext
    rw [kcpyFrom_bytes _ (by omega), kconcatEqual_bytes]
    simpa using Bytes.slice_append_right k1.bytes k2.bytes

/-! ### Identifiers -/

/-- `keyid`: the four-byte hash of a public key. -/
def keyid (P : Primitives) (publicKey : Key n) : UInt32 := P.cryptoGenerichash publicKey.bytes

/-! ### Blobs -/

/-- A `std::vector<uint8_t>`: the bytes it has reserved, of which the first `size`
are its elements. -/
structure ByteVector where
  storage : List UInt8
  size : Nat
  size_le : size ≤ storage.length

namespace ByteVector

/-- `std::vector<uint8_t> out{}`. -/
def empty : ByteVector := ⟨[], 0, Nat.le_refl 0⟩

/-- `reserve(capacity)`: more storage, the same elements. -/
def reserve (v : ByteVector) (capacity : Nat) : ByteVector where
  storage := v.storage ++ List.replicate (capacity - v.storage.length) 0
  size := v.size
  size_le := by
    have := v.size_le
    rw [List.length_append]
    omega

/-- `std::copy(src.begin(), src.end(), out.begin() + offset)`: writes through the
iterator, whatever the number of elements. -/
def copyTo (v : ByteVector) (offset : Nat) (src : List UInt8) : ByteVector where
  storage := overwrite v.storage offset src
  size := v.size
  size_le := by rw [Bytes.length_overwrite]; exact v.size_le

/-- The elements, `[begin, begin + size)`: what a `std::span` of the vector sees. -/
def elements (v : ByteVector) : List UInt8 := v.storage.take v.size

@[simp] theorem size_copyTo (v : ByteVector) (offset : Nat) (src : List UInt8) :
    (v.copyTo offset src).size = v.size := rfl

@[simp] theorem size_reserve (v : ByteVector) (capacity : Nat) :
    (v.reserve capacity).size = v.size := rfl

end ByteVector

/-- One step of the fold in `key_bytes`. -/
def keyBytesStep (out : ByteVector × Nat) (k : AnyKey) : ByteVector × Nat :=
  (out.1.copyTo out.2 k.2.bytes, out.2 + k.1)

/-- `key_bytes(keys...)`: reserve room for all keys, copy them in, return a span of
the vector. -/
def keyBytes (keys : List AnyKey) : List UInt8 :=
  (keys.foldl keyBytesStep (ByteVector.empty.reserve (keys.map (·.1)).sum, 0)).1.elements

theorem size_keyBytesStep_foldl (ks : List AnyKey) (out : ByteVector × Nat) :
    (ks.foldl keyBytesStep out).1.size = out.1.size := by
  induction ks generalizing out with
  | nil => rfl
  | cons k ks ih => rw [List.foldl_cons, ih]; rfl

/-- **The encoder returns no bytes.** The vector is only reserved, never resized,
so the span of it is empty whatever was copied into its storage. -/
theorem keyBytes_eq_nil (keys : List AnyKey) : keyBytes keys = [] := by
  rw [keyBytes, ByteVector.elements, size_keyBytesStep_foldl]
  rfl

/-- The number of values of a `std::size_t`. -/
def sizeTRange : Nat := 2 ^ 64

/-- `load_keyb(bytes, ref, offset)`: whether the key was loaded, and the key. The
sum in the bounds test wraps, and a copy past the end of the buffer has no
defined result. -/
def loadKeyb (bytes : List UInt8) (ref : Key n) (offset : Nat) :
    Except Fault (Bool × Key n) :=
  if (n + offset) % sizeTRange > bytes.length then
    .ok (false, ref)
  else if h : offset + n ≤ bytes.length then
    .ok (true, ⟨slice bytes offset n, Bytes.length_slice h⟩)
  else
    .error .undefinedBehaviour

/-- `load_keyb_s(bytes, ref, offset)`: as `load_keyb`, and zero the first `_Size`
bytes of the buffer on success. Returns also the buffer as the call leaves it. -/
def loadKeybS (bytes : List UInt8) (ref : Key n) (offset : Nat) :
    Except Fault (Bool × Key n × List UInt8) :=
  match loadKeyb bytes ref offset with
  | .error e => .error e
  | .ok (false, ref) => .ok (false, ref, bytes)
  | .ok (true, ref) => .ok (true, ref, overwrite bytes 0 (List.replicate n 0))

/-- Where the sum does not wrap, the loader fails exactly on a short buffer, and
then leaves the key as it was. -/
theorem loadKeyb_of_short {bytes : List UInt8} {ref : Key n} {offset : Nat}
    (hw : n + offset < sizeTRange) (h : bytes.length < n + offset) :
    loadKeyb bytes ref offset = .ok (false, ref) := by
  rw [loadKeyb, Nat.mod_eq_of_lt hw, if_pos h]

/-- A region inside the buffer is always read: a sum that wraps only gets smaller. -/
theorem loadKeyb_of_long {bytes : List UInt8} {ref : Key n} {offset : Nat}
    (h : offset + n ≤ bytes.length) :
    loadKeyb bytes ref offset
      = .ok (true, ⟨slice bytes offset n, Bytes.length_slice h⟩) := by
  have hwrap : (n + offset) % sizeTRange ≤ n + offset := Nat.mod_le _ _
  rw [loadKeyb, if_neg (by omega), dif_pos h]

theorem loadKeybS_of_short {bytes : List UInt8} {ref : Key n} {offset : Nat}
    (hw : n + offset < sizeTRange) (h : bytes.length < n + offset) :
    loadKeybS bytes ref offset = .ok (false, ref, bytes) := by
  rw [loadKeybS, loadKeyb_of_short hw h]

theorem loadKeybS_of_long {bytes : List UInt8} {ref : Key n} {offset : Nat}
    (h : offset + n ≤ bytes.length) :
    loadKeybS bytes ref offset
      = .ok (true, ⟨slice bytes offset n, Bytes.length_slice h⟩,
          overwrite bytes 0 (List.replicate n 0)) := by
  rw [loadKeybS, loadKeyb_of_long h]

end Gcrypt
