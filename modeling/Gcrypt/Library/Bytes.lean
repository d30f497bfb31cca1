import Mathlib.Data.Nat.Digits.Defs
import Mathlib.Tactic.Ring

/-!
# Gcrypt.Library.Bytes

Byte strings: their value as **little-endian numbers**, and the two memory
operations a C-style program performs on them.

* `toNat`/`ofNat` read and write a number least significant byte first
  (`toNat_ofNat`), so a string of `n` bytes *is* a number below `256 ^ n`
  (`toNat_lt`, `toNat_inj`).
* `overwrite` is `memcpy` into a buffer of fixed length; `slice` reads a region
  back. Neither ever changes the length of the buffer it works on.

Nothing here knows about any particular program.
-/

namespace Bytes

/-! ### Little-endian numbers -/

/-- The number a byte string denotes, least significant byte first. -/
def toNat : List UInt8 → Nat
  | [] => 0
  | b :: bs => b.toNat + 256 * toNat bs

/-- The `n` least significant bytes of a number, least significant first. -/
def ofNat : Nat → Nat → List UInt8
  | 0, _ => []
  | n + 1, v => UInt8.ofNat (v % 256) :: ofNat n (v / 256)

@[simp] theorem toNat_nil : toNat [] = 0 := rfl
@[simp] theorem toNat_cons (b : UInt8) (bs : List UInt8) :
    toNat (b :: bs) = b.toNat + 256 * toNat bs := rfl

@[simp] theorem length_ofNat (n v : Nat) : (ofNat n v).length = n := by
  induction n generalizing v with
  | zero => rfl
  | succ n ih => simp [ofNat, ih]

theorem ofNat_add (n k v : Nat) : ofNat (n + k) v = ofNat n v ++ ofNat k (v / 256 ^ n) := by
  induction n generalizing v with
  | zero => simp [ofNat]
  | succ n ih =>
    rw [Nat.succ_add, ofNat, ih, ofNat, List.cons_append, Nat.div_div_eq_div_mul,
      ← Nat.pow_succ']

/-- The value is Mathlib's `Nat.ofDigits` in base 256. -/
theorem toNat_eq_ofDigits (bs : List UInt8) :
    toNat bs = Nat.ofDigits 256 (bs.map UInt8.toNat) := by
  induction bs with
  | nil => rfl
  | cons b bs ih => rw [toNat_cons, List.map_cons, Nat.ofDigits_cons, ih]

/-- A string of `n` bytes denotes a number below `256 ^ n`. -/
theorem toNat_lt (bs : List UInt8) : toNat bs < 256 ^ bs.length := by
  have hdigits : ∀ d ∈ bs.map UInt8.toNat, d < 256 := by
    intro d hd
    obtain ⟨b, -, rfl⟩ := List.mem_map.mp hd
    exact b.toNat_lt
  simpa [toNat_eq_ofDigits] using Nat.ofDigits_lt_base_pow_length (by decide) hdigits

theorem toNat_ofNat (n v : Nat) : toNat (ofNat n v) = v % 256 ^ n := by
  induction n generalizing v with
  | zero => simp [ofNat, Nat.mod_one]
  | succ n ih =>
    rw [ofNat, toNat_cons, ih, UInt8.toNat_ofNat', Nat.mod_mod, Nat.pow_succ',
      Nat.mod_mul]

/-- At a fixed length the value determines the string. -/
theorem toNat_inj {as bs : List UInt8} (hlen : as.length = bs.length)
    (h : toNat as = toNat bs) : as = bs := by
  rw [toNat_eq_ofDigits, toNat_eq_ofDigits] at h
  have hmap : as.map UInt8.toNat = bs.map UInt8.toNat := by
    refine Nat.ofDigits_inj_of_len_eq (by decide) (by simpa using hlen) ?_ ?_ h
    · intro d hd
      obtain ⟨b, -, rfl⟩ := List.mem_map.mp hd
      exact b.toNat_lt
    · intro d hd
      obtain ⟨b, -, rfl⟩ := List.mem_map.mp hd
      exact b.toNat_lt
  exact (List.map_inj_right fun _ _ hab => UInt8.toNat_inj.mp hab).mp hmap

theorem toNat_append (as bs : List UInt8) :
    toNat (as ++ bs) = toNat as + 256 ^ as.length * toNat bs := by
  induction as with
  | nil => simp
  | cons a as ih =>
    rw [List.cons_append, toNat_cons, ih, toNat_cons, List.length_cons, Nat.pow_succ]
    ring

@[simp] theorem toNat_replicate_zero (n : Nat) : toNat (List.replicate n 0) = 0 := by
  induction n with
  | zero => rfl
  | succ n ih => rw [List.replicate_succ, toNat_cons, ih]; rfl

/-- The value split at byte `n`. -/
theorem toNat_take_add_drop (bs : List UInt8) {n : Nat} (h : n ≤ bs.length) :
    toNat (bs.take n) + 256 ^ n * toNat (bs.drop n) = toNat bs := by
  conv_rhs => rw [← List.take_append_drop n bs]
  rw [toNat_append, List.length_take_of_le h]

/-! ### Blocks of one size -/

theorem length_flatten_blocks {n : Nat} {bs : List (List UInt8)} (h : ∀ b ∈ bs, b.length = n) :
    bs.flatten.length = bs.length * n := by
  rw [List.length_flatten, List.map_eq_replicate_iff.mpr h, List.sum_replicate_nat]

/-- The bytes of a number, block by block. -/
theorem ofNat_mul (n k v : Nat) :
    ofNat (k * n) v = (List.range k).flatMap fun j => ofNat n (v / 256 ^ (j * n)) := by
  induction k with
  | zero => rw [Nat.zero_mul, List.range_zero, List.flatMap_nil, ofNat]
  | succ k ih =>
    rw [List.range_succ, List.flatMap_append, ← ih, Nat.succ_mul, ofNat_add,
      List.flatMap_singleton]

/-- Blocks of one size can be told apart in their concatenation, also their number. -/
theorem flatten_blocks_inj {n : Nat} (hn : 0 < n) {as bs : List (List UInt8)}
    (ha : ∀ a ∈ as, a.length = n) (hb : ∀ b ∈ bs, b.length = n) :
    as.flatten = bs.flatten ↔ as = bs := by
  constructor
  · intro h
    have hlen : as.length = bs.length := by
      have hflat := congrArg List.length h
      rw [length_flatten_blocks ha, length_flatten_blocks hb] at hflat
      exact Nat.eq_of_mul_eq_mul_right hn hflat
    rw [List.eq_iff_flatten_eq]
    refine ⟨h, ?_⟩
    rw [List.map_eq_replicate_iff.mpr ha, List.map_eq_replicate_iff.mpr hb, hlen]
  · rintro rfl
    rfl

/-! ### Memory operations -/

/-- `memcpy(dst + off, src, src.length)`; bytes that would fall behind the end of
the buffer are dropped, so the length never changes. -/
def overwrite (dst : List UInt8) (off : Nat) (src : List UInt8) : List UInt8 :=
  dst.take off ++ src.take (dst.length - off) ++ dst.drop (off + src.length)

@[simp] theorem length_overwrite (dst src : List UInt8) (off : Nat) :
    (overwrite dst off src).length = dst.length := by
  simp only [overwrite, List.length_append, List.length_take, List.length_drop]
  omega

/-- Filling a buffer from the left: what lies in front of the cursor is kept, the
bytes copied are appended to it, and the rest of the buffer is untouched. -/
theorem overwrite_append (done src rest : List UInt8) (hlen : src.length ≤ rest.length) :
    overwrite (done ++ rest) done.length src = done ++ src ++ rest.drop src.length := by
  have hroom : src.take ((done ++ rest).length - done.length) = src := by
    rw [List.length_append, Nat.add_sub_cancel_left]
    exact List.take_of_length_le hlen
  rw [overwrite, hroom, List.take_left, List.drop_append]
  simp

/-- The region `[off, off + n)` of a buffer. -/
def slice (bs : List UInt8) (off n : Nat) : List UInt8 := (bs.drop off).take n

theorem length_slice {bs : List UInt8} {off n : Nat} (h : off + n ≤ bs.length) :
    (slice bs off n).length = n := by
  simp only [slice, List.length_take, List.length_drop]
  omega

/-- Inside the buffer a copy changes exactly the bytes it covers. -/
theorem getElem?_overwrite {dst src : List UInt8} {off : Nat}
    (h : off + src.length ≤ dst.length) (i : Nat) :
    (overwrite dst off src)[i]?
      = if off ≤ i ∧ i < off + src.length then src[i - off]? else dst[i]? := by
  have hsrc : src.take (dst.length - off) = src := List.take_of_length_le (by omega)
  have hoff : (dst.take off).length = off := List.length_take_of_le (by omega)
  rw [overwrite, hsrc]
  by_cases hlo : i < off
  · rw [List.append_assoc, List.getElem?_append_left (by omega), List.getElem?_take_of_lt hlo,
      if_neg (by omega)]
  · by_cases hhi : i < off + src.length
    · rw [List.getElem?_append_left (by rw [List.length_append]; omega),
        List.getElem?_append_right (by omega), hoff, if_pos ⟨by omega, hhi⟩]
    · rw [List.getElem?_append_right (by rw [List.length_append]; omega), List.getElem?_drop,
        if_neg (by omega), List.length_append, hoff]
      congr 1
      omega

@[simp] theorem slice_append_left (as bs : List UInt8) : slice (as ++ bs) 0 as.length = as := by
  simp [slice]

@[simp] theorem slice_append_right (as bs : List UInt8) :
    slice (as ++ bs) as.length bs.length = bs := by
  simp [slice]

/-- Each part of a concatenation lies behind the parts before it. -/
theorem slice_flatten (parts : List (List UInt8)) {i : Nat} (hi : i < parts.length) :
    slice parts.flatten ((parts.take i).map List.length).sum parts[i].length = parts[i] := by
  have hsplit : parts.flatten
      = (parts.take i).flatten ++ (parts[i] ++ (parts.drop (i + 1)).flatten) := by
    conv_lhs => rw [← List.take_append_drop i parts]
    rw [List.flatten_append, List.drop_eq_getElem_cons hi, List.flatten_cons]
  rw [slice, hsplit, ← List.length_flatten, List.drop_left, List.take_left]

end Bytes
