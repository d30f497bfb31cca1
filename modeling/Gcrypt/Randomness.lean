import Gcrypt.Authentication
import Gcrypt.KeyIds

/-!
# Gcrypt.Randomness

Which random bytes each key and each signature of a published bundle is made of.

`make_lkb` and `refill` are loops over generators that may fail and a store that may
refuse. `makeLkb_exact` and `refill_exact` say from the bytes to come and the verdicts to
come when they return, and what: every key and every signature nonce has a stretch of
bytes of its own, at an offset that depends on its position only.

From it follows when a foreign device accepts what a device publishes and refills
(`published_bundle_accepted_iff`): under the coincidence of XEdDSA only.
-/

namespace Gcrypt

open Effect Keygen

variable {P : Primitives}

/-! ### Drawing -/

/-- From `w` to `w'` exactly `n` random bytes were drawn, and the store is the same. -/
structure Drew (n : Nat) (w w' : World) : Prop where
  entropy : w'.entropy = (w.skip n).entropy
  manager : w'.manager = w.manager

theorem Drew.skip (w : World) (n : Nat) : Drew n w (w.skip n) := ⟨rfl, rfl⟩

theorem Drew.log {n : Nat} {w w' : World} (h : Drew n w w') (e : Event) : Drew n w (w'.log e) :=
  ⟨h.entropy, h.manager⟩

theorem skip_entropy_congr {w w' : World} (h : w'.entropy = w.entropy) (n : Nat) :
    (w'.skip n).entropy = (w.skip n).entropy := by
  funext i
  exact congrFun h (n + i)

theorem peek_congr {w w' : World} (h : w'.entropy = w.entropy) (n : Nat) :
    w'.peek n = w.peek n :=
  Key.ext (congrArg (fun e => (List.range n).map e) h)

theorem Drew.trans {n k : Nat} {w w₁ w₂ : World} (h : Drew n w w₁) (h' : Drew k w₁ w₂) :
    Drew (n + k) w w₂ := by
  refine ⟨?_, h'.manager.trans h.manager⟩
  rw [h'.entropy, skip_entropy_congr h.entropy, World.skip_skip]

/-- The KEM pair the next call generates, where the generator succeeds. -/
def nextKemPair (P : Primitives) (w : World) : Option Qkeypair :=
  (P.mlkimplKeypair (w.peek 64)).toOption

theorem nextKemPair_eq_some {w : World} {pair : Qkeypair} :
    nextKemPair P w = some pair ↔ P.mlkimplKeypair (w.peek 64) = .ok pair := by
  unfold nextKemPair
  cases P.mlkimplKeypair (w.peek 64) <;> simp [Except.toOption]

theorem nextKemPair_eq_none {w : World} :
    nextKemPair P w = none ↔ ∃ code, P.mlkimplKeypair (w.peek 64) = .error code := by
  unfold nextKemPair
  cases P.mlkimplKeypair (w.peek 64) <;> simp [Except.toOption]

theorem nextBoxPair_congr {w w' : World} (h : w'.entropy = w.entropy) :
    nextBoxPair P w' = nextBoxPair P w := by
  rw [nextBoxPair, nextBoxPair, peek_congr h]

theorem nextKemPair_congr {w w' : World} (h : w'.entropy = w.entropy) :
    nextKemPair P w' = nextKemPair P w := by
  rw [nextKemPair, nextKemPair, peek_congr h]

/-! ### Batches -/

section Batch

variable {α : Type}

/-- What depends on the random bytes to come, and on nothing else of the world. -/
def ReadsEntropy (f : World → Option α) : Prop :=
  ∀ {w w' : World}, w'.entropy = w.entropy → f w' = f w

/-- `xs` is what `f` makes of the first `n` stretches of `size` bytes from `w` on. -/
structure Batch (f : World → Option α) (size n : Nat) (w : World) (xs : List α) : Prop where
  length : xs.length = n
  entry : ∀ i < n, f (w.skip (size * i)) = xs[i]?

variable {f : World → Option α} {size n : Nat} {w w' : World} {xs xs' : List α}

theorem Batch.nil : Batch f size 0 w [] := ⟨rfl, fun i hi => absurd hi (Nat.not_lt_zero i)⟩

theorem Batch.congr (hf : ReadsEntropy f) (h : w'.entropy = w.entropy) :
    Batch f size n w' xs ↔ Batch f size n w xs := by
  have hentry (i : Nat) : f (w'.skip (size * i)) = f (w.skip (size * i)) :=
    hf (skip_entropy_congr h _)
  constructor
  · rintro ⟨hlen, hxs⟩
    exact ⟨hlen, fun i hi => (hentry i).symm.trans (hxs i hi)⟩
  · rintro ⟨hlen, hxs⟩
    exact ⟨hlen, fun i hi => (hentry i).trans (hxs i hi)⟩

theorem Batch.unique (h : Batch f size n w xs) (h' : Batch f size n w xs') : xs' = xs := by
  refine List.ext_getElem? fun i => ?_
  by_cases hi : i < n
  · exact (h'.entry i hi).symm.trans (h.entry i hi)
  · rw [List.getElem?_eq_none (by rw [h'.length]; omega),
      List.getElem?_eq_none (by rw [h.length]; omega)]

/-- A batch is its first stretch, and a batch of the rest. -/
theorem Batch.succ_iff (hf : ReadsEntropy f) {w₁ : World} (h : w₁.entropy = (w.skip size).entropy) :
    Batch f size (n + 1) w xs ↔
      ∃ x rest, xs = x :: rest ∧ f w = some x ∧ Batch f size n w₁ rest := by
  have hzero : f (w.skip (size * 0)) = f w :=
    hf (by funext i; exact congrArg w.entropy (by omega))
  have hshift (i : Nat) : f (w₁.skip (size * i)) = f (w.skip (size * (i + 1))) := by
    refine hf ?_
    rw [skip_entropy_congr h, World.skip_skip, Nat.mul_succ, Nat.add_comm]
  constructor
  · rintro ⟨hlen, hxs⟩
    cases xs with
    | nil => cases hlen
    | cons x rest =>
      have hfirst := hxs 0 (Nat.succ_pos n)
      rw [hzero] at hfirst
      refine ⟨x, rest, rfl, hfirst, Nat.succ.inj hlen, fun i hi => ?_⟩
      rw [hshift, hxs (i + 1) (by omega)]
      rfl
  · rintro ⟨x, rest, rfl, hfirst, hlen, hrest⟩
    refine ⟨by rw [List.length_cons, hlen], fun i hi => ?_⟩
    cases i with
    | zero => exact hzero.trans hfirst
    | succ i =>
      rw [← hshift, hrest i (by omega)]
      rfl

end Batch

/-! ### Generators -/

section ValueOrThrow

variable {α β : Type} {x : GcryptM (Except KeyGenError α)} {w w₁ : World}

theorem bind_valueOrThrow_of_ok {a : α} (h : (x >>= valueOrThrow) w = .ok a w₁)
    (f : α → GcryptM β) : (x >>= fun r => valueOrThrow r >>= f) w = f a w₁ := by
  obtain ⟨r, w₂, hr, hval⟩ := bind_eq_ok.mp h
  rw [bind_of_ok hr, bind_of_ok hval]

theorem bind_valueOrThrow_throws (h : Throws (x >>= valueOrThrow) w) (f : α → GcryptM β) :
    Throws (x >>= fun r => valueOrThrow r >>= f) w := by
  obtain ⟨e, w₂, he⟩ := h
  have hassoc : (x >>= fun r => valueOrThrow r >>= f) = (x >>= valueOrThrow) >>= f :=
    (bind_assoc _ _ _).symm
  rw [hassoc]
  exact ⟨e, w₂, bind_of_error he⟩

end ValueOrThrow

theorem makePair_drew (w : World) : ∃ w', Drew 32 w w' ∧
    (X25519.makePair P >>= valueOrThrow) w = .ok (nextBoxPair P w) w' :=
  ⟨_, (Drew.skip w 32).log _, bind_of_ok (X25519.makePair_apply P w)⟩

theorem makeIdPair_drew (w : World) : ∃ w', Drew 32 w w' ∧
    (X25519.makeIdPair P >>= valueOrThrow) w
      = .ok ⟨⟨(nextBoxPair P w).Public, keyid P (nextBoxPair P w).Public⟩,
          (nextBoxPair P w).Private⟩ w' := by
  have hmake : X25519.makeIdPair P w
      = .ok (.ok ⟨⟨(nextBoxPair P w).Public, keyid P (nextBoxPair P w).Public⟩,
          (nextBoxPair P w).Private⟩) ((w.skip 32).log (.boxKeypair (nextBoxPair P w))) :=
    bind_of_ok (cryptoBoxKeypair_apply P w)
  exact ⟨_, (Drew.skip w 32).log _, bind_of_ok hmake⟩

theorem mlkemMakePair_drew {w : World} {pair : Qkeypair} (h : nextKemPair P w = some pair) :
    ∃ w', Drew 64 w w' ∧ (Mlkem32.makePair P >>= valueOrThrow) w = .ok pair w' :=
  ⟨_, (Drew.skip w 64).log _, bind_of_ok (Mlkem32.makePair_of_ok P (nextKemPair_eq_some.mp h))⟩

theorem mlkemMakePair_throws {w : World} (h : nextKemPair P w = none) :
    Throws (Mlkem32.makePair P >>= valueOrThrow) w := by
  obtain ⟨code, hcode⟩ := nextKemPair_eq_none.mp h
  exact ⟨_, _, bind_of_ok (Mlkem32.makePair_of_error P hcode)⟩

theorem mlkemMakeIdPair_drew {w : World} {pair : Qkeypair} (h : nextKemPair P w = some pair) :
    ∃ w', Drew 64 w w' ∧ (Mlkem32.makeIdPair P >>= valueOrThrow) w
      = .ok ⟨⟨pair.Public, 0⟩, pair.Private⟩ w' := by
  have hgen := mlkimplKeypair_apply P w
  rw [nextKemPair_eq_some.mp h] at hgen
  have hmake : Mlkem32.makeIdPair P w
      = .ok (.ok ⟨⟨pair.Public, 0⟩, pair.Private⟩) ((w.skip 64).log (.mlkemKeypair pair)) :=
    bind_of_ok hgen
  exact ⟨_, (Drew.skip w 64).log _, bind_of_ok hmake⟩

theorem mlkemMakeIdPair_throws {w : World} (h : nextKemPair P w = none) :
    Throws (Mlkem32.makeIdPair P >>= valueOrThrow) w := by
  obtain ⟨code, hcode⟩ := nextKemPair_eq_none.mp h
  have hgen := mlkimplKeypair_apply P w
  rw [hcode] at hgen
  have hmake : Mlkem32.makeIdPair P w = .ok (.error .libraryError) (w.skip 64) :=
    bind_of_ok hgen
  exact ⟨_, _, bind_of_ok hmake⟩

/-! ### `make_lkb` -/

/-- The first `n` X25519 pairs from `w` on. -/
def boxPairs (P : Primitives) (w : World) (n : Nat) : List Xckeypair :=
  (List.range n).map fun i => nextBoxPair P (w.skip (32 * i))

theorem boxPairs_succ {w w₁ : World} (h : Drew 32 w w₁) (n : Nat) :
    boxPairs P w (n + 1) = nextBoxPair P w :: boxPairs P w₁ n := by
  unfold boxPairs
  rw [List.range_succ_eq_map, List.map_cons, List.map_map]
  refine congrArg₂ List.cons ?_ ?_
  · exact nextBoxPair_congr (by funext i; exact congrArg w.entropy (by omega))
  · refine List.map_congr_left fun i _ => ?_
    have hskip : (w₁.skip (32 * i)).entropy = (w.skip (32 * (i + 1))).entropy := by
      rw [skip_entropy_congr h.entropy, World.skip_skip]
      exact congrArg (fun k => (w.skip k).entropy) (by omega)
    exact (nextBoxPair_congr hskip).symm

theorem boxPairs_congr {w w' : World} (h : w'.entropy = w.entropy) (n : Nat) :
    boxPairs P w' n = boxPairs P w n :=
  List.map_congr_left fun _ _ => nextBoxPair_congr (skip_entropy_congr h _)

/-- The first loop always returns. -/
theorem fillOneTimePreKeys_drew (n : Nat) (map : UnorderedMap Xckeypair) (w : World) :
    ∃ w', Drew (32 * n) w w' ∧ fillOneTimePreKeys P n map w
      = .ok (insertAll (fun pair => keyid P pair.Public) (boxPairs P w n) map) w' := by
  induction n generalizing map w with
  | zero => exact ⟨w, ⟨by funext i; exact congrArg w.entropy (by omega), rfl⟩, rfl⟩
  | succ n ih =>
    obtain ⟨w₁, hdrew, hpair⟩ := makePair_drew (P := P) w
    obtain ⟨w', hdrew', hrest⟩ :=
      ih (map.insertNew (keyid P (nextBoxPair P w).Public) (nextBoxPair P w)) w₁
    refine ⟨w', ?_, ?_⟩
    · have h := hdrew.trans hdrew'
      rwa [show 32 + 32 * n = 32 * (n + 1) by omega] at h
    · rw [fillOneTimePreKeys, bind_valueOrThrow_of_ok hpair, hrest, boxPairs_succ hdrew]
      rfl

/-- The second one returns where every KEM pair is generated. -/
theorem fillOneTimeQuantumKeys_drew (n : Nat) (map : UnorderedMap Qkeypair) (w : World) :
    (∃ pairs w', Batch (nextKemPair P) 64 n w pairs ∧ Drew (64 * n) w w' ∧
      fillOneTimeQuantumKeys P n map w
        = .ok (insertAll (fun pair => keyid P pair.Public) pairs map) w') ∨
    ((∀ pairs, ¬ Batch (nextKemPair P) 64 n w pairs) ∧
      Throws (fillOneTimeQuantumKeys P n map) w) := by
  have hreads : ReadsEntropy (nextKemPair P) := nextKemPair_congr
  induction n generalizing map w with
  | zero =>
    refine Or.inl ⟨[], w, Batch.nil, ⟨?_, rfl⟩, rfl⟩
    funext i
    exact congrArg w.entropy (by omega)
  | succ n ih =>
    cases hfirst : nextKemPair P w with
    | none =>
      right
      refine ⟨?_, ?_⟩
      · rintro pairs hpairs
        obtain ⟨pair, rest, -, hsome, -⟩ :=
          (Batch.succ_iff hreads (Drew.skip w 64).entropy).mp hpairs
        rw [hfirst] at hsome
        cases hsome
      · exact bind_valueOrThrow_throws (mlkemMakePair_throws hfirst) _
    | some pair =>
      obtain ⟨w₁, hdrew, hpair⟩ := mlkemMakePair_drew hfirst
      have hstep : fillOneTimeQuantumKeys P (n + 1) map w
          = fillOneTimeQuantumKeys P n (map.insertNew (keyid P pair.Public) pair) w₁ := by
        rw [fillOneTimeQuantumKeys, bind_valueOrThrow_of_ok hpair]
      rcases ih (map.insertNew (keyid P pair.Public) pair) w₁ with
        ⟨rest, w', hrest, hdrew', heq⟩ | ⟨hnone, e, w', heq⟩
      · left
        have hall := (Batch.succ_iff hreads hdrew.entropy).mpr ⟨pair, rest, rfl, hfirst, hrest⟩
        refine ⟨pair :: rest, w', hall, ?_, hstep.trans heq⟩
        have h := hdrew.trans hdrew'
        rwa [show 64 + 64 * n = 64 * (n + 1) by omega] at h
      · right
        refine ⟨?_, e, w', hstep.trans heq⟩
        rintro pairs hpairs
        obtain ⟨_, rest, -, -, hrest⟩ := (Batch.succ_iff hreads hdrew.entropy).mp hpairs
        exact hnone rest hrest

/-- The pairs of a bundle, and the random bytes they are made of. -/
structure LkbPairs.DrawnFrom (P : Primitives) (w : World) (g : LkbPairs) : Prop where
  identity : g.identity = nextBoxPair P w
  signed : g.signed = nextBoxPair P (w.skip 32)
  quantum : nextKemPair P (w.skip 64) = some g.quantum
  oneTime : g.oneTime = boxPairs P (w.skip 128) initialPrekeyBundleCount
  oneTimeQuantum :
    Batch (nextKemPair P) 64 initialPrekeyBundleCount (w.skip 3328) g.oneTimeQuantum

/-- Where every generator succeeds, `make_lkb` gets to its write with 9728 bytes drawn;
where one fails, it throws. -/
theorem makeLkb_drew (deviceId : UInt32) {w : World} {m : StorageManager}
    (hm : w.manager = some m) :
    (∃ (g : LkbPairs) (w₁ : World), g.DrawnFrom P w ∧ Drew 9728 w w₁ ∧
      makeLkb P deviceId w = (storeIdentityKeyPair (keyBytes [⟨_, g.identity.Public⟩,
          ⟨_, g.identity.Private⟩]) >>= fun stored =>
        if !stored then throw (.runtimeError "Gcrypt::store_identity_key_pair failed.")
        else pure (g.bundle P)) w₁) ∨
    ((∀ g : LkbPairs, ¬ g.DrawnFrom P w) ∧ Throws (makeLkb P deviceId) w) := by
  -- The Ed25519 generator is the X25519 one.
  obtain ⟨w₁, h₁, hik⟩ : ∃ w₁, Drew 32 w w₁ ∧
    (Ed25519.makePair P >>= valueOrThrow) w = .ok (nextBoxPair P w) w₁ := makePair_drew w
  obtain ⟨w₂, h₂, hspk⟩ := makeIdPair_drew (P := P) w₁
  have h₁₂ := h₁.trans h₂
  have hquantum : nextKemPair P w₂ = nextKemPair P (w.skip 64) := nextKemPair_congr h₁₂.entropy
  cases hqpk : nextKemPair P w₂ with
  | none =>
    refine Or.inr ⟨fun g hg => ?_, ?_⟩
    · have hsome := hg.quantum
      rw [← hquantum, hqpk] at hsome
      cases hsome
    · unfold makeLkb
      rw [Throws, bind_of_ok (assertStore_apply hm), bind_valueOrThrow_of_ok hik,
        bind_valueOrThrow_of_ok hspk]
      exact bind_valueOrThrow_throws (mlkemMakeIdPair_throws hqpk) _
  | some qpk =>
    obtain ⟨w₃, h₃, hgen⟩ := mlkemMakeIdPair_drew hqpk
    have h₁₃ := h₁₂.trans h₃
    obtain ⟨w₄, h₄, hotk⟩ := fillOneTimePreKeys_drew (P := P) initialPrekeyBundleCount ∅ w₃
    have h₁₄ : Drew 3328 w w₄ := h₁₃.trans h₄
    have hrun : makeLkb P deviceId w = (fillOneTimeQuantumKeys P initialPrekeyBundleCount ∅ >>=
        fun otq => storeIdentityKeyPair (keyBytes [⟨_, (nextBoxPair P w).Public⟩,
            ⟨_, (nextBoxPair P w).Private⟩]) >>= fun stored =>
          if !stored then throw (.runtimeError "Gcrypt::store_identity_key_pair failed.")
          else pure {
            IdentityKey := nextBoxPair P w
            SignedPreKey := ⟨⟨(nextBoxPair P w₁).Public, keyid P (nextBoxPair P w₁).Public⟩,
              (nextBoxPair P w₁).Private⟩
            QuantumPreKey := ⟨⟨qpk.Public, 0⟩, qpk.Private⟩
            OneTimePreKeys := insertAll (fun pair => keyid P pair.Public)
              (boxPairs P w₃ initialPrekeyBundleCount) ∅
            OneTimeQuantumKeys := otq }) w₄ := by
      unfold makeLkb
      rw [bind_of_ok (assertStore_apply hm), bind_valueOrThrow_of_ok hik,
        bind_valueOrThrow_of_ok hspk, bind_valueOrThrow_of_ok hgen, bind_of_ok hotk]
    have hpairs {pairs : List Qkeypair} :
        Batch (nextKemPair P) 64 initialPrekeyBundleCount w₄ pairs ↔
          Batch (nextKemPair P) 64 initialPrekeyBundleCount (w.skip 3328) pairs :=
      Batch.congr nextKemPair_congr h₁₄.entropy
    rcases fillOneTimeQuantumKeys_drew (P := P) initialPrekeyBundleCount ∅ w₄ with
      ⟨pairs, w₅, hall, h₅, hotq⟩ | ⟨hnone, e, w₅, hotq⟩
    · refine Or.inl ⟨⟨nextBoxPair P w, nextBoxPair P w₁, qpk,
        boxPairs P w₃ initialPrekeyBundleCount, pairs⟩, w₅, ?_, h₁₄.trans h₅, ?_⟩
      · exact {
          identity := rfl
          signed := nextBoxPair_congr h₁.entropy
          quantum := hquantum.symm.trans hqpk
          oneTime := boxPairs_congr h₁₃.entropy _
          oneTimeQuantum := hpairs.mp hall }
      · rw [hrun, bind_of_ok hotq]
        rfl
    · refine Or.inr ⟨fun g hg => hnone _ (hpairs.mpr hg.oneTimeQuantum), e, w₅, ?_⟩
      rw [hrun, bind_of_error hotq]

theorem LkbPairs.DrawnFrom.unique {w : World} {g g' : LkbPairs} (h : g.DrawnFrom P w)
    (h' : g'.DrawnFrom P w) : g' = g := by
  have hquantum : g'.quantum = g.quantum := Option.some.inj (h'.quantum.symm.trans h.quantum)
  have hone := h.oneTimeQuantum.unique h'.oneTimeQuantum
  cases g
  cases g'
  simp only at hquantum hone
  rw [LkbPairs.mk.injEq]
  exact ⟨h'.identity.trans h.identity.symm, h'.signed.trans h.signed.symm, hquantum,
    h'.oneTime.trans h.oneTime.symm, hone⟩

theorem LkbPairs.DrawnFrom.congr {w w' : World} {g : LkbPairs} (h : g.DrawnFrom P w)
    (hentropy : w'.entropy = w.entropy) : g.DrawnFrom P w' where
  identity := h.identity.trans (nextBoxPair_congr hentropy).symm
  signed := h.signed.trans (nextBoxPair_congr (skip_entropy_congr hentropy 32)).symm
  quantum := (nextKemPair_congr (skip_entropy_congr hentropy 64)).trans h.quantum
  oneTime := h.oneTime.trans (boxPairs_congr (skip_entropy_congr hentropy 128) _).symm
  oneTimeQuantum :=
    (Batch.congr nextKemPair_congr (skip_entropy_congr hentropy 3328)).mpr h.oneTimeQuantum

/-- What was drawn when `make_lkb` has returned. -/
theorem makeLkb_drawn {deviceId : UInt32} {lkb : LocalKeyBundle} {w w' : World}
    (h : makeLkb P deviceId w = .ok lkb w') :
    ∃ (m : StorageManager) (g : LkbPairs), w.manager = some m ∧ m.accepts 0 = true ∧
      g.DrawnFrom P w ∧ lkb = g.bundle P ∧ w'.entropy = (w.skip 9728).entropy := by
  cases hm : w.manager with
  | none =>
    have hnone : makeLkb P deviceId w = .error (.notImplemented sessionManagerWarning) w :=
      bind_of_error (assertStore_of_none hm)
    rw [hnone] at h
    cases h
  | some m =>
    rcases makeLkb_drew (P := P) deviceId hm with ⟨g, w₁, hg, hdrew, hrun⟩ | ⟨-, e, w₁, hrun⟩
    · rw [bind_of_ok (storeIdentityKeyPair_apply (hdrew.manager.trans hm) _), h] at hrun
      cases hacc : m.accepts 0 with
      | true =>
        simp only [StorageManager.write, hacc, if_true, Bool.not_true, Bool.false_eq_true,
          if_false, pure_apply, EStateM.Result.ok.injEq] at hrun
        refine ⟨m, g, rfl, hacc, hg, hrun.1, ?_⟩
        rw [hrun.2]
        exact hdrew.entropy
      | false =>
        simp only [StorageManager.write, hacc, Bool.false_eq_true, if_false, Bool.not_false,
          if_true, throw_apply, reduceCtorEq] at hrun
    · rw [h] at hrun
      cases hrun

/-- And when it returns. -/
theorem makeLkb_of_drawn (deviceId : UInt32) {w : World} {m : StorageManager} {g : LkbPairs}
    (hm : w.manager = some m) (hacc : m.accepts 0 = true) (hg : g.DrawnFrom P w) :
    outcome (makeLkb P deviceId w) = .ok (g.bundle P) := by
  rcases makeLkb_drew (P := P) deviceId hm with ⟨g', w₁, hg', hdrew, hrun⟩ | ⟨hnone, -⟩
  · rw [bind_of_ok (storeIdentityKeyPair_apply (hdrew.manager.trans hm) _)] at hrun
    simp only [StorageManager.write, hacc, if_true, Bool.not_true, Bool.false_eq_true,
      if_false, pure_apply] at hrun
    rw [hrun, outcome_ok, hg.unique hg']
  · exact absurd hg (hnone g)

/-- **`make_lkb`, exactly.** It returns where every generator succeeds and the store accepts
its one write; then the bundle is made of the first 9728 random bytes, each key of its own
stretch of them. -/
theorem makeLkb_exact (P : Primitives) (deviceId : UInt32) (w : World) :
    (∀ lkb, outcome (makeLkb P deviceId w) = .ok lkb ↔ ∃ (m : StorageManager) (g : LkbPairs),
      w.manager = some m ∧ m.accepts 0 = true ∧ g.DrawnFrom P w ∧ lkb = g.bundle P) ∧
    ∀ lkb w', makeLkb P deviceId w = .ok lkb w' → w'.entropy = (w.skip 9728).entropy := by
  refine ⟨fun lkb => ⟨fun h => ?_, ?_⟩, fun lkb w' h => ?_⟩
  · cases hrun : makeLkb P deviceId w with
    | error e w' =>
      rw [hrun] at h
      cases h
    | ok lkb' w' =>
      rw [hrun, outcome_ok, Except.ok.injEq] at h
      subst h
      obtain ⟨m, g, hm, hacc, hg, hlkb, -⟩ := makeLkb_drawn hrun
      exact ⟨m, g, hm, hacc, hg, hlkb⟩
  · rintro ⟨m, g, hm, hacc, hg, rfl⟩
    exact makeLkb_of_drawn deviceId hm hacc hg
  · obtain ⟨-, -, -, -, -, -, hent⟩ := makeLkb_drawn h
    exact hent

/-! ### `refill` -/

/-- What one round of `refill` hands out, made of the 160 random bytes from `w` on: the
X25519 pair of the first 32, the KEM pair of the next 64, the signature of the rest. -/
def refillRound (P : Primitives) (priv : Xckey) (w : World) : Option (Xcikey × Qsidkey) :=
  (nextKemPair P (w.skip 32)).map fun pair =>
    (⟨(nextBoxPair P w).Public, keyid P (nextBoxPair P w).Public⟩,
      { key := pair.Public
        identifier := keyid P pair.Public
        signature := XedDSA.sign32 P priv pair.Public ((w.skip 96).peek 64) })

theorem refillRound_congr {w w' : World} (h : w'.entropy = w.entropy) (priv : Xckey) :
    refillRound P priv w' = refillRound P priv w := by
  rw [refillRound, refillRound, nextKemPair_congr (skip_entropy_congr h 32),
    nextBoxPair_congr h, peek_congr (skip_entropy_congr h 96)]

/-- A write gives the next verdict, and draws nothing. -/
theorem storeOneTimePrekey_verdict {w : World} {m : StorageManager} (hm : w.manager = some m)
    (id : UInt32) (type : KeyType) (blob : Vkey) :
    ∃ w₁ m₁, w₁.manager = some m₁ ∧ m₁.accepts = (fun i => m.accepts (i + 1)) ∧
      w₁.entropy = w.entropy ∧ storeOneTimePrekey id type blob w = .ok (m.accepts 0) w₁ := by
  refine ⟨w.setManager (m.write (m.putPrekey id type blob)).2, _, rfl, ?_, rfl, ?_⟩
  · cases hacc : m.accepts 0 <;> simp [StorageManager.write, hacc]
  · rw [storeOneTimePrekey_apply hm]
    cases hacc : m.accepts 0 <;> simp [StorageManager.write, hacc]

/-- The first half of a round. -/
theorem refillPreKey_drew {w : World} {m : StorageManager} (hm : w.manager = some m) :
    ∃ w₁ m₁, w₁.manager = some m₁ ∧ m₁.accepts = (fun i => m.accepts (i + 1)) ∧
      w₁.entropy = (w.skip 32).entropy ∧ refillPreKey P w =
        if m.accepts 0 then
          .ok ⟨(nextBoxPair P w).Public, keyid P (nextBoxPair P w).Public⟩ w₁
        else .error (.runtimeError "Gcrypt::store_one_time_prekey failed.") w₁ := by
  obtain ⟨w₀, hdrew, hpair⟩ := makePair_drew (P := P) w
  obtain ⟨w₁, m₁, hm₁, hacc, hent, hstore⟩ := storeOneTimePrekey_verdict
    (hdrew.manager.trans hm) (keyid P (nextBoxPair P w).Public) .prekey
    (keyBytes [⟨_, (nextBoxPair P w).Public⟩, ⟨_, (nextBoxPair P w).Private⟩])
  refine ⟨w₁, m₁, hm₁, hacc, hent.trans hdrew.entropy, ?_⟩
  unfold refillPreKey
  rw [bind_valueOrThrow_of_ok hpair, bind_of_ok hstore]
  cases m.accepts 0 <;> rfl

/-- The second half, where the KEM pair is generated. -/
theorem refillQuantumPreKey_drew {w : World} {m : StorageManager} (hm : w.manager = some m)
    {pair : Qkeypair} (hpair : nextKemPair P w = some pair) (priv : Xckey) :
    ∃ w₁ m₁, w₁.manager = some m₁ ∧ m₁.accepts = (fun i => m.accepts (i + 1)) ∧
      (m.accepts 0 = true → w₁.entropy = (w.skip 128).entropy) ∧
      refillQuantumPreKey P priv w =
        if m.accepts 0 then
          .ok {
            key := pair.Public
            identifier := keyid P pair.Public
            signature := XedDSA.sign32 P priv pair.Public ((w.skip 64).peek 64) } w₁
        else .error (.runtimeError "Gcrypt::store_one_time_prekey failed.") w₁ := by
  obtain ⟨w₀, hdrew, hgen⟩ := mlkemMakePair_drew hpair
  obtain ⟨w₁, m₁, hm₁, hacc, hent, hstore⟩ := storeOneTimePrekey_verdict
    (hdrew.manager.trans hm) (keyid P pair.Public) .quantum
    (keyBytes [⟨_, pair.Public⟩, ⟨_, pair.Private⟩])
  have hent₁ := hent.trans hdrew.entropy
  cases hverdict : m.accepts 0 with
  | false =>
    refine ⟨w₁, m₁, hm₁, hacc, by simp, ?_⟩
    unfold refillQuantumPreKey
    rw [bind_valueOrThrow_of_ok hgen, bind_of_ok hstore, hverdict]
    rfl
  | true =>
    refine ⟨w₁.skip 64, m₁, hm₁, hacc, fun _ => ?_, ?_⟩
    · rw [skip_entropy_congr hent₁, World.skip_skip]
    · unfold refillQuantumPreKey
      rw [bind_valueOrThrow_of_ok hgen, bind_of_ok hstore, hverdict, ← peek_congr hent₁]
      rfl

theorem refillQuantumPreKey_throws {w : World} (hpair : nextKemPair P w = none) (priv : Xckey) :
    Throws (refillQuantumPreKey P priv) w :=
  bind_valueOrThrow_throws (mlkemMakePair_throws hpair) _

/-- **Step.** A round of the loop either hands out what the next 160 bytes give, or throws. -/
theorem refillLoop_step {w : World} {m : StorageManager} (hm : w.manager = some m) (priv : Xckey)
    (count : Nat) (payload : RefillPayload) :
    (∃ round w₁ m₁, refillRound P priv w = some round ∧ m.accepts 0 = true ∧ m.accepts 1 = true ∧
      w₁.manager = some m₁ ∧ m₁.accepts = (fun i => m.accepts (i + 2)) ∧
      w₁.entropy = (w.skip 160).entropy ∧
      refillLoop P priv (count + 1) payload w = refillLoop P priv count
        ⟨payload.oneTimePreKeys ++ [round.1], payload.signedOneTimeQuantumPreKeys ++ [round.2]⟩
        w₁) ∨
    (¬ (m.accepts 0 = true ∧ m.accepts 1 = true ∧ (refillRound P priv w).isSome = true) ∧
      Throws (refillLoop P priv (count + 1) payload) w) := by
  obtain ⟨w₁, m₁, hm₁, hacc₁, hent₁, hfirst⟩ := refillPreKey_drew (P := P) hm
  have hverdict : m₁.accepts 0 = m.accepts 1 := congrFun hacc₁ 0
  cases h₀ : m.accepts 0 with
  | false =>
    rw [h₀] at hfirst
    exact Or.inr ⟨by simp, _, w₁, bind_of_error hfirst⟩
  | true =>
    rw [h₀, if_pos rfl] at hfirst
    have hloop : refillLoop P priv (count + 1) payload w = (refillQuantumPreKey P priv >>= fun q =>
        refillLoop P priv count {
          oneTimePreKeys := payload.oneTimePreKeys
            ++ [⟨(nextBoxPair P w).Public, keyid P (nextBoxPair P w).Public⟩]
          signedOneTimeQuantumPreKeys := payload.signedOneTimeQuantumPreKeys ++ [q] }) w₁ :=
      bind_of_ok hfirst
    have hkem : nextKemPair P w₁ = nextKemPair P (w.skip 32) := nextKemPair_congr hent₁
    cases hpair : nextKemPair P w₁ with
    | none =>
      obtain ⟨e, w₂, hthrow⟩ := refillQuantumPreKey_throws hpair priv
      refine Or.inr ⟨?_, e, w₂, hloop.trans (bind_of_error hthrow)⟩
      simp [refillRound, ← hkem, hpair]
    | some pair =>
      obtain ⟨w₂, m₂, hm₂, hacc₂, hent₂, hsecond⟩ := refillQuantumPreKey_drew hm₁ hpair priv
      rw [hverdict] at hent₂ hsecond
      cases h₁ : m.accepts 1 with
      | false =>
        rw [h₁] at hsecond
        exact Or.inr ⟨by simp, _, w₂, hloop.trans (bind_of_error hsecond)⟩
      | true =>
        have hpeek : (w₁.skip 64).peek 64 = (w.skip 96).peek 64 := by
          rw [peek_congr (skip_entropy_congr hent₁ 64) 64, World.skip_skip]
        have hround : refillRound P priv w
            = some (⟨(nextBoxPair P w).Public, keyid P (nextBoxPair P w).Public⟩, {
              key := pair.Public
              identifier := keyid P pair.Public
              signature := XedDSA.sign32 P priv pair.Public ((w.skip 96).peek 64) }) := by
          rw [refillRound, ← hkem, hpair]
          rfl
        rw [h₁, if_pos rfl, hpeek] at hsecond
        refine Or.inl ⟨_, w₂, m₂, hround, rfl, rfl, hm₂, ?_, ?_,
          hloop.trans (bind_of_ok hsecond)⟩
        · rw [hacc₂, hacc₁]
        · rw [hent₂ h₁, skip_entropy_congr hent₁, World.skip_skip]

/-- **Run.** The loop, from any payload. -/
theorem refillLoop_exact {w : World} {m : StorageManager} (hm : w.manager = some m) (priv : Xckey)
    (count : Nat) (payload : RefillPayload) (payload' : RefillPayload) :
    outcome (refillLoop P priv count payload w) = .ok payload' ↔
      (∀ i < 2 * count, m.accepts i = true) ∧
        ∃ rounds, Batch (refillRound P priv) 160 count w rounds ∧
          payload' = ⟨payload.oneTimePreKeys ++ rounds.map Prod.fst,
            payload.signedOneTimeQuantumPreKeys ++ rounds.map Prod.snd⟩ := by
  have hreads : ReadsEntropy (refillRound P priv) := fun h => refillRound_congr h priv
  induction count generalizing w m payload with
  | zero =>
    rw [refillLoop, pure_apply, outcome_ok, Except.ok.injEq]
    constructor
    · rintro rfl
      exact ⟨fun i hi => absurd hi (by omega), [], Batch.nil, by simp⟩
    · rintro ⟨-, rounds, hrounds, rfl⟩
      rw [List.length_eq_zero_iff.mp hrounds.length]
      simp
  | succ count ih =>
    rcases refillLoop_step (P := P) hm priv count payload with
      ⟨round, w₁, m₁, hround, h₀, h₁, hm₁, hacc, hent, hloop⟩ | ⟨hnot, e, w₁, hthrow⟩
    · have htail := ih hm₁ ⟨payload.oneTimePreKeys ++ [round.1],
        payload.signedOneTimeQuantumPreKeys ++ [round.2]⟩
      rw [← hloop, hacc] at htail
      refine htail.trans ?_
      constructor
      · rintro ⟨hverdicts, rest, hrest, rfl⟩
        refine ⟨fun i hi => ?_, round :: rest,
          (Batch.succ_iff hreads hent).mpr ⟨round, rest, rfl, hround, hrest⟩, by simp⟩
        rcases i with _ | _ | i
        · exact h₀
        · exact h₁
        · exact hverdicts i (by omega)
      · rintro ⟨hverdicts, rounds, hrounds, rfl⟩
        obtain ⟨round', rest, rfl, hround', hrest⟩ := (Batch.succ_iff hreads hent).mp hrounds
        obtain rfl : round = round' := Option.some.inj (hround.symm.trans hround')
        exact ⟨fun i hi => hverdicts (i + 2) (by omega), rest, hrest, by simp⟩
    · rw [hthrow]
      refine iff_of_false (by simp) ?_
      rintro ⟨hverdicts, rounds, hrounds, -⟩
      obtain ⟨round, rest, -, hround, -⟩ :=
        (Batch.succ_iff hreads (Drew.skip w 160).entropy).mp hrounds
      exact hnot ⟨hverdicts 0 (by omega), hverdicts 1 (by omega), by rw [hround]; rfl⟩

/-- A round that is accepted leaves the loop 160 bytes further. -/
theorem refillLoop_drawn {w w' : World} {m : StorageManager} (hm : w.manager = some m)
    {priv : Xckey} {count : Nat} {payload payload' : RefillPayload}
    (h : refillLoop P priv count payload w = .ok payload' w') :
    w'.entropy = (w.skip (160 * count)).entropy := by
  induction count generalizing w m payload with
  | zero =>
    rw [refillLoop, pure_apply, EStateM.Result.ok.injEq] at h
    rw [← h.2]
    funext i
    exact congrArg w.entropy (by omega)
  | succ count ih =>
    rcases refillLoop_step (P := P) hm priv count payload with
      ⟨round, w₁, m₁, -, -, -, hm₁, -, hent, hloop⟩ | ⟨-, e, w₁, hthrow⟩
    · rw [ih hm₁ (hloop.symm.trans h), skip_entropy_congr hent, World.skip_skip, Nat.mul_succ,
        Nat.add_comm]
    · rw [hthrow] at h
      cases h

theorem refill_outcome_iff (priv : Xckey) (Count : UInt32) {w : World} {payload : RefillPayload} :
    outcome (refill P priv Count w) = .ok payload ↔
      (∃ m, w.manager = some m ∧ ∀ i < 2 * Count.toNat, m.accepts i = true) ∧
        ∃ rounds, Batch (refillRound P priv) 160 Count.toNat w rounds ∧
          payload = ⟨rounds.map Prod.fst, rounds.map Prod.snd⟩ := by
  cases hm : w.manager with
  | none =>
    have hnone : refill P priv Count w = .error (.notImplemented sessionManagerWarning) w :=
      bind_of_error (assertStore_of_none hm)
    simp [hnone]
  | some m =>
    have hrun : refill P priv Count w = refillLoop P priv Count.toNat ⟨[], []⟩ w :=
      bind_of_ok (assertStore_apply hm)
    rw [hrun, refillLoop_exact hm]
    simp

/-- **`refill`, exactly.** It returns where the store accepts both writes of every round and
every KEM pair is generated; then the `i`-th entries are made of the bytes from `160 i` on,
whatever the other rounds draw. -/
theorem refill_exact (P : Primitives) (priv : Xckey) (Count : UInt32) (w : World) :
    (∀ payload, outcome (refill P priv Count w) = .ok payload ↔
      (∃ m, w.manager = some m ∧ ∀ i < 2 * Count.toNat, m.accepts i = true) ∧
        ∃ rounds, Batch (refillRound P priv) 160 Count.toNat w rounds ∧
          payload = ⟨rounds.map Prod.fst, rounds.map Prod.snd⟩) ∧
    ∀ payload w', refill P priv Count w = .ok payload w' →
      w'.entropy = (w.skip (160 * Count.toNat)).entropy := by
  refine ⟨fun payload => refill_outcome_iff priv Count, fun payload w' h => ?_⟩
  cases hm : w.manager with
  | none =>
    have hnone : refill P priv Count w = .error (.notImplemented sessionManagerWarning) w :=
      bind_of_error (assertStore_of_none hm)
    rw [hnone] at h
    cases h
  | some m =>
    have hrun : refill P priv Count w = refillLoop P priv Count.toNat ⟨[], []⟩ w :=
      bind_of_ok (assertStore_apply hm)
    exact refillLoop_drawn hm (hrun.symm.trans h)

/-! ### `make_server_payload` -/

/-- The entries of the payload under the counter `i`, the second with its nonce. -/
def serverOneTime (keys : LocalKeyBundle) (i : Nat) : Xcikey where
  key := (keys.OneTimePreKeys.at (UInt32.ofNat i) Xckeypair.zero).Public
  identifier := UInt32.ofNat i

def serverQuantum (P : Primitives) (keys : LocalKeyBundle) (i : Nat) (Z : Key 64) : Qsidkey :=
  let qkey := keys.OneTimeQuantumKeys.at (UInt32.ofNat i) ⟨Key.zero, Key.zero⟩
  { key := qkey.Public
    identifier := UInt32.ofNat i
    signature := XedDSA.sign32 P keys.IdentityKey.Private qkey.Public Z }

theorem serverPayloadLoop_drew (keys : LocalKeyBundle) (remaining i : Nat) (pOtpk : List Xcikey)
    (pOtQpk : List Qsidkey) (w : World) :
    ∃ w', Drew (64 * remaining) w w' ∧ serverPayloadLoop P keys remaining i pOtpk pOtQpk w
      = .ok (pOtpk ++ (List.range remaining).map fun j => serverOneTime keys (i + j),
          pOtQpk ++ (List.range remaining).map fun j =>
            serverQuantum P keys (i + j) ((w.skip (64 * j)).peek 64)) w' := by
  induction remaining generalizing i pOtpk pOtQpk w with
  | zero =>
    refine ⟨w, ⟨?_, rfl⟩, by simp [serverPayloadLoop]⟩
    funext i
    exact congrArg w.entropy (by omega)
  | succ remaining ih =>
    obtain ⟨w', hdrew, hloop⟩ := ih (i + 1) (pOtpk ++ [serverOneTime keys i])
      (pOtQpk ++ [serverQuantum P keys i (w.peek 64)]) (w.skip 64)
    have hstep : serverPayloadLoop P keys (remaining + 1) i pOtpk pOtQpk w
        = serverPayloadLoop P keys remaining (i + 1) (pOtpk ++ [serverOneTime keys i])
            (pOtQpk ++ [serverQuantum P keys i (w.peek 64)]) (w.skip 64) := rfl
    refine ⟨w', ?_, hstep.trans (hloop.trans ?_)⟩
    · have h := (Drew.skip w 64).trans hdrew
      rwa [show 64 + 64 * remaining = 64 * (remaining + 1) by omega] at h
    · -- The first entry of the longer range is the one this round appends.
      have hzero : (w.skip (64 * 0)).peek 64 = w.peek 64 :=
        peek_congr (by funext i; exact congrArg w.entropy (by omega)) 64
      have hshift (j : Nat) : 64 + 64 * j = 64 * (j + 1) := by omega
      simp only [List.range_succ_eq_map, List.map_cons, List.map_map, Function.comp_def,
        List.append_assoc, List.cons_append, List.nil_append, hzero, World.skip_skip, hshift,
        Nat.succ_eq_add_one, Nat.add_zero, Nat.add_right_comm i 1, Nat.add_assoc]

/-- `make_server_payload` always returns; its nonces are the first 128 bytes and those after
the registration word, each its own stretch. -/
theorem makeServerPayload_drew (count : Nat) (deviceId : UInt32) (keys : LocalKeyBundle)
    (w : World) :
    ∃ w', Drew (132 + 64 * count) w w' ∧ makeServerPayload P count deviceId keys w = .ok {
      registration := P.randombytesUniform maxRegistrationValue ((w.skip 128).peek 4) + 1
      deviceId := deviceId
      identityKey := keys.IdentityKey.Public
      signedPreKey := {
        key := keys.SignedPreKey.Public.key
        identifier := keys.SignedPreKey.Public.identifier
        signature := XedDSA.sign32 P keys.IdentityKey.Private keys.SignedPreKey.Public.key
          (w.peek 64) }
      quantumPreKey := ⟨_, {
        key := keys.SignedPreKey.Public.key
        identifier := keys.SignedPreKey.Public.identifier
        signature := XedDSA.sign32 P keys.IdentityKey.Private keys.QuantumPreKey.Public.key
          ((w.skip 64).peek 64) }⟩
      oneTimePreKeys := (List.range count).map (serverOneTime keys)
      signedOneTimeQuantumPreKeys := (List.range count).map fun i =>
        serverQuantum P keys i ((w.skip (132 + 64 * i)).peek 64) } w' := by
  obtain ⟨w', hdrew, hloop⟩ := serverPayloadLoop_drew (P := P) keys count 0 [] [] (w.skip 132)
  refine ⟨w', (Drew.skip w 132).trans hdrew, ?_⟩
  unfold makeServerPayload
  rw [bind_of_ok (show Keygen.random 64 w = .ok (w.peek 64) (w.skip 64) from rfl),
    bind_of_ok (show Keygen.random 64 (w.skip 64)
      = .ok ((w.skip 64).peek 64) (w.skip 128) by rw [← World.skip_skip w 64 64]; rfl),
    bind_of_ok (show randombytesBuf 4 (w.skip 128)
      = .ok ((w.skip 128).peek 4) (w.skip 132) by rw [← World.skip_skip w 128 4]; rfl)]
  dsimp only
  rw [bind_of_ok hloop]
  simp only [List.nil_append, Nat.zero_add, World.skip_skip]
  rfl

/-! ### Acceptance -/

open XedDSA

/-- The bundle a server makes of a payload and a refilled quantum key. -/
def servedBundle (payload : PublicServerPayload) (q : Qsidkey) (oneTime : Option Xcikey) :
    ForeignPrekeyBundle where
  identityKey := payload.identityKey
  signedPreKey := payload.signedPreKey
  qpubsidkey := .inl q
  oneTimePreKey := oneTime

/-- A signature by a generated identity key verifies under the coincidence only. -/
theorem verify32_sign32_iff {E : EdwardsGroup} (laws : ScalarLaws P) (curve : CurveLaws P E)
    {pair : Xckeypair} (hpair : IsBoxPair P pair) {n : Nat} (M : Key n) (Z : Key 64) :
    verify32 P pair.Public M (sign32 P pair.Private M Z) = .ok true ↔
      ∃ A', Coincides P E pair M Z A' := by
  have hu : pair.Public.toNat < fieldPrime := by
    rw [hpair]
    exact curve.base_canonical _
  have hs : (sigS (sign32 P pair.Private M Z)).toNat < 2 ^ 253 := by
    rw [sigS_sign32, laws.add]
    exact (Nat.mod_lt _ (by decide)).trans groupOrder_lt
  rw [verify32_eq_true_iff laws]
  simp only [integerRelation_sign32_iff laws curve]
  exact ⟨fun h => h.2.2, fun hA => ⟨hu, hs, hA⟩⟩

/-- The identity pair is a generated one. -/
theorem makeLkb_boxPair {deviceId : UInt32} {lkb : LocalKeyBundle} {w w' : World}
    (h : makeLkb P deviceId w = .ok lkb w') : IsBoxPair P lkb.IdentityKey := by
  obtain ⟨w₁, -, -, -, -, hidentity, -⟩ := makeLkb_eq_ok h
  obtain ⟨r, w₂, hmake, hvalue⟩ := bind_eq_ok.mp hidentity
  obtain ⟨rfl, -⟩ := valueOrThrow_eq_ok hvalue
  exact (isBoxPair_iff_makePair P).mpr ⟨w, w₂, hmake⟩

/-- **Acceptance, exactly.** Whatever a device publishes and refills, and whenever: a foreign
device accepts the bundle made of it under the two coincidences only, one for each nonce. -/
theorem published_bundle_accepted_iff {E : EdwardsGroup} (laws : ScalarLaws P)
    (curve : CurveLaws P E) {deviceId Count : UInt32} {count i : Nat} {lkb : LocalKeyBundle}
    {payload : PublicServerPayload} {refilled : RefillPayload} {q : Qsidkey} {w w₁ w₂ : World}
    (hlkb : outcome (makeLkb P deviceId w) = .ok lkb)
    (hpayload : outcome (makeServerPayload P count deviceId lkb w₁) = .ok payload)
    (hrefill : outcome (refill P lkb.IdentityKey.Private Count w₂) = .ok refilled)
    (hq : refilled.signedOneTimeQuantumPreKeys[i]? = some q) (oneTime : Option Xcikey) :
    verifyForeignBundle P payload.identityKey (servedBundle payload q oneTime) = .ok true ↔
      (∃ A', Coincides P E lkb.IdentityKey lkb.SignedPreKey.Public.key (w₁.peek 64) A') ∧
        ∃ A', Coincides P E lkb.IdentityKey q.key ((w₂.skip (160 * i + 96)).peek 64) A' := by
  have hpair : IsBoxPair P lkb.IdentityKey := by
    cases hrun : makeLkb P deviceId w with
    | error e w' =>
      rw [hrun] at hlkb
      cases hlkb
    | ok lkb' w' =>
      rw [hrun, outcome_ok, Except.ok.injEq] at hlkb
      rw [← hlkb]
      exact makeLkb_boxPair hrun
  obtain ⟨w₁', -, hserver⟩ := makeServerPayload_drew (P := P) count deviceId lkb w₁
  rw [hserver, outcome_ok, Except.ok.injEq] at hpayload
  -- The entry comes from the round at its position.
  obtain ⟨-, rounds, hrounds, rfl⟩ := (refill_outcome_iff _ _).mp hrefill
  rw [List.getElem?_map, Option.map_eq_some_iff] at hq
  obtain ⟨round, hround, rfl⟩ := hq
  have hi : i < Count.toNat := by
    rw [← hrounds.length]
    exact (List.getElem?_eq_some_iff.mp hround).1
  have hmade := (hrounds.entry i hi).trans hround
  obtain ⟨pair, -, rfl⟩ := Option.map_eq_some_iff.mp hmade
  rw [Handshake.verifyForeignBundle_eq_true_iff, ← hpayload,
    ← verify32_sign32_iff laws curve hpair, ← verify32_sign32_iff laws curve hpair]
  rw [World.skip_skip]
  constructor
  · intro h
    exact ⟨h.signedPreKey, h.quantumPreKey _ rfl⟩
  · rintro ⟨hs, hq⟩
    refine ⟨rfl, hs, fun k hk => ?_⟩
    cases hk
    exact hq

/-- One refilled key of a new device, under any identity key. -/
theorem newDevice_refilled (priv : Xckey) : ∃ refilled q,
    outcome (refill Reference.primitives priv 1 newDevice) = .ok refilled ∧
      refilled.signedOneTimeQuantumPreKeys[0]? = some q := by
  obtain ⟨pair, hpair⟩ := reference_mlkimplKeypair ((newDevice.skip 32).peek 64)
  have hround : refillRound Reference.primitives priv newDevice = some _ :=
    congrArg (Option.map _) (nextKemPair_eq_some.mpr hpair)
  have hbatch : Batch (refillRound Reference.primitives priv) 160 1 newDevice [_] :=
    (Batch.succ_iff (fun h => refillRound_congr h priv) (Drew.skip newDevice 160).entropy).mpr
      ⟨_, [], rfl, hround, Batch.nil⟩
  exact ⟨_, _, (refill_outcome_iff priv 1).mpr ⟨⟨_, rfl, fun _ _ => rfl⟩, _, hbatch, rfl⟩, rfl⟩

theorem published_bundle_accepted_iff_newDevice : ∃ lkb payload refilled q,
    outcome (makeLkb Reference.primitives 0 newDevice) = .ok lkb ∧
    outcome (makeServerPayload Reference.primitives 0 0 lkb newDevice) = .ok payload ∧
    outcome (refill Reference.primitives lkb.IdentityKey.Private 1 newDevice) = .ok refilled ∧
    (verifyForeignBundle Reference.primitives payload.identityKey (servedBundle payload q none)
        = .ok true ↔
      (∃ A', Coincides Reference.primitives Reference.edwards lkb.IdentityKey
        lkb.SignedPreKey.Public.key (newDevice.peek 64) A') ∧
      ∃ A', Coincides Reference.primitives Reference.edwards lkb.IdentityKey q.key
        ((newDevice.skip (160 * 0 + 96)).peek 64) A') := by
  obtain ⟨lkb, w', hlkb⟩ := newDevice_makeLkb
  have hout := congrArg outcome hlkb
  obtain ⟨w₁, -, hserver⟩ := makeServerPayload_drew (P := Reference.primitives) 0 0 lkb newDevice
  have hpayload := congrArg outcome hserver
  obtain ⟨refilled, q, hrefill, hq⟩ := newDevice_refilled lkb.IdentityKey.Private
  exact ⟨lkb, _, refilled, q, hout, hpayload, hrefill, published_bundle_accepted_iff
    Reference.scalarLaws Reference.curveLaws hout hpayload hrefill hq none⟩

end Gcrypt
