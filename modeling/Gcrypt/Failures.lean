import Gcrypt.Generated

/-!
# Gcrypt.Failures

What is in the store after a call of `make_lkb` or `refill` that threw.

Neither takes a record back (nothing calls `delete_one_time_prekey`), so it comes down to
when they write. `make_lkb` generates everything first and its one write is the last thing
that can fail: the records are those from before the call (`makeLkb_failed`). `refill`
writes each pair before it generates the next, and what was accepted before the failure
stays (`refill_failed`); only the operation that fails leaves nothing behind.
-/

namespace Gcrypt

open Effect Keygen

variable {P : Primitives}

/-! ### Records -/

/-- What a store holds. -/
structure Records where
  identity : Option Vkey
  prekeys : UInt32 → KeyType → Option Vkey

/-- The record of a call written over what was in its slot. -/
def Records.put (r : Records) (c : StoreCall) : Records :=
  { r with prekeys := fun i t =>
      if i = c.identifier ∧ t = c.type then some c.blob else r.prekeys i t }

/-- The records of a store, without its verdicts. -/
def StorageManager.records (m : StorageManager) : Records := ⟨m.identity, m.prekeys⟩

/-- The records of the store, where there is one. -/
def World.records (w : World) : Option Records := w.manager.map StorageManager.records

/-- The verdict on the `i`-th write to come. -/
def World.verdict (w : World) (i : Nat) : Option Bool := w.manager.map (·.accepts i)

theorem records_apply (m : StorageManager) (c : StoreCall) :
    (c.apply m).records = if m.accepts 0 then m.records.put c else m.records := by
  cases hacc : m.accepts 0 <;>
    simp [StoreCall.apply, StorageManager.write, StorageManager.putPrekey,
      StorageManager.records, Records.put, hacc]

/-- Calls that are all accepted write their records in turn. -/
theorem records_foldl_apply {m : StorageManager} {cs : List StoreCall} (h : m.Accepts cs) :
    (cs.foldl StoreCall.apply m).records = cs.foldl Records.put m.records := by
  induction cs generalizing m with
  | nil => rfl
  | cons c cs ih =>
    have hsplit : m.Accepts ([c] ++ cs) := h
    obtain ⟨hc, hcs⟩ := accepts_append.mp hsplit
    have hfirst : (c.apply m).records = m.records.put c := by
      rw [records_apply, if_pos (hc 0 (by simp))]
    rw [List.foldl_cons, List.foldl_cons, ← hfirst]
    exact ih hcs

/-! ### `make_lkb` -/

/-- The records are the same, and there is a store exactly where there was one. -/
def SameRecords (w w' : World) : Prop := w'.records = w.records

theorem sameRecords_draws : DrawFrame SameRecords where
  frame := ⟨fun _ => rfl, fun h h' => h'.trans h⟩
  skip _ _ := rfl
  log _ _ := rfl

/-- The write: where it is accepted, nothing is left that throws. -/
theorem exits_storeIdentityKeyPair {α : Type} (blob : Vkey) (fault : Fault) (a : α) :
    Exits (fun _ _ => True) SameRecords (storeIdentityKeyPair blob >>= fun stored =>
      if !stored then throw fault else pure a) := by
  refine ⟨fun w => ?_⟩
  cases hm : w.manager with
  | none =>
    rw [bind_of_error (storeIdentityKeyPair_of_none hm blob)]
    exact sameRecords_draws.frame.refl w
  | some m =>
    rw [bind_of_ok (storeIdentityKeyPair_apply hm _)]
    cases hacc : m.accepts 0 with
    | false =>
      simp only [StorageManager.write, hacc, Bool.false_eq_true, if_false, Bool.not_false, if_true]
      show World.records _ = w.records
      rw [World.records, World.records, hm]
      rfl
    | true =>
      simp only [StorageManager.write, hacc, if_true, Bool.not_true, Bool.false_eq_true, if_false]
      exact True.intro

/-- **Atomic.** Where `make_lkb` throws, it has stored nothing. -/
theorem makeLkb_failed {deviceId : UInt32} {e : Fault} {w w' : World}
    (h : makeLkb P deviceId w = .error e w') : w'.records = w.records := by
  have hexits : Exits (fun _ _ => True) SameRecords (makeLkb P deviceId) :=
    exits_makeLkb sameRecords_draws ⟨fun _ _ => trivial, fun h h' => h'.trans h⟩
      (fun keys fault lkb => exits_storeIdentityKeyPair _ fault lkb) deviceId
  have hended := hexits.ended w
  rw [h] at hended
  exact hended

/-! ### `refill` -/

/-- From `w` to `w'` the store calls were `done`, all accepted, and perhaps one more, which
was refused. -/
structure StoppedAfter (P : Primitives) (w w' : World) (done : List StoreCall) : Prop where
  accepted : ∀ i < done.length, w.verdict i = some true
  calls : storeCalls P (w.newEvents w') = done ∨
    ∃ refused, storeCalls P (w.newEvents w') = done ++ [refused] ∧
      w.verdict done.length = some false

theorem refill_without_store (priv : Xckey) (Count : UInt32) {w : World} (hm : w.manager = none) :
    refill P priv Count w = .error (.notImplemented sessionManagerWarning) w := by
  rw [refill, bind_of_error (assertStore_of_none hm)]

/-- Where `refill` throws, what it had stored stays. -/
theorem refill_failed {priv : Xckey} {Count : UInt32} {e : Fault} {w w' : World}
    (h : refill P priv Count w = .error e w') : ∃ done, StoppedAfter P w w' done ∧
      w'.records = w.records.map fun r => done.foldl Records.put r := by
  cases hm : w.manager with
  | none =>
    rw [refill_without_store priv Count hm] at h
    cases h
    have htrace : World.Traced [] w w := by simp [World.Traced]
    refine ⟨[], ⟨fun i hi => absurd hi (Nat.not_lt_zero i), Or.inl ?_⟩, ?_⟩
    · rw [htrace.newEvents]
      rfl
    · simp [World.records, hm]
  | some m =>
    have hexits := (exits_refill (P := P) priv Count).ended w
    rw [h] at hexits
    obtain ⟨es, htrace, hmanager, hcalls⟩ := hexits
    have hverdict (i : Nat) : w.verdict i = some (m.accepts i) := by
      rw [World.verdict, hm, Option.map_some]
    have hrecords : w'.records
        = some ((storeCalls P es).foldl StoreCall.apply m).records := by
      rw [World.records, hmanager, hm]
      rfl
    have hbefore : w.records = some m.records := by
      rw [World.records, hm]
      rfl
    rw [hbefore, hrecords]
    simp only [Option.map_some, Option.some.injEq]
    rcases hcalls m hm with hall | ⟨done, refused, heq, hdone, hrefused⟩
    · refine ⟨storeCalls P es, ⟨fun i hi => ?_, Or.inl ?_⟩, ?_⟩
      · rw [hverdict, hall i hi]
      · rw [htrace.newEvents]
      · rw [records_foldl_apply hall]
    · refine ⟨done, ⟨fun i hi => ?_, Or.inr ⟨refused, ?_, ?_⟩⟩, ?_⟩
      · rw [hverdict, hdone i hi]
      · rw [htrace.newEvents, heq]
      · rw [hverdict, hrefused]
      · rw [heq, List.foldl_append, List.foldl_cons, List.foldl_nil, records_apply,
          accepts_foldl_apply, Nat.zero_add, hrefused, records_foldl_apply hdone]
        rfl

/-- **What a failure leaves.** After `make_lkb` the records are those from before the call;
after `refill` they are those with the pairs stored before the failure written over them. -/
theorem left_by_failure (P : Primitives) (w : World) :
    (∀ deviceId e w', makeLkb P deviceId w = .error e w' → w'.records = w.records) ∧
    ∀ priv Count e w', refill P priv Count w = .error e w' →
      ∃ done, StoppedAfter P w w' done ∧
        w'.records = w.records.map fun r => done.foldl Records.put r := by
  constructor
  · intro deviceId e w' h
    exact makeLkb_failed h
  · intro priv Count e w' h
    exact refill_failed h

theorem boxCall_type {pair : Xckeypair} {c : StoreCall}
    (h : (Event.boxKeypair pair).storeCall P = some c) : c.type = .prekey := by
  cases h
  rfl

/-- A device with an empty store, its verdicts, and random bytes that are all zero. -/
def deviceWith (accepts : Nat → Bool) : World :=
  ⟨some ⟨none, fun _ _ => none, accepts⟩, fun _ => 0, []⟩

/-- A store that has room for the X25519 key of the first round and not for the ML-KEM key. -/
def oneRecord : World := deviceWith fun i => i = 0

theorem oneRecord_refill : ∃ c e w',
    (Event.boxKeypair (nextBoxPair Reference.primitives oneRecord)).storeCall Reference.primitives
      = some c ∧
    refill Reference.primitives Key.zero 1 oneRecord = .error e w' ∧
    w'.records = some (Records.put ⟨none, fun _ _ => none⟩ c) := by
  let m : StorageManager := ⟨none, fun _ _ => none, fun i => i = 0⟩
  obtain ⟨c, hc⟩ : ∃ c, (Event.boxKeypair (nextBoxPair Reference.primitives oneRecord)).storeCall
    Reference.primitives = some c := ⟨_, rfl⟩
  obtain ⟨pair, hpair⟩ := reference_mlkimplKeypair ((oneRecord.skip 32).peek 64)
  obtain ⟨d, hd⟩ : ∃ d, (Event.mlkemKeypair pair).storeCall Reference.primitives = some d :=
    ⟨_, rfl⟩
  have hm : oneRecord.manager = some m := rfl
  have hfirst : m.accepts 0 = true := rfl
  have hsecond : (c.apply m).accepts 0 = false := by
    rw [accepts_apply]
    rfl
  have h₁ := refillPreKey_accepted hm hc hfirst
  have h₂ := refillQuantumPreKey_refused
    (w := ((oneRecord.skip 32).log
      (.boxKeypair (nextBoxPair Reference.primitives oneRecord))).setManager (c.apply m))
    rfl hpair hd hsecond Key.zero
  have hloop : refill Reference.primitives Key.zero 1 oneRecord
      = refillLoop Reference.primitives Key.zero (0 + 1) ⟨[], []⟩ oneRecord := by
    rw [refill, bind_of_ok (assertStore_apply hm)]
    rfl
  rw [refillLoop, bind_of_ok h₁, bind_of_error h₂] at hloop
  refine ⟨c, _, _, hc, hloop, ?_⟩
  show some (d.apply (c.apply m)).records = _
  rw [records_apply, hsecond, records_apply, hfirst]
  rfl

theorem left_by_failure_oneRecord :
    (∃ e w', makeLkb Reference.primitives 0 (deviceWith fun _ => false) = .error e w' ∧
      w'.records = (deviceWith fun _ => false).records) ∧
    ∃ e w' done, refill Reference.primitives Key.zero 1 oneRecord = .error e w' ∧
      StoppedAfter Reference.primitives oneRecord w' done ∧
      w'.records = oneRecord.records.map fun r => done.foldl Records.put r := by
  constructor
  · obtain ⟨e, w', h⟩ := makeLkb_throws reference_mlkimplKeypair 0
      (show (deviceWith fun _ => false).manager = some _ from rfl) rfl
    exact ⟨e, w', h, (left_by_failure Reference.primitives _).1 0 e w' h⟩
  · obtain ⟨-, e, w', -, h, -⟩ := oneRecord_refill
    obtain ⟨done, hdone⟩ := (left_by_failure Reference.primitives oneRecord).2 Key.zero 1 e w' h
    exact ⟨e, w', done, h, hdone⟩

/-- **Not atomic.** The refill throws, and the record of its first key is in the store. -/
theorem oneRecord_not_atomic : ∃ e w' r id,
    refill Reference.primitives Key.zero 1 oneRecord = .error e w' ∧ w'.records = some r ∧
      r.prekeys id .prekey ≠ none ∧ w'.records ≠ oneRecord.records := by
  obtain ⟨c, e, w', hc, h, hrecords⟩ := oneRecord_refill
  have htype := boxCall_type hc
  have hslot : (Records.put ⟨none, fun _ _ => none⟩ c).prekeys c.identifier .prekey ≠ none := by
    simp [Records.put, htype]
  refine ⟨e, w', _, c.identifier, h, hrecords, hslot, ?_⟩
  intro hsame
  rw [hrecords] at hsame
  have hempty := congrArg (fun r : Records => r.prekeys c.identifier .prekey)
    (Option.some.inj hsame)
  exact hslot hempty

end Gcrypt
