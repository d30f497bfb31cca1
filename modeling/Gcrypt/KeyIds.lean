import Gcrypt.Generated

/-!
# Gcrypt.KeyIds

Which identifiers are the hash of their key (`IsHashed`). The source assigns them in six
places: the three generators of a pair with an identifier, the two loops of `make_lkb`, and
the loop of `refill`. Only `MLKEM_32::make_id_pair` does not: it leaves the zero of the
value-initialised pair, so the last-resort key of a bundle is the one that matters
(`makeLkb_identified_iff`). A refill is identified throughout (`refill_identified`).
-/

namespace Gcrypt

open Effect Keygen

variable {P : Primitives}

/-- The identifier is the `keyid` of the key. -/
def Idkey.IsHashed {n : Nat} (P : Primitives) (k : Idkey n) : Prop := k.identifier = keyid P k.key

/-- Every identifier of the bundle is the hash of its key. -/
structure LocalKeyBundle.Identified (P : Primitives) (lkb : LocalKeyBundle) : Prop where
  SignedPreKey : lkb.SignedPreKey.Public.IsHashed P
  QuantumPreKey : lkb.QuantumPreKey.Public.IsHashed P
  OneTimePreKeys : ∀ e ∈ lkb.OneTimePreKeys.entries, e.1 = keyid P e.2.Public
  OneTimeQuantumKeys : ∀ e ∈ lkb.OneTimeQuantumKeys.entries, e.1 = keyid P e.2.Public

/-- `Count` keys of either kind, every identifier the hash of its key. -/
structure RefillPayload.Identified (P : Primitives) (payload : RefillPayload) (Count : Nat) :
    Prop where
  preKeys_length : payload.oneTimePreKeys.length = Count
  quantumPreKeys_length : payload.signedOneTimeQuantumPreKeys.length = Count
  preKeys : ∀ k ∈ payload.oneTimePreKeys, k.IsHashed P
  quantumPreKeys : ∀ k ∈ payload.signedOneTimeQuantumPreKeys, k.toIdkey.IsHashed P

/-! ### `make_lkb` -/

/-- The entries of a map are filed under what they were inserted with. -/
theorem entries_insertAll {V : Type} {f : V → UInt32} {vs : List V} :
    ∀ e ∈ (insertAll f vs ∅).entries, e.1 = f e.2 := by
  intro e he
  exact (mem_of_lookup_insertAll (AList.mem_lookup_iff.mpr he)).2.symm

/-- The random bytes the last-resort key is made of: those after the identity pair and the
signed prekey. -/
def lastResortCoins (w : World) : Key 64 := (w.skip 64).peek 64

theorem makeLkb_lastResort {deviceId : UInt32} {lkb : LocalKeyBundle} {w w' : World}
    (h : makeLkb P deviceId w = .ok lkb w') :
    P.mlkimplKeypair (lastResortCoins w)
        = .ok ⟨lkb.QuantumPreKey.Public.key, lkb.QuantumPreKey.Private⟩ ∧
      lkb.QuantumPreKey.Public.identifier = 0 := by
  obtain ⟨w₁, w₂, w₃, w₄, w₅, hik, hspk, hqpk, -, -, -⟩ := makeLkb_eq_ok h
  -- The Ed25519 generator is the X25519 one.
  have h₁ : w₁ = (w.skip 32).log (.boxKeypair lkb.IdentityKey) := (makePair_eq_ok hik).2
  obtain ⟨spk, h₂, -⟩ := makeIdPair_eq_ok hspk
  obtain ⟨qpk, hpair, -, hqpk⟩ := mlkemMakeIdPair_eq_ok hqpk
  have hcoins : w₂.peek 64 = lastResortCoins w := by
    simp only [h₂, h₁, World.skip_log, World.peek_log, World.skip_skip, lastResortCoins]
  rw [hcoins] at hpair
  rw [hpair, hqpk]
  exact ⟨rfl, rfl⟩

theorem makeLkb_identified_iff {deviceId : UInt32} {lkb : LocalKeyBundle} {w w' : World}
    (h : makeLkb P deviceId w = .ok lkb w') :
    lkb.Identified P ↔ keyid P lkb.QuantumPreKey.Public.key = 0 := by
  obtain ⟨-, hzero⟩ := makeLkb_lastResort h
  constructor
  · intro hid
    rw [← hzero, hid.QuantumPreKey]
  · intro hkey
    obtain ⟨g, -, -, -, rfl⟩ := makeLkb_returned h
    exact ⟨rfl, hkey.symm, entries_insertAll, entries_insertAll⟩

/-! ### `refill` -/

theorem refillPreKey_isHashed {k : Xcikey} {w w' : World} (h : refillPreKey P w = .ok k w') :
    k.IsHashed P := by
  obtain ⟨pair, -, rfl⟩ := refillPreKey_returned h
  rfl

theorem refillQuantumPreKey_isHashed {priv : Xckey} {k : Qsidkey} {w w' : World}
    (h : refillQuantumPreKey P priv w = .ok k w') : k.toIdkey.IsHashed P := by
  obtain ⟨pair, -, hk⟩ := refillQuantumPreKey_returned h
  rw [hk]
  rfl

/-- **Step.** One round adds a key of either kind. -/
theorem RefillPayload.Identified.append {payload : RefillPayload} {n : Nat} {x : Xcikey}
    {q : Qsidkey} (h : payload.Identified P n) (hx : x.IsHashed P) (hq : q.toIdkey.IsHashed P) :
    RefillPayload.Identified P ⟨payload.oneTimePreKeys ++ [x],
      payload.signedOneTimeQuantumPreKeys ++ [q]⟩ (n + 1) where
  preKeys_length := by rw [List.length_append, h.preKeys_length, List.length_singleton]
  quantumPreKeys_length := by
    rw [List.length_append, h.quantumPreKeys_length, List.length_singleton]
  preKeys k hk := by
    rcases List.mem_append.mp hk with hk | hk
    · exact h.preKeys k hk
    · rw [List.mem_singleton.mp hk]
      exact hx
  quantumPreKeys k hk := by
    rcases List.mem_append.mp hk with hk | hk
    · exact h.quantumPreKeys k hk
    · rw [List.mem_singleton.mp hk]
      exact hq

/-- **Run.** After `count` rounds there are `count` keys more of either kind. -/
theorem refillLoop_identified {priv : Xckey} {count n : Nat} {payload payload' : RefillPayload}
    {w w' : World} (hpayload : payload.Identified P n)
    (h : refillLoop P priv count payload w = .ok payload' w') :
    payload'.Identified P (n + count) := by
  induction count generalizing payload w n with
  | zero =>
    cases h
    exact hpayload
  | succ count ih =>
    unfold refillLoop at h
    obtain ⟨x, w₁, hx, h⟩ := bind_eq_ok.mp h
    obtain ⟨q, w₂, hq, h⟩ := bind_eq_ok.mp h
    have hnext := hpayload.append (refillPreKey_isHashed hx) (refillQuantumPreKey_isHashed hq)
    have hrun := ih hnext h
    rw [Nat.add_assoc, Nat.add_comm 1] at hrun
    exact hrun

theorem refill_identified {priv : Xckey} {Count : UInt32} {payload : RefillPayload} {w w' : World}
    (h : refill P priv Count w = .ok payload w') : payload.Identified P Count.toNat := by
  unfold refill at h
  obtain ⟨_, w₁, -, hloop⟩ := bind_eq_ok.mp h
  have hempty : RefillPayload.Identified P ⟨[], []⟩ 0 := ⟨rfl, rfl, nofun, nofun⟩
  have hrun := refillLoop_identified hempty hloop
  rw [Nat.zero_add] at hrun
  exact hrun

/-- **Identifiers, exactly.** A bundle is identified throughout if and only if the key of last
resort hashes to zero; a refill always is. -/
theorem identified_iff (P : Primitives) (w : World) :
    (∀ deviceId lkb w', makeLkb P deviceId w = .ok lkb w' → (lkb.Identified P ↔
      ∃ pair, P.mlkimplKeypair (lastResortCoins w) = .ok pair ∧ keyid P pair.Public = 0)) ∧
    ∀ priv Count payload w', refill P priv Count w = .ok payload w' →
      payload.Identified P Count.toNat := by
  constructor
  · intro deviceId lkb w' h
    obtain ⟨hpair, -⟩ := makeLkb_lastResort h
    rw [makeLkb_identified_iff h, hpair]
    simp only [Except.ok.injEq, exists_eq_left']
  · intro priv Count payload w' h
    exact refill_identified h

/-! ### A last-resort key -/

/-- No key stored yet and every write accepted. The bytes that `make_lkb` draws are those of
`freshWorld`, but for the zero seeds of the last-resort key; all bytes to come after them are
zero. -/
def newDevice : World where
  manager := some ⟨none, fun _ _ => none, fun _ => true⟩
  entropy i := if 64 ≤ i ∧ i < 128 ∨ 9728 ≤ i then 0 else freshWorld.entropy i
  trace := []

theorem newDevice_lastResort :
    Reference.primitives.mlkimplKeypair (lastResortCoins newDevice)
      = .ok Reference.zeroSeedPair := by
  have hcoins : lastResortCoins newDevice = Key.zero := by decide
  rw [hcoins]
  exact Reference.mlkimplKeypair_zero

theorem newDevice_makeLkb : ∃ lkb w', makeLkb Reference.primitives 0 newDevice = .ok lkb w' :=
  makeLkb_returns reference_mlkimplKeypair 0 (show newDevice.manager = some _ from rfl) rfl

theorem newDevice_refill :
    ∃ payload w', refill Reference.primitives Key.zero 1 newDevice = .ok payload w' := by
  obtain ⟨pair, hpair⟩ := reference_mlkimplKeypair ((newDevice.skip 32).peek 64)
  obtain ⟨k, w', m', -, -, -, -, hloop⟩ :=
    refillLoop_accepted (w := newDevice) rfl rfl hpair Key.zero 0 ⟨[], []⟩
  have hrefill : refill Reference.primitives Key.zero 1 newDevice
      = refillLoop Reference.primitives Key.zero (0 + 1) ⟨[], []⟩ newDevice := by
    rw [refill, bind_of_ok (assertStore_apply rfl)]
    rfl
  rw [refillLoop] at hloop
  exact ⟨_, w', hrefill.trans hloop⟩

theorem identified_iff_newDevice :
    (∃ lkb w', makeLkb Reference.primitives 0 newDevice = .ok lkb w' ∧
      (lkb.Identified Reference.primitives ↔ ∃ pair,
        Reference.primitives.mlkimplKeypair (lastResortCoins newDevice) = .ok pair ∧
          keyid Reference.primitives pair.Public = 0)) ∧
    ∃ payload w', refill Reference.primitives Key.zero 1 newDevice = .ok payload w' ∧
      payload.Identified Reference.primitives 1 := by
  obtain ⟨hlkb, hpayload⟩ := identified_iff Reference.primitives newDevice
  obtain ⟨lkb, w₁, h₁⟩ := newDevice_makeLkb
  obtain ⟨payload, w₂, h₂⟩ := newDevice_refill
  exact ⟨⟨lkb, w₁, h₁, hlkb 0 lkb w₁ h₁⟩, payload, w₂, h₂, hpayload Key.zero 1 payload w₂ h₂⟩

/-- The last-resort key of a new device is handed out under the identifier 0, which is not its
hash. -/
theorem lastResort_not_hashed : ∃ lkb w',
    makeLkb Reference.primitives 0 newDevice = .ok lkb w' ∧
      lkb.QuantumPreKey.Public.identifier = 0 ∧
      keyid Reference.primitives lkb.QuantumPreKey.Public.key ≠ 0 ∧
      ¬ lkb.Identified Reference.primitives := by
  obtain ⟨lkb, w', h⟩ := newDevice_makeLkb
  obtain ⟨hpair, hzero⟩ := makeLkb_lastResort h
  rw [newDevice_lastResort] at hpair
  have hkey : Reference.zeroSeedPair.Public = lkb.QuantumPreKey.Public.key :=
    congrArg KeypairImpl.Public (Except.ok.inj hpair)
  have hhash : keyid Reference.primitives lkb.QuantumPreKey.Public.key ≠ 0 := by
    rw [← hkey, keyid]
    exact Reference.zeroSeedPair_hash
  exact ⟨lkb, w', h, hzero, hhash, fun hid => hhash ((makeLkb_identified_iff h).mp hid)⟩

end Gcrypt
