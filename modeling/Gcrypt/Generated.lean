import Gcrypt.Publishing

/-!
# Gcrypt.Generated

What a call of `make_lkb` or `refill` generates, in the order of the trace, and what
becomes of it: the maps of the bundle, the keys handed out and the calls of the store are
all functions of the pairs generated (`makeLkb_returned`, `refillLoop_returned`,
`refill_storeCalls`). So whatever is handed out or stored is `generated`. On either exit
the calls of the store end with the first that it refuses (`exits_refill`).
-/

namespace Gcrypt

open Effect Keygen

variable {P : Primitives}

/-! ### Maps -/

section Maps

variable {V : Type}

theorem lookup_insertNew (map : UnorderedMap V) (id id' : UInt32) (v : V) :
    (map.insertNew id v).lookup id'
      = (map.lookup id').or (if id = id' then some v else none) := by
  unfold UnorderedMap.insertNew
  by_cases hmem : id ∈ map
  · rw [if_pos hmem]
    by_cases hid : id = id'
    · subst hid
      obtain ⟨u, hu⟩ := Option.isSome_iff_exists.mp (AList.lookup_isSome.mpr hmem)
      rw [hu, Option.some_or]
    · rw [if_neg hid, Option.or_none]
  · rw [if_neg hmem]
    by_cases hid : id = id'
    · subst hid
      rw [AList.lookup_insert, if_pos rfl, AList.lookup_eq_none.mpr hmem, Option.none_or]
    · rw [AList.lookup_insert_ne (Ne.symm hid), if_neg hid, Option.or_none]

/-- Insert all values under their identifiers; the first of an identifier stays. -/
def insertAll (f : V → UInt32) (vs : List V) (map : UnorderedMap V) : UnorderedMap V :=
  vs.foldl (fun map v => map.insertNew (f v) v) map

theorem lookup_insertAll (f : V → UInt32) (vs : List V) (map : UnorderedMap V) (id : UInt32) :
    (insertAll f vs map).lookup id = (map.lookup id).or (vs.find? fun v => f v = id) := by
  induction vs generalizing map with
  | nil => simp [insertAll]
  | cons v vs ih =>
    have hstep : insertAll f (v :: vs) map = insertAll f vs (map.insertNew (f v) v) := rfl
    rw [hstep, ih, lookup_insertNew, Option.or_assoc]
    congr 1
    by_cases hid : f v = id
    · simp [hid]
    · simp [hid]

/-- Whatever is found was inserted under its identifier. -/
theorem mem_of_lookup_insertAll {f : V → UInt32} {vs : List V} {id : UInt32} {v : V}
    (h : (insertAll f vs ∅).lookup id = some v) : v ∈ vs ∧ f v = id := by
  rw [lookup_insertAll, AList.lookup_empty, Option.none_or] at h
  exact ⟨List.mem_of_find?_eq_some h, by simpa using List.find?_some h⟩

/-- Without a clash everything that was inserted is found. -/
theorem lookup_insertAll_of_mem {f : V → UInt32} {vs : List V} {v : V}
    (hinj : ∀ a ∈ vs, ∀ b ∈ vs, f a = f b → a = b) (hv : v ∈ vs) :
    (insertAll f vs ∅).lookup (f v) = some v := by
  rw [lookup_insertAll, AList.lookup_empty, Option.none_or]
  cases hfind : vs.find? fun u => f u = f v with
  | none =>
    have := List.find?_eq_none.mp hfind v hv
    simp at this
  | some u =>
    have hu : f u = f v := by simpa using List.find?_some hfind
    rw [hinj u (List.mem_of_find?_eq_some hfind) v hv hu]

end Maps

/-! ### What is generated -/

/-- A public key under the identifier and key type it is found by. -/
structure Named where
  identifier : UInt32
  type : KeyType
  key : Vkey
  deriving DecidableEq

/-- A generated pair, under the hash of its public key. -/
def Event.named (P : Primitives) : Event → Option Named
  | .boxKeypair pair => some ⟨keyid P pair.Public, .prekey, pair.Public.bytes⟩
  | .mlkemKeypair pair => some ⟨keyid P pair.Public, .quantum, pair.Public.bytes⟩
  | _ => none

/-- The pairs generated in a trace, under the hashes of their public keys. -/
def generated (P : Primitives) (es : List Event) : List Named := es.filterMap (Event.named P)

theorem mem_generated {es : List Event} {k : Named} :
    k ∈ generated P es ↔ ∃ e ∈ es, e.named P = some k := List.mem_filterMap

/-! ### What one call generates

Each call that returns, with the pairs it generated; what it delivers is a function of
them. -/

section Returned

theorem valueOrThrow_eq_ok {α : Type} {x : Except KeyGenError α} {a : α} {w w' : World}
    (h : valueOrThrow x w = .ok a w') : x = .ok a ∧ w' = w := by
  cases x with
  | ok b =>
    cases h
    exact ⟨rfl, rfl⟩
  | error e => cases h

/-- `make_pair` of either curve, and the throw of its error. -/
theorem makePair_eq_ok {pair : Xckeypair} {w w' : World}
    (h : (X25519.makePair P >>= valueOrThrow) w = .ok pair w') :
    pair = nextBoxPair P w ∧ w' = (w.skip 32).log (.boxKeypair pair) := by
  rw [bind_of_ok (X25519.makePair_apply P w)] at h
  obtain ⟨heq, rfl⟩ := valueOrThrow_eq_ok h
  cases heq
  exact ⟨rfl, rfl⟩

theorem makePair_returned {pair : Xckeypair} {w w' : World}
    (h : (X25519.makePair P >>= valueOrThrow) w = .ok pair w') :
    World.Traced [.boxKeypair pair] w w' := by
  rw [(makePair_eq_ok h).2]
  rfl

theorem makeIdPair_eq_ok {pair : Xcikeypair} {w w' : World}
    (h : (X25519.makeIdPair P >>= valueOrThrow) w = .ok pair w') :
    ∃ p, w' = (w.skip 32).log (.boxKeypair p) ∧
      pair = ⟨⟨p.Public, keyid P p.Public⟩, p.Private⟩ := by
  obtain ⟨r, w₁, hr, h⟩ := bind_eq_ok.mp h
  obtain ⟨rfl, rfl⟩ := valueOrThrow_eq_ok h
  unfold X25519.makeIdPair at hr
  rw [bind_of_ok (cryptoBoxKeypair_apply P w)] at hr
  cases hr
  exact ⟨_, rfl, rfl⟩

/-- A KEM pair that is returned, with either identifier. -/
theorem mlkimplKeypair_eq_ok {pair : Qkeypair} {w w' : World}
    (h : mlkimplKeypair P w = .ok (.ok pair) w') :
    P.mlkimplKeypair (w.peek 64) = .ok pair ∧ w' = (w.skip 64).log (.mlkemKeypair pair) := by
  rw [mlkimplKeypair_apply] at h
  cases hk : P.mlkimplKeypair (w.peek 64) with
  | ok p =>
    rw [hk] at h
    cases h
    exact ⟨rfl, rfl⟩
  | error code =>
    rw [hk] at h
    cases h

theorem mlkemMakePair_returned {pair : Qkeypair} {w w' : World}
    (h : (Mlkem32.makePair P >>= valueOrThrow) w = .ok pair w') :
    World.Traced [.mlkemKeypair pair] w w' := by
  obtain ⟨r, w₁, hr, h⟩ := bind_eq_ok.mp h
  obtain ⟨rfl, rfl⟩ := valueOrThrow_eq_ok h
  obtain ⟨r', w₂, hr', hr⟩ := bind_eq_ok.mp hr
  cases r' with
  | ok p =>
    cases hr
    rw [(mlkimplKeypair_eq_ok hr').2]
    rfl
  | error code => cases hr

theorem mlkemMakeIdPair_eq_ok {pair : Qikeypair} {w w' : World}
    (h : (Mlkem32.makeIdPair P >>= valueOrThrow) w = .ok pair w') :
    ∃ p, P.mlkimplKeypair (w.peek 64) = .ok p ∧ w' = (w.skip 64).log (.mlkemKeypair p) ∧
      pair = ⟨⟨p.Public, 0⟩, p.Private⟩ := by
  obtain ⟨r, w₁, hr, h⟩ := bind_eq_ok.mp h
  obtain ⟨rfl, rfl⟩ := valueOrThrow_eq_ok h
  obtain ⟨r', w₂, hr', hr⟩ := bind_eq_ok.mp hr
  cases r' with
  | ok p =>
    cases hr
    obtain ⟨hpair, hworld⟩ := mlkimplKeypair_eq_ok hr'
    exact ⟨p, hpair, hworld, rfl⟩
  | error code => cases hr

theorem fillOneTimePreKeys_returned {count : Nat} {map map' : UnorderedMap Xckeypair}
    {w w' : World} (h : fillOneTimePreKeys P count map w = .ok map' w') :
    ∃ pairs : List Xckeypair, pairs.length = count ∧
      World.Traced (pairs.map .boxKeypair) w w' ∧
      map' = insertAll (fun pair => keyid P pair.Public) pairs map := by
  induction count generalizing map w with
  | zero =>
    cases h
    exact ⟨[], rfl, by simp [World.Traced], rfl⟩
  | succ count ih =>
    unfold fillOneTimePreKeys at h
    obtain ⟨r, w₁, hr, h⟩ := bind_eq_ok.mp h
    obtain ⟨val, w₂, hval, h⟩ := bind_eq_ok.mp h
    have hpair := makePair_returned (bind_eq_ok.mpr ⟨r, w₁, hr, hval⟩)
    obtain ⟨pairs, hlen, htrace, rfl⟩ := ih h
    exact ⟨val :: pairs, by rw [List.length_cons, hlen], hpair.trans htrace, rfl⟩

theorem fillOneTimeQuantumKeys_returned {count : Nat} {map map' : UnorderedMap Qkeypair}
    {w w' : World} (h : fillOneTimeQuantumKeys P count map w = .ok map' w') :
    ∃ pairs : List Qkeypair, pairs.length = count ∧
      World.Traced (pairs.map .mlkemKeypair) w w' ∧
      map' = insertAll (fun pair => keyid P pair.Public) pairs map := by
  induction count generalizing map w with
  | zero =>
    cases h
    exact ⟨[], rfl, by simp [World.Traced], rfl⟩
  | succ count ih =>
    unfold fillOneTimeQuantumKeys at h
    obtain ⟨r, w₁, hr, h⟩ := bind_eq_ok.mp h
    obtain ⟨val, w₂, hval, h⟩ := bind_eq_ok.mp h
    have hpair := mlkemMakePair_returned (bind_eq_ok.mpr ⟨r, w₁, hr, hval⟩)
    obtain ⟨pairs, hlen, htrace, rfl⟩ := ih h
    exact ⟨val :: pairs, by rw [List.length_cons, hlen], hpair.trans htrace, rfl⟩

/-- What `make_lkb` generates, in order. -/
structure LkbPairs where
  identity : Xckeypair
  signed : Xckeypair
  quantum : Qkeypair
  oneTime : List Xckeypair
  oneTimeQuantum : List Qkeypair

/-- The pairs that do not go into a map. -/
def LkbPairs.single (g : LkbPairs) : List Event :=
  [.boxKeypair g.identity, .boxKeypair g.signed, .mlkemKeypair g.quantum]

/-- All the pairs, as events. -/
def LkbPairs.events (g : LkbPairs) : List Event :=
  g.single ++ g.oneTime.map .boxKeypair ++ g.oneTimeQuantum.map .mlkemKeypair

/-- The bundle made of them. -/
def LkbPairs.bundle (P : Primitives) (g : LkbPairs) : LocalKeyBundle where
  IdentityKey := g.identity
  SignedPreKey := ⟨⟨g.signed.Public, keyid P g.signed.Public⟩, g.signed.Private⟩
  QuantumPreKey := ⟨⟨g.quantum.Public, 0⟩, g.quantum.Private⟩
  OneTimePreKeys := insertAll (fun pair => keyid P pair.Public) g.oneTime ∅
  OneTimeQuantumKeys := insertAll (fun pair => keyid P pair.Public) g.oneTimeQuantum ∅

/-- **Specification** of `make_lkb`. -/
theorem makeLkb_returned {deviceId : UInt32} {lkb : LocalKeyBundle} {w w' : World}
    (h : makeLkb P deviceId w = .ok lkb w') :
    ∃ g : LkbPairs, g.oneTime.length = initialPrekeyBundleCount ∧
      g.oneTimeQuantum.length = initialPrekeyBundleCount ∧
      World.Traced g.events w w' ∧ lkb = g.bundle P := by
  obtain ⟨w₁, w₂, w₃, w₄, w₅, hik, hspk, hqpk, hotk, hotq, hstore⟩ := makeLkb_eq_ok h
  -- The Ed25519 generator is the X25519 one.
  have h₁ : World.Traced [.boxKeypair lkb.IdentityKey] w w₁ := makePair_returned hik
  obtain ⟨spk, hw₂, hspk⟩ := makeIdPair_eq_ok hspk
  obtain ⟨qpk, -, hw₃, hqpk⟩ := mlkemMakeIdPair_eq_ok hqpk
  have h₂ : World.Traced [.boxKeypair spk] w₁ w₂ := by rw [hw₂, World.Traced]; rfl
  have h₃ : World.Traced [.mlkemKeypair qpk] w₂ w₃ := by rw [hw₃, World.Traced]; rfl
  obtain ⟨otks, hlen₄, h₄, hotk⟩ := fillOneTimePreKeys_returned hotk
  obtain ⟨otqs, hlen₅, h₅, hotq⟩ := fillOneTimeQuantumKeys_returned hotq
  have h₆ : w'.trace = w₅.trace := (storeIdentityKeyPair_trace _).of_ok hstore
  refine ⟨⟨lkb.IdentityKey, spk, qpk, otks, otqs⟩, hlen₄, hlen₅, ?_, ?_⟩
  · rw [World.Traced, h₆]
    exact (((h₁.trans h₂).trans h₃).trans h₄).trans h₅
  · cases lkb
    simp only at hspk hqpk hotk hotq
    simp only [LkbPairs.bundle, hspk, hqpk, hotk, hotq]

theorem refillPreKey_returned {k : Xcikey} {w w' : World} (h : refillPreKey P w = .ok k w') :
    ∃ pair : Xckeypair, World.Traced [.boxKeypair pair] w w' ∧
      k = ⟨pair.Public, keyid P pair.Public⟩ := by
  obtain ⟨pair, w₁, hpair, hstore, hk⟩ := refillPreKey_eq_ok h
  have htrace : w'.trace = w₁.trace := (storeOneTimePrekey_trace _ _ _).of_ok hstore
  exact ⟨pair, htrace.trans (makePair_returned hpair), hk⟩

theorem refillQuantumPreKey_returned {priv : Xckey} {k : Qsidkey} {w w' : World}
    (h : refillQuantumPreKey P priv w = .ok k w') :
    ∃ pair : Qkeypair, World.Traced [.mlkemKeypair pair] w w' ∧
      k.toIdkey = ⟨pair.Public, keyid P pair.Public⟩ := by
  obtain ⟨pair, w₁, w₂, hpair, hstore, rfl, hk⟩ := refillQuantumPreKey_eq_ok h
  have htrace : w₂.trace = w₁.trace := (storeOneTimePrekey_trace _ _ _).of_ok hstore
  exact ⟨pair, htrace.trans (mlkemMakePair_returned hpair), hk⟩

end Returned

/-! ### What is handed out -/

/-- A public key that carries its identifier. -/
def Idkey.named {n : Nat} (k : Idkey n) (type : KeyType) : Named :=
  ⟨k.identifier, type, k.key.bytes⟩

/-- The keys of both lists. -/
def RefillPayload.handsOut (payload : RefillPayload) : List Named :=
  payload.oneTimePreKeys.map (·.named .prekey) ++
    payload.signedOneTimeQuantumPreKeys.map (·.toIdkey.named .quantum)

/-- The signed prekey and the keys of both maps. -/
def LocalKeyBundle.handsOut (lkb : LocalKeyBundle) : List Named :=
  lkb.SignedPreKey.Public.named .prekey ::
    lkb.OneTimePreKeys.entries.map (fun e => ⟨e.1, .prekey, e.2.Public.bytes⟩) ++
    lkb.OneTimeQuantumKeys.entries.map (fun e => ⟨e.1, .quantum, e.2.Public.bytes⟩)

theorem generated_append (es es' : List Event) :
    generated P (es ++ es') = generated P es ++ generated P es' := List.filterMap_append

theorem generated_mono {es es' : List Event} (h : ∀ e ∈ es, e ∈ es') :
    ∀ k ∈ generated P es, k ∈ generated P es' := by
  intro k hk
  obtain ⟨e, he, hnamed⟩ := mem_generated.mp hk
  exact mem_generated.mpr ⟨e, h e he, hnamed⟩

/-- Step by step, the payload grows by keys that were just generated. -/
theorem refillLoop_returned {priv : Xckey} {count : Nat} {payload payload' : RefillPayload}
    {w w' : World} (h : refillLoop P priv count payload w = .ok payload' w') :
    ∃ es, World.Traced es w w' ∧
      ∀ k ∈ payload'.handsOut, k ∈ payload.handsOut ∨ k ∈ generated P es := by
  induction count generalizing payload w with
  | zero =>
    cases h
    exact ⟨[], by simp [World.Traced], fun k hk => Or.inl hk⟩
  | succ count ih =>
    unfold refillLoop at h
    obtain ⟨x, w₁, hx, h⟩ := bind_eq_ok.mp h
    obtain ⟨q, w₂, hq, h⟩ := bind_eq_ok.mp h
    obtain ⟨pair, htrace₁, rfl⟩ := refillPreKey_returned hx
    obtain ⟨qpair, htrace₂, hqkey⟩ := refillQuantumPreKey_returned hq
    obtain ⟨es, htrace, hes⟩ := ih h
    refine ⟨_, (htrace₁.trans htrace₂).trans htrace, ?_⟩
    intro k hk
    rw [generated_append, List.mem_append]
    rcases hes k hk with hk | hk
    · simp only [RefillPayload.handsOut, List.map_append, List.map_cons, List.map_nil,
        List.mem_append, List.mem_singleton, hqkey] at hk
      rcases hk with (hk | rfl) | hk | rfl
      · exact Or.inl (List.mem_append_left _ hk)
      · exact Or.inr (Or.inl (mem_generated.mpr ⟨.boxKeypair pair, by simp, rfl⟩))
      · exact Or.inl (List.mem_append_right _ hk)
      · exact Or.inr (Or.inl (mem_generated.mpr ⟨.mlkemKeypair qpair, by simp, rfl⟩))
    · exact Or.inr (Or.inr hk)

theorem refill_handsOut {priv : Xckey} {count : UInt32} {payload : RefillPayload} {w w' : World}
    (h : refill P priv count w = .ok payload w') :
    ∀ k ∈ payload.handsOut, k ∈ generated P (w.newEvents w') := by
  unfold refill at h
  obtain ⟨_, w₁, hassert, hloop⟩ := bind_eq_ok.mp h
  cases assertStore_returned hassert
  obtain ⟨es, htrace, hes⟩ := refillLoop_returned hloop
  intro k hk
  rw [htrace.newEvents]
  rcases hes k hk with hk | hk
  · simp [RefillPayload.handsOut] at hk
  · exact hk

theorem makeLkb_handsOut {deviceId : UInt32} {lkb : LocalKeyBundle} {w w' : World}
    (h : makeLkb P deviceId w = .ok lkb w') :
    ∀ k ∈ lkb.handsOut, k ∈ generated P (w.newEvents w') := by
  obtain ⟨g, -, -, htrace, rfl⟩ := makeLkb_returned h
  intro k hk
  rw [htrace.newEvents]
  simp only [LocalKeyBundle.handsOut, List.cons_append, List.mem_cons, List.mem_append,
    List.mem_map] at hk
  rcases hk with rfl | ⟨e, he, rfl⟩ | ⟨e, he, rfl⟩
  · exact mem_generated.mpr
      ⟨.boxKeypair g.signed, by simp [LkbPairs.events, LkbPairs.single], rfl⟩
  · obtain ⟨hmem, hid⟩ := mem_of_lookup_insertAll (AList.mem_lookup_iff.mpr he)
    refine mem_generated.mpr ⟨.boxKeypair e.2, by simp [LkbPairs.events, hmem], ?_⟩
    rw [Event.named, hid]
  · obtain ⟨hmem, hid⟩ := mem_of_lookup_insertAll (AList.mem_lookup_iff.mpr he)
    refine mem_generated.mpr ⟨.mlkemKeypair e.2, by simp [LkbPairs.events, hmem], ?_⟩
    rw [Event.named, hid]

/-! ### What is stored -/

/-- A call of `store_one_time_prekey`, and the public key whose private half it is for. -/
structure StoreCall extends Named where
  blob : Vkey

/-- `refill` stores each pair it generates, under the hash of its public key. -/
def Event.storeCall (P : Primitives) : Event → Option StoreCall
  | .boxKeypair pair => some {
      identifier := keyid P pair.Public
      type := .prekey
      key := pair.Public.bytes
      blob := keyBytes [⟨_, pair.Public⟩, ⟨_, pair.Private⟩] }
  | .mlkemKeypair pair => some {
      identifier := keyid P pair.Public
      type := .quantum
      key := pair.Public.bytes
      blob := keyBytes [⟨_, pair.Public⟩, ⟨_, pair.Private⟩] }
  | _ => none

/-- The calls of the store that go with the pairs generated in a trace. -/
def storeCalls (P : Primitives) (es : List Event) : List StoreCall :=
  es.filterMap (Event.storeCall P)

/-- The store after the call, accepted or not. -/
def StoreCall.apply (m : StorageManager) (c : StoreCall) : StorageManager :=
  (m.write (m.putPrekey c.identifier c.type c.blob)).2

theorem stores_generated {es : List Event} :
    ∀ c ∈ storeCalls P es, c.toNamed ∈ generated P es := by
  intro c hc
  obtain ⟨e, he, hcall⟩ := List.mem_filterMap.mp hc
  refine mem_generated.mpr ⟨e, he, ?_⟩
  cases e with
  | boxKeypair pair =>
    cases hcall
    rfl
  | mlkemKeypair pair =>
    cases hcall
    rfl
  | _ => cases hcall

/-- The store calls account for the store after the call, with what was generated. -/
def Stores (P : Primitives) (w w' : World) : Prop :=
  ∃ es, World.Traced es w w' ∧
    w'.manager = w.manager.map fun m => (storeCalls P es).foldl StoreCall.apply m

@[simp] theorem accepts_apply (m : StorageManager) (c : StoreCall) (i : Nat) :
    (c.apply m).accepts i = m.accepts (i + 1) := by
  cases hacc : m.accepts 0 <;> simp [StoreCall.apply, StorageManager.write, hacc]

theorem accepts_foldl_apply (cs : List StoreCall) (m : StorageManager) (i : Nat) :
    (cs.foldl StoreCall.apply m).accepts i = m.accepts (i + cs.length) := by
  induction cs generalizing m with
  | nil => rfl
  | cons c cs ih => rw [List.foldl_cons, ih, accepts_apply, List.length_cons, Nat.add_assoc]

/-- The store accepts these calls. -/
def StorageManager.Accepts (m : StorageManager) (cs : List StoreCall) : Prop :=
  ∀ i < cs.length, m.accepts i = true

/-- The calls end with the first that is refused, if one is. -/
def StorageManager.StopsAt (m : StorageManager) (cs : List StoreCall) : Prop :=
  m.Accepts cs ∨
    ∃ done refused, cs = done ++ [refused] ∧ m.Accepts done ∧ m.accepts done.length = false

theorem accepts_append {m : StorageManager} {cs cs' : List StoreCall} :
    m.Accepts (cs ++ cs') ↔ m.Accepts cs ∧ (cs.foldl StoreCall.apply m).Accepts cs' := by
  unfold StorageManager.Accepts
  simp only [accepts_foldl_apply, List.length_append]
  constructor
  · intro h
    exact ⟨fun i hi => h i (by omega), fun i hi => h (i + cs.length) (by omega)⟩
  · rintro ⟨h, h'⟩ i hi
    by_cases hlt : i < cs.length
    · exact h i hlt
    · have hi' := h' (i - cs.length) (by omega)
      rw [Nat.sub_add_cancel (by omega)] at hi'
      exact hi'

theorem StorageManager.Accepts.stopsAt {m : StorageManager} {cs cs' : List StoreCall}
    (h : m.Accepts cs) (h' : (cs.foldl StoreCall.apply m).StopsAt cs') : m.StopsAt (cs ++ cs') := by
  rcases h' with h' | ⟨done, refused, rfl, hdone, hrefused⟩
  · exact Or.inl (accepts_append.mpr ⟨h, h'⟩)
  · rw [accepts_foldl_apply] at hrefused
    refine Or.inr ⟨cs ++ done, refused, by rw [List.append_assoc],
      accepts_append.mpr ⟨h, hdone⟩, ?_⟩
    rw [List.length_append, Nat.add_comm]
    exact hrefused

/-- `Stores`, where `p` holds of the calls. -/
def StoresWith (P : Primitives) (p : StorageManager → List StoreCall → Prop) (w w' : World) :
    Prop :=
  ∃ es, World.Traced es w w' ∧
    (w'.manager = w.manager.map fun m => (storeCalls P es).foldl StoreCall.apply m) ∧
    ∀ m, w.manager = some m → p m (storeCalls P es)

/-- Every pair was stored. -/
abbrev StoresAll (P : Primitives) : World → World → Prop := StoresWith P StorageManager.Accepts

/-- Every pair was stored, but perhaps the last. -/
abbrev StoresUntil (P : Primitives) : World → World → Prop := StoresWith P StorageManager.StopsAt

theorem storesWith_of_same {p : StorageManager → List StoreCall → Prop} {w w' : World}
    (ht : w'.trace = w.trace) (hm : w'.manager = w.manager) (hp : ∀ m, p m []) :
    StoresWith P p w w' :=
  ⟨[], by simp [World.Traced, ht], by simp [storeCalls, hm], fun m _ => hp m⟩

theorem accepts_nil (m : StorageManager) : m.Accepts [] := fun _ hi => absurd hi (Nat.not_lt_zero _)

theorem storesAll_of_same {w w' : World} (ht : w'.trace = w.trace) (hm : w'.manager = w.manager) :
    StoresAll P w w' := storesWith_of_same ht hm accepts_nil

theorem storesUntil_of_same {w w' : World} (ht : w'.trace = w.trace)
    (hm : w'.manager = w.manager) : StoresUntil P w w' :=
  storesWith_of_same ht hm fun m => Or.inl (accepts_nil m)

theorem StoresWith.then {p : StorageManager → List StoreCall → Prop}
    (happ : ∀ {m cs cs'}, m.Accepts cs → p (cs.foldl StoreCall.apply m) cs' → p m (cs ++ cs'))
    {w₁ w₂ w₃ : World} (h : StoresAll P w₁ w₂) (h' : StoresWith P p w₂ w₃) :
    StoresWith P p w₁ w₃ := by
  obtain ⟨es, ht, hm, hall⟩ := h
  obtain ⟨es', ht', hm', hp⟩ := h'
  have hcalls : storeCalls P (es ++ es') = storeCalls P es ++ storeCalls P es' :=
    List.filterMap_append
  refine ⟨es ++ es', ht.trans ht', ?_, ?_⟩
  · rw [hm', hm, Option.map_map, hcalls]
    simp only [List.foldl_append, Function.comp_def]
  · intro m hsome
    rw [hcalls]
    exact happ (hall m hsome) (hp _ (by rw [hm, hsome, Option.map_some]))

theorem stores_exitFrame : ExitFrame (StoresAll P) (StoresAll P) (StoresUntil P) where
  trans h h' := h.then (fun ha hb => accepts_append.mpr ⟨ha, hb⟩) h'
  fail h h' := h.then (fun ha hb => ha.stopsAt hb) h'

theorem storeCall_apply {w : World} {m : StorageManager} (hm : w.manager = some m)
    (c : StoreCall) : storeOneTimePrekey c.identifier c.type c.blob w
      = .ok (m.accepts 0) (w.setManager (c.apply m)) := by
  rw [storeOneTimePrekey_apply hm]
  cases hacc : m.accepts 0 <;> simp [StoreCall.apply, StorageManager.write, hacc]

/-- Generating one pair and storing it; `rest` is what follows. -/
theorem ended_of_storeOneTimePrekey {α : Type} {e : Event} {c : StoreCall} {w w₁ : World}
    (htrace : World.Traced [e] w w₁) (hmanager : w₁.manager = w.manager)
    (hcall : e.storeCall P = some c) {fault : Fault} {rest : GcryptM α}
    (hrest : Exits (StoresAll P) (StoresUntil P) rest) :
    Ended (StoresAll P) (StoresUntil P) w
      ((storeOneTimePrekey c.identifier c.type c.blob >>= fun stored =>
        if !stored then throw fault else rest) w₁) := by
  have hcalls : storeCalls P [e] = [c] := by simp [storeCalls, hcall]
  cases hm : w₁.manager with
  | none =>
    rw [bind_of_error (storeOneTimePrekey_of_none hm _ _ _)]
    refine ⟨[e], htrace, by rw [hm, ← hmanager, hm]; rfl, ?_⟩
    intro m hsome
    rw [← hmanager, hm] at hsome
    cases hsome
  | some m =>
    have hw : w.manager = some m := hmanager.symm.trans hm
    have hstored : (w₁.setManager (c.apply m)).manager
        = w.manager.map fun m => (storeCalls P [e]).foldl StoreCall.apply m := by
      rw [hw, hcalls]
      rfl
    rw [bind_of_ok (storeCall_apply hm c)]
    cases hacc : m.accepts 0 with
    | false =>
      refine ⟨[e], htrace, hstored, ?_⟩
      intro m' hm'
      rw [hw, Option.some.injEq] at hm'
      rw [hcalls, ← hm']
      exact Or.inr ⟨[], c, rfl, accepts_nil m, hacc⟩
    | true =>
      have hall : StoresAll P w (w₁.setManager (c.apply m)) := by
        refine ⟨[e], htrace, hstored, ?_⟩
        intro m' hm' i hi
        rw [hw, Option.some.injEq] at hm'
        rw [hcalls, List.length_singleton, Nat.lt_one_iff] at hi
        rw [← hm', hi, hacc]
      exact (hrest.ended (w₁.setManager (c.apply m))).then stores_exitFrame hall

theorem exits_pure {α : Type} (a : α) :
    Exits (StoresAll P) (StoresUntil P) (pure a : GcryptM α) :=
  Exits.pure (fun _ => storesAll_of_same rfl rfl) a

theorem exits_refillPreKey : Exits (StoresAll P) (StoresUntil P) (refillPreKey P) := by
  refine ⟨fun w => ?_⟩
  have htrace : World.Traced [.boxKeypair (nextBoxPair P w)] w
      ((w.skip 32).log (.boxKeypair (nextBoxPair P w))) := rfl
  have hcall : (Event.boxKeypair (nextBoxPair P w)).storeCall P = some _ := rfl
  unfold refillPreKey
  rw [bind_of_ok (X25519.makePair_apply P w), bind_of_ok (valueOrThrow_ok_apply _ _)]
  exact ended_of_storeOneTimePrekey htrace rfl hcall (exits_pure _)

theorem exits_refillQuantumPreKey (priv : Xckey) :
    Exits (StoresAll P) (StoresUntil P) (refillQuantumPreKey P priv) := by
  refine ⟨fun w => ?_⟩
  unfold refillQuantumPreKey
  cases hk : P.mlkimplKeypair (w.peek 64) with
  | error code =>
    have hthrow : valueOrThrow (.error .libraryError : Except KeyGenError Qkeypair) (w.skip 64)
        = .error (.text (descriptiveError .libraryError)) (w.skip 64) := rfl
    rw [bind_of_ok (Mlkem32.makePair_of_error P hk), bind_of_error hthrow]
    exact storesUntil_of_same rfl rfl
  | ok pair =>
    have htrace : World.Traced [.mlkemKeypair pair] w
        ((w.skip 64).log (.mlkemKeypair pair)) := rfl
    have hcall : (Event.mlkemKeypair pair).storeCall P = some _ := rfl
    rw [bind_of_ok (Mlkem32.makePair_of_ok P hk), bind_of_ok (valueOrThrow_ok_apply _ _)]
    refine ended_of_storeOneTimePrekey htrace rfl hcall ?_
    -- Signing only draws random bytes.
    exact ⟨fun w₂ => storesAll_of_same rfl rfl⟩

/-- **Run.** The loop stores what it generates, up to the first call that is refused. -/
theorem exits_refillLoop (priv : Xckey) (count : Nat) (payload : RefillPayload) :
    Exits (StoresAll P) (StoresUntil P) (refillLoop P priv count payload) := by
  induction count generalizing payload with
  | zero => exact exits_pure payload
  | succ count ih =>
    refine Exits.bind stores_exitFrame exits_refillPreKey fun x => ?_
    refine Exits.bind stores_exitFrame (exits_refillQuantumPreKey priv) fun q => ?_
    exact ih _

theorem exits_refill (priv : Xckey) (count : UInt32) :
    Exits (StoresAll P) (StoresUntil P) (refill P priv count) := by
  refine Exits.bind stores_exitFrame ?_ fun _ => exits_refillLoop priv count.toNat ⟨[], []⟩
  refine ⟨fun w => ?_⟩
  cases hm : w.manager with
  | none =>
    rw [assertStore_of_none hm]
    exact storesUntil_of_same rfl rfl
  | some m =>
    rw [assertStore_apply hm]
    exact storesAll_of_same rfl rfl

theorem StoresWith.stores {p : StorageManager → List StoreCall → Prop} {w w' : World}
    (h : StoresWith P p w w') : Stores P w w' := by
  obtain ⟨es, htrace, hmanager, -⟩ := h
  exact ⟨es, htrace, hmanager⟩

theorem refill_stores (priv : Xckey) (count : UInt32) (w : World) :
    Stores P w (finalState (refill P priv count w)) := by
  have hended := (exits_refill (P := P) priv count).ended w
  cases h : refill P priv count w with
  | ok payload w' =>
    rw [h] at hended
    exact StoresWith.stores hended
  | error e w' =>
    rw [h] at hended
    exact StoresWith.stores hended

/-- The store calls of a refill, also of one that throws: one for each pair it generated,
in order. -/
theorem refill_storeCalls (priv : Xckey) (count : UInt32) (w : World) :
    (finalState (refill P priv count w)).manager = w.manager.map fun m =>
      (storeCalls P (w.newEvents (finalState (refill P priv count w)))).foldl
        StoreCall.apply m := by
  obtain ⟨es, htrace, hmanager⟩ := refill_stores (P := P) priv count w
  rw [← htrace.newEvents] at hmanager
  exact hmanager

/-! ### Accepted and refused writes -/

theorem refillPreKey_accepted {w : World} {m : StorageManager} (hm : w.manager = some m)
    {c : StoreCall} (hcall : (Event.boxKeypair (nextBoxPair P w)).storeCall P = some c)
    (hacc : m.accepts 0 = true) :
    refillPreKey P w = .ok ⟨(nextBoxPair P w).Public, keyid P (nextBoxPair P w).Public⟩
      (((w.skip 32).log (.boxKeypair (nextBoxPair P w))).setManager (c.apply m)) := by
  have hstore := storeCall_apply (w := (w.skip 32).log (.boxKeypair (nextBoxPair P w))) hm c
  cases hcall
  unfold refillPreKey
  rw [bind_of_ok (X25519.makePair_apply P w), bind_of_ok (valueOrThrow_ok_apply _ _)]
  rw [bind_of_ok hstore, hacc]
  rfl

theorem refillQuantumPreKey_accepted {w : World} {m : StorageManager} (hm : w.manager = some m)
    {pair : Qkeypair} (hpair : P.mlkimplKeypair (w.peek 64) = .ok pair)
    {c : StoreCall} (hcall : (Event.mlkemKeypair pair).storeCall P = some c)
    (hacc : m.accepts 0 = true) (priv : Xckey) :
    ∃ k, refillQuantumPreKey P priv w
      = .ok k ((((w.skip 64).log (.mlkemKeypair pair)).setManager (c.apply m)).skip 64) := by
  have hstore := storeCall_apply (w := (w.skip 64).log (.mlkemKeypair pair)) hm c
  cases hcall
  unfold refillQuantumPreKey
  rw [bind_of_ok (Mlkem32.makePair_of_ok P hpair), bind_of_ok (valueOrThrow_ok_apply _ _)]
  rw [bind_of_ok hstore, hacc]
  exact ⟨_, rfl⟩

theorem refillQuantumPreKey_refused {w : World} {m : StorageManager} (hm : w.manager = some m)
    {pair : Qkeypair} (hpair : P.mlkimplKeypair (w.peek 64) = .ok pair)
    {c : StoreCall} (hcall : (Event.mlkemKeypair pair).storeCall P = some c)
    (hacc : m.accepts 0 = false) (priv : Xckey) :
    refillQuantumPreKey P priv w
      = .error (.runtimeError "Gcrypt::store_one_time_prekey failed.")
          (((w.skip 64).log (.mlkemKeypair pair)).setManager (c.apply m)) := by
  have hstore := storeCall_apply (w := (w.skip 64).log (.mlkemKeypair pair)) hm c
  cases hcall
  unfold refillQuantumPreKey
  rw [bind_of_ok (Mlkem32.makePair_of_ok P hpair), bind_of_ok (valueOrThrow_ok_apply _ _)]
  rw [bind_of_ok hstore, hacc]
  rfl

/-- One round of the loop, with a store that accepts every write: 160 random bytes, two
pairs. -/
theorem refillLoop_accepted {w : World} {m : StorageManager} (hm : w.manager = some m)
    (hacc : m.accepts = fun _ => true) {pair : Qkeypair}
    (hpair : P.mlkimplKeypair ((w.skip 32).peek 64) = .ok pair) (priv : Xckey) (count : Nat)
    (payload : RefillPayload) :
    ∃ k w' m', w'.manager = some m' ∧ m'.accepts = (fun _ => true) ∧
      w'.entropy = (w.skip 160).entropy ∧
      World.Traced [.boxKeypair (nextBoxPair P w), .mlkemKeypair pair] w w' ∧
      refillLoop P priv (count + 1) payload w
        = refillLoop P priv count
            ⟨payload.oneTimePreKeys
              ++ [⟨(nextBoxPair P w).Public, keyid P (nextBoxPair P w).Public⟩],
            payload.signedOneTimeQuantumPreKeys ++ [k]⟩ w' := by
  obtain ⟨c, hc⟩ : ∃ c, (Event.boxKeypair (nextBoxPair P w)).storeCall P = some c := ⟨_, rfl⟩
  obtain ⟨d, hd⟩ : ∃ d, (Event.mlkemKeypair pair).storeCall P = some d := ⟨_, rfl⟩
  have hnext (m : StorageManager) (c : StoreCall) (h : m.accepts = fun _ => true) :
      (c.apply m).accepts = fun _ => true := by
    funext i
    rw [accepts_apply, h]
  have h₁ := refillPreKey_accepted hm hc (by rw [hacc])
  obtain ⟨k, h₂⟩ := refillQuantumPreKey_accepted
    (w := ((w.skip 32).log (.boxKeypair (nextBoxPair P w))).setManager (c.apply m)) rfl hpair hd
    (by rw [hnext m c hacc]) priv
  refine ⟨k, ((((((w.skip 32).log (.boxKeypair (nextBoxPair P w))).setManager (c.apply m)).skip
    64).log (.mlkemKeypair pair)).setManager (d.apply (c.apply m))).skip 64, d.apply (c.apply m),
    rfl, hnext _ d (hnext m c hacc), ?_, ?_, ?_⟩
  · funext i
    exact congrArg w.entropy (by omega)
  · simp [World.Traced]
  · rw [refillLoop, bind_of_ok h₁, bind_of_ok h₂]

/-! ### Slots -/

theorem prekeys_apply (m : StorageManager) (c : StoreCall) (id : UInt32) (type : KeyType) :
    (c.apply m).prekeys id type = m.prekeys id type ∨
      (c.identifier = id ∧ c.type = type ∧ (c.apply m).prekeys id type = some c.blob) := by
  cases hacc : m.accepts 0 with
  | false =>
    left
    simp [StoreCall.apply, StorageManager.write, hacc]
  | true =>
    simp only [StoreCall.apply, StorageManager.write, hacc, if_true, StorageManager.putPrekey]
    by_cases hslot : id = c.identifier ∧ type = c.type
    · obtain ⟨rfl, rfl⟩ := hslot
      exact Or.inr ⟨rfl, rfl, by simp⟩
    · exact Or.inl (if_neg hslot)

/-- A slot keeps its content, or was written by one of the calls for it. -/
theorem prekeys_foldl_apply (cs : List StoreCall) (m : StorageManager) (id : UInt32)
    (type : KeyType) :
    (cs.foldl StoreCall.apply m).prekeys id type = m.prekeys id type ∨
      ∃ c ∈ cs, c.identifier = id ∧ c.type = type ∧
        (cs.foldl StoreCall.apply m).prekeys id type = some c.blob := by
  induction cs generalizing m with
  | nil => exact Or.inl rfl
  | cons c cs ih =>
    rw [List.foldl_cons]
    rcases ih (c.apply m) with hkept | ⟨c', hc', hwritten⟩
    · rw [hkept]
      rcases prekeys_apply m c id type with hkept | hwritten
      · exact Or.inl hkept
      · exact Or.inr ⟨c, List.mem_cons_self, hwritten⟩
    · exact Or.inr ⟨c', List.mem_cons_of_mem _ hc', hwritten⟩

end Gcrypt
