import Gcrypt.Pqxdh

/-!
# Gcrypt.Jnib

`ext/java`: Java objects as the bindings see them, and how a foreign bundle is decoded
from one.

A field of a Java object may be null, and a byte array may have any length. `toKey`,
`toIdKey` and `toSidKey` accept an object exactly where it is what `fromKey`, `fromIdKey`
and `fromSidKey` make of a key (`toKey_eq_some`, `idKeyOf_eq_some`, `sidKeyOf_eq_some`),
so decoding never changes a value. `foreignpk_bundle` rejects a bundle for each part that
is malformed, except for one: a malformed one-time prekey counts as none
(`foreignpkBundle_drops`).

The classes are found under their mapped names, and the fields of the Kotlin classes under
theirs.
-/

namespace Gcrypt.JniOM

variable {n s : Nat}

/-! ### Java objects -/

/-- A `ByteArray`: signed bytes. -/
abbrev JbyteArray := List Int8

/-- `GcryptIdKey`. -/
structure GcryptIdKey where
  key : Option JbyteArray
  identifier : Int32

/-- `GcryptSidKey`. -/
structure GcryptSidKey where
  key : Option JbyteArray
  identifier : Int32
  signature : Option JbyteArray

/-- What a field of type `Any?` refers to: an object of either class, or of another one,
which has none of their fields. -/
inductive JavaObject
  | sidKey (k : GcryptSidKey)
  | idKey (k : GcryptIdKey)
  | other

/-- `GcryptForeignPreKeyBundle`. -/
structure GcryptForeignPreKeyBundle where
  identityKey : Option JbyteArray
  signedPreKey : Option GcryptSidKey
  quantumPreKey : Option JavaObject
  oneTimePreKey : Option GcryptIdKey

namespace JavaObject

/-- `GetObjectField(obj, GetFieldID(clazz, "key", "[B"))`. A field that does not exist has
no id, and the access through a null id no defined result. -/
def key : JavaObject → Except Fault (Option JbyteArray)
  | sidKey k => .ok k.key
  | idKey k => .ok k.key
  | other => .error .undefinedBehaviour

/-- `GetIntField(obj, GetFieldID(clazz, "identifier", "I"))`. -/
def identifier : JavaObject → Except Fault Int32
  | sidKey k => .ok k.identifier
  | idKey k => .ok k.identifier
  | other => .error .undefinedBehaviour

/-- `GetObjectField(obj, GetFieldID(clazz, "signature", "[B"))`. -/
def signature : JavaObject → Except Fault (Option JbyteArray)
  | sidKey k => .ok k.signature
  | idKey _ => .error .undefinedBehaviour
  | other => .error .undefinedBehaviour

/-- `IsInstanceOf(obj, sidClazz)`. -/
def isSidKey : JavaObject → Bool
  | sidKey _ => true
  | _ => false

end JavaObject

/-! ### Java from C++ -/

/-- `from::key`: the same bytes, read as signed ones. -/
def fromKey (k : Key n) : JbyteArray := k.bytes.map UInt8.toInt8

/-- `from::id_key`. -/
def fromIdKey (k : Idkey n) : GcryptIdKey where
  key := some (fromKey k.key)
  identifier := k.identifier.toInt32

/-- `from::sid_key`. -/
def fromSidKey (k : Sidkey n s) : GcryptSidKey where
  key := some (fromKey k.key)
  identifier := k.identifier.toInt32
  signature := some (fromKey k.signature)

/-! ### C++ from Java -/

/-- `to_key<N>`: a copy of an array of exactly `n` bytes. -/
def toKey (n : Nat) (array : Option JbyteArray) : Option (Key n) :=
  match array with
  | none => none
  | some array =>
    if h : array.length = n then some ⟨array.map Int8.toUInt8, by rw [List.length_map, h]⟩
    else none

/-- `to_id_key<N>`. -/
def toIdKey (n : Nat) (obj : Option JavaObject) : Except Fault (Option (Idkey n)) :=
  match obj with
  | none => .ok none
  | some obj => do
    let jkey ← obj.key
    let id ← obj.identifier
    match toKey n jkey with
    | none => return none
    | some key => return some { key, identifier := id.toUInt32 }

/-- `to_sid_key<N, S>`. -/
def toSidKey (n s : Nat) (obj : Option JavaObject) : Except Fault (Option (Sidkey n s)) :=
  match obj with
  | none => .ok none
  | some obj => do
    let jkey ← obj.key
    let id ← obj.identifier
    let jsig ← obj.signature
    match toKey n jkey, toKey s jsig with
    | some key, some signature => return some { key, identifier := id.toUInt32, signature }
    | _, _ => return none

/-- The quantum prekey of `foreignpk_bundle`: signed where the object is a `GcryptSidKey`,
else read as an unsigned one. -/
def toQuantumPreKey (jQuantumKey : JavaObject) : Except Fault (Option (Qsidkey ⊕ Qpubikey)) := do
  if jQuantumKey.isSidKey then
    return (← toSidKey mlkemCtb signatureSize (some jQuantumKey)).map .inl
  else
    return (← toIdKey mlkemPkb (some jQuantumKey)).map .inr

/-- The one-time prekey of `foreignpk_bundle`. What is not null but malformed becomes
`nullopt`, as null does. -/
def toOneTimePreKey (jOneTimePreKey : Option GcryptIdKey) : Except Fault (Option Xcikey) :=
  match jOneTimePreKey with
  | none => .ok none
  | some jOneTimePreKey => toIdKey x25519KeySize (some (.idKey jOneTimePreKey))

/-- `foreignpk_bundle`. -/
def foreignpkBundle (foreignBundle : Option GcryptForeignPreKeyBundle) :
    Except Fault (Option ForeignPrekeyBundle) :=
  match foreignBundle with
  | none => .ok none
  | some foreignBundle =>
    match toKey x25519KeySize foreignBundle.identityKey with
    | none => .ok none
    | some identityKey => do
      match ← toSidKey x25519KeySize signatureSize (foreignBundle.signedPreKey.map .sidKey) with
      | none => return none
      | some signedPreKey =>
        match foreignBundle.quantumPreKey with
        | none => return none
        | some jQuantumKey => do
          match ← toQuantumPreKey jQuantumKey with
          | none => return none
          | some qpubsidkey => do
            let oneTimePreKey ← toOneTimePreKey foreignBundle.oneTimePreKey
            return some { identityKey, signedPreKey, qpubsidkey, oneTimePreKey }

/-! ### Decoding keys -/

/-- An array of `n` bytes. -/
def ArrayFits (n : Nat) (array : Option JbyteArray) : Prop :=
  ∃ bytes, array = some bytes ∧ bytes.length = n

@[simp] theorem toKey_fromKey (k : Key n) : toKey n (some (fromKey k)) = some k := by
  rw [toKey, dif_pos (by simp [fromKey])]
  congr 1
  apply Key.ext
  simp [fromKey, Function.comp_def]

/-- `to_key` undoes `from::key`, and accepts nothing else. -/
theorem toKey_eq_some {array : Option JbyteArray} {k : Key n} :
    toKey n array = some k ↔ array = some (fromKey k) := by
  constructor
  · intro h
    cases array with
    | none => cases h
    | some bytes =>
      by_cases hlen : bytes.length = n
      · rw [toKey, dif_pos hlen, Option.some.injEq] at h
        rw [← h]
        simp [fromKey, Function.comp_def]
      · rw [toKey, dif_neg hlen] at h
        cases h
  · rintro rfl
    exact toKey_fromKey k

theorem arrayFits_iff {array : Option JbyteArray} :
    ArrayFits n array ↔ ∃ k, toKey n array = some k := by
  constructor
  · rintro ⟨bytes, rfl, hlen⟩
    exact ⟨_, dif_pos hlen⟩
  · rintro ⟨k, hk⟩
    exact ⟨fromKey k, toKey_eq_some.mp hk, by simp [fromKey]⟩

/-- What `to_id_key` makes of a `GcryptIdKey`. -/
def idKeyOf (n : Nat) (j : GcryptIdKey) : Option (Idkey n) :=
  (toKey n j.key).map fun key => { key, identifier := j.identifier.toUInt32 }

/-- What `to_sid_key` makes of a `GcryptSidKey`. -/
def sidKeyOf (n s : Nat) (j : GcryptSidKey) : Option (Sidkey n s) :=
  (toKey n j.key).bind fun key => (toKey s j.signature).map fun signature =>
    { key, identifier := j.identifier.toUInt32, signature }

theorem toIdKey_idKey (j : GcryptIdKey) : toIdKey n (some (.idKey j)) = .ok (idKeyOf n j) := by
  show (match toKey n j.key with
    | none => .ok none
    | some key => .ok (some _) : Except Fault (Option (Idkey n))) = _
  unfold idKeyOf
  cases toKey n j.key <;> rfl

theorem toSidKey_sidKey (j : GcryptSidKey) :
    toSidKey n s (some (.sidKey j)) = .ok (sidKeyOf n s j) := by
  show (match toKey n j.key, toKey s j.signature with
    | some key, some signature => .ok (some _)
    | _, _ => .ok none : Except Fault (Option (Sidkey n s))) = _
  unfold sidKeyOf
  cases toKey n j.key <;> cases toKey s j.signature <;> rfl

theorem idKeyOf_eq_some {j : GcryptIdKey} {k : Idkey n} :
    idKeyOf n j = some k ↔ j = fromIdKey k := by
  constructor
  · intro h
    obtain ⟨key, hkey, rfl⟩ := Option.map_eq_some_iff.mp h
    obtain ⟨jkey, id⟩ := j
    cases toKey_eq_some.mp hkey
    simp [fromIdKey]
  · rintro rfl
    simp [idKeyOf, fromIdKey]

theorem sidKeyOf_eq_some {j : GcryptSidKey} {k : Sidkey n s} :
    sidKeyOf n s j = some k ↔ j = fromSidKey k := by
  constructor
  · intro h
    obtain ⟨key, hkey, h⟩ := Option.bind_eq_some_iff.mp h
    obtain ⟨signature, hsig, rfl⟩ := Option.map_eq_some_iff.mp h
    obtain ⟨jkey, id, jsig⟩ := j
    cases toKey_eq_some.mp hkey
    cases toKey_eq_some.mp hsig
    simp [fromSidKey]
  · rintro rfl
    simp [sidKeyOf, fromSidKey]

/-- The array has the size of the key. -/
def GcryptIdKey.Fits (n : Nat) (j : GcryptIdKey) : Prop := ArrayFits n j.key

/-- Both arrays have their sizes. -/
structure GcryptSidKey.Fits (n s : Nat) (j : GcryptSidKey) : Prop where
  key : ArrayFits n j.key
  signature : ArrayFits s j.signature

theorem idKey_fits_iff {j : GcryptIdKey} : j.Fits n ↔ ∃ k, idKeyOf n j = some k := by
  rw [GcryptIdKey.Fits, arrayFits_iff]
  constructor
  · rintro ⟨key, hkey⟩
    exact ⟨_, Option.map_eq_some_iff.mpr ⟨key, hkey, rfl⟩⟩
  · rintro ⟨k, hk⟩
    obtain ⟨key, hkey, -⟩ := Option.map_eq_some_iff.mp hk
    exact ⟨key, hkey⟩

theorem sidKey_fits_iff {j : GcryptSidKey} : j.Fits n s ↔ ∃ k, sidKeyOf n s j = some k := by
  constructor
  · intro h
    obtain ⟨key, hkey⟩ := arrayFits_iff.mp h.key
    obtain ⟨signature, hsig⟩ := arrayFits_iff.mp h.signature
    exact ⟨_, Option.bind_eq_some_iff.mpr
      ⟨key, hkey, Option.map_eq_some_iff.mpr ⟨signature, hsig, rfl⟩⟩⟩
  · rintro ⟨k, hk⟩
    obtain ⟨key, hkey, hk⟩ := Option.bind_eq_some_iff.mp hk
    obtain ⟨signature, hsig, -⟩ := Option.map_eq_some_iff.mp hk
    exact ⟨arrayFits_iff.mpr ⟨key, hkey⟩, arrayFits_iff.mpr ⟨signature, hsig⟩⟩

/-! ### Decoding a bundle -/

/-- The object that holds either alternative of the variant. -/
def fromQuantumPreKey : Qsidkey ⊕ Qpubikey → JavaObject
  | .inl k => .sidKey (fromSidKey k)
  | .inr k => .idKey (fromIdKey k)

/-- The object is a key of either class, of the sizes of the KEM. -/
def JavaObject.Fits : JavaObject → Prop
  | sidKey j => j.Fits mlkemPkb signatureSize
  | idKey j => j.Fits mlkemPkb
  | other => False

/-- The parts decoded first. -/
structure HeadFits (b : GcryptForeignPreKeyBundle) : Prop where
  identityKey : ArrayFits x25519KeySize b.identityKey
  signedPreKey : ∃ j, b.signedPreKey = some j ∧ j.Fits x25519KeySize signatureSize

/-- The KEM key is there, and of either class. -/
def QuantumFits (b : GcryptForeignPreKeyBundle) : Prop :=
  ∃ obj, b.quantumPreKey = some obj ∧ obj.Fits

/-- The one-time prekey is null, or has its size. -/
def OneTimeFits (b : GcryptForeignPreKeyBundle) : Prop :=
  ∀ j, b.oneTimePreKey = some j → j.Fits x25519KeySize

/-- Every part has its sizes; only the one-time prekey may be null. -/
structure WellFormed (b : GcryptForeignPreKeyBundle) : Prop extends HeadFits b where
  quantumPreKey : QuantumFits b
  oneTimePreKey : OneTimeFits b

/-- The object has the bytes, the identifiers and the alternative of the bundle, and a
null where there is no one-time prekey. -/
structure Carries (b : GcryptForeignPreKeyBundle) (bundle : ForeignPrekeyBundle) : Prop where
  identityKey : b.identityKey = some (fromKey bundle.identityKey)
  signedPreKey : b.signedPreKey = some (fromSidKey bundle.signedPreKey)
  quantumPreKey : b.quantumPreKey = some (fromQuantumPreKey bundle.qpubsidkey)
  oneTimePreKey : b.oneTimePreKey = bundle.oneTimePreKey.map fromIdKey

theorem toQuantumPreKey_sidKey (j : GcryptSidKey) :
    toQuantumPreKey (.sidKey j) = .ok ((sidKeyOf mlkemCtb signatureSize j).map .inl) := by
  have hsigned : toQuantumPreKey (.sidKey j)
      = (toSidKey mlkemCtb signatureSize (some (.sidKey j)) >>= fun k => .ok (k.map Sum.inl)) := rfl
  rw [hsigned, toSidKey_sidKey]
  rfl

theorem toQuantumPreKey_idKey (j : GcryptIdKey) :
    toQuantumPreKey (.idKey j) = .ok ((idKeyOf mlkemPkb j).map .inr) := by
  have hunsigned : toQuantumPreKey (.idKey j)
      = (toIdKey mlkemPkb (some (.idKey j)) >>= fun k => .ok (k.map Sum.inr)) := rfl
  rw [hunsigned, toIdKey_idKey]
  rfl

theorem toQuantumPreKey_other : toQuantumPreKey .other = .error .undefinedBehaviour := rfl

theorem toQuantumPreKey_eq_some {obj : JavaObject} {k : Qsidkey ⊕ Qpubikey} :
    toQuantumPreKey obj = .ok (some k) ↔ obj = fromQuantumPreKey k := by
  cases obj with
  | sidKey j =>
    rw [toQuantumPreKey_sidKey, Except.ok.injEq, Option.map_eq_some_iff]
    cases k with
    | inl k => simp [fromQuantumPreKey, sidKeyOf_eq_some]
    | inr k => simp [fromQuantumPreKey]
  | idKey j =>
    rw [toQuantumPreKey_idKey, Except.ok.injEq, Option.map_eq_some_iff]
    cases k with
    | inl k => simp [fromQuantumPreKey]
    | inr k => simp [fromQuantumPreKey, idKeyOf_eq_some]
  | other => cases k <;> simp [toQuantumPreKey_other, fromQuantumPreKey]

/-- An object of either class is decoded where it fits, and rejected where it does not. -/
theorem toQuantumPreKey_of_ne_other {obj : JavaObject} (h : obj ≠ .other) :
    (obj.Fits ∧ ∃ k, toQuantumPreKey obj = .ok (some k)) ∨
      (¬ obj.Fits ∧ toQuantumPreKey obj = .ok none) := by
  cases obj with
  | sidKey j =>
    rw [toQuantumPreKey_sidKey, JavaObject.Fits, sidKey_fits_iff]
    cases sidKeyOf mlkemCtb signatureSize j with
    | none => exact Or.inr ⟨by simp, rfl⟩
    | some k => exact Or.inl ⟨⟨k, rfl⟩, _, rfl⟩
  | idKey j =>
    rw [toQuantumPreKey_idKey, JavaObject.Fits, idKey_fits_iff]
    cases idKeyOf mlkemPkb j with
    | none => exact Or.inr ⟨by simp, rfl⟩
    | some k => exact Or.inl ⟨⟨k, rfl⟩, _, rfl⟩
  | other => exact absurd rfl h

/-- A one-time prekey is none where the field is null, and where what it holds is
malformed. -/
theorem toOneTimePreKey_eq (j : Option GcryptIdKey) :
    toOneTimePreKey j = .ok (j.bind (idKeyOf x25519KeySize)) := by
  cases j with
  | none => rfl
  | some j => exact toIdKey_idKey j

section Parts

variable {b : GcryptForeignPreKeyBundle}

theorem headFits_iff : HeadFits b ↔ ∃ (identityKey : Xckey) (signedPreKey : Xcsikey),
    b.identityKey = some (fromKey identityKey) ∧
      b.signedPreKey = some (fromSidKey signedPreKey) := by
  constructor
  · intro h
    obtain ⟨identityKey, hik⟩ := arrayFits_iff.mp h.identityKey
    obtain ⟨j, hj, hfits⟩ := h.signedPreKey
    obtain ⟨signedPreKey, hspk⟩ := sidKey_fits_iff.mp hfits
    rw [sidKeyOf_eq_some] at hspk
    exact ⟨identityKey, signedPreKey, toKey_eq_some.mp hik, by rw [hj, hspk]⟩
  · rintro ⟨identityKey, signedPreKey, hik, hspk⟩
    exact ⟨arrayFits_iff.mpr ⟨identityKey, toKey_eq_some.mpr hik⟩,
      _, hspk, sidKey_fits_iff.mpr ⟨signedPreKey, sidKeyOf_eq_some.mpr rfl⟩⟩

theorem foreignpkBundle_of_not_head (h : ¬ HeadFits b) : foreignpkBundle (some b) = .ok none := by
  simp only [foreignpkBundle]
  cases hik : toKey x25519KeySize b.identityKey with
  | none => rfl
  | some identityKey =>
    cases hj : b.signedPreKey with
    | none => rfl
    | some j =>
      simp only [Option.map_some, toSidKey_sidKey]
      cases hspk : sidKeyOf x25519KeySize signatureSize j with
      | none => rfl
      | some signedPreKey =>
        exact absurd ⟨arrayFits_iff.mpr ⟨identityKey, hik⟩, j, hj,
          sidKey_fits_iff.mpr ⟨signedPreKey, hspk⟩⟩ h

/-- Behind the first two parts the quantum prekey decides, and the one-time prekey never
does. -/
theorem foreignpkBundle_of_head {identityKey : Xckey} {signedPreKey : Xcsikey}
    (hik : b.identityKey = some (fromKey identityKey))
    (hspk : b.signedPreKey = some (fromSidKey signedPreKey)) :
    foreignpkBundle (some b) = (b.quantumPreKey.elim (.ok none) toQuantumPreKey).map
      (Option.map fun qpubsidkey => {
        identityKey := identityKey
        signedPreKey := signedPreKey
        qpubsidkey := qpubsidkey
        oneTimePreKey := b.oneTimePreKey.bind (idKeyOf x25519KeySize) }) := by
  have hid : toKey x25519KeySize b.identityKey = some identityKey := toKey_eq_some.mpr hik
  have hsid : sidKeyOf x25519KeySize signatureSize (fromSidKey signedPreKey) = some signedPreKey :=
    sidKeyOf_eq_some.mpr rfl
  simp only [foreignpkBundle, hid, hspk, Option.map_some, toSidKey_sidKey, hsid, toOneTimePreKey_eq]
  cases b.quantumPreKey with
  | none => rfl
  | some obj =>
    rw [Option.elim_some]
    cases hq : toQuantumPreKey obj with
    | error e => simp [hq, Except.map, bind, Except.bind]
    | ok q => cases q <;> simp [hq, Except.map, bind, Except.bind, pure, Except.pure]

theorem foreignpkBundle_of_other (hhead : HeadFits b) (hother : b.quantumPreKey = some .other) :
    foreignpkBundle (some b) = .error .undefinedBehaviour := by
  obtain ⟨identityKey, signedPreKey, hik, hspk⟩ := headFits_iff.mp hhead
  rw [foreignpkBundle_of_head hik hspk, hother]
  rfl

theorem foreignpkBundle_of_not_quantum (hhead : HeadFits b) (hne : b.quantumPreKey ≠ some .other)
    (h : ¬ QuantumFits b) : foreignpkBundle (some b) = .ok none := by
  obtain ⟨identityKey, signedPreKey, hik, hspk⟩ := headFits_iff.mp hhead
  rw [foreignpkBundle_of_head hik hspk]
  cases hobj : b.quantumPreKey with
  | none => rfl
  | some obj =>
    have hother : obj ≠ .other := fun heq => hne (by rw [hobj, heq])
    rcases toQuantumPreKey_of_ne_other hother with ⟨hfits, -⟩ | ⟨-, hq⟩
    · exact absurd ⟨obj, hobj, hfits⟩ h
    · rw [Option.elim_some, hq]
      rfl

theorem foreignpkBundle_of_quantum (hhead : HeadFits b) (h : QuantumFits b) :
    ∃ bundle, foreignpkBundle (some b) = .ok (some bundle) ∧
      bundle.oneTimePreKey = b.oneTimePreKey.bind (idKeyOf x25519KeySize) ∧
      Carries { b with oneTimePreKey := bundle.oneTimePreKey.map fromIdKey } bundle := by
  obtain ⟨identityKey, signedPreKey, hik, hspk⟩ := headFits_iff.mp hhead
  obtain ⟨obj, hobj, hfits⟩ := h
  have hother : obj ≠ .other := by
    rintro rfl
    exact hfits
  rcases toQuantumPreKey_of_ne_other hother with ⟨-, q, hq⟩ | ⟨hmal, -⟩
  · have hbundle := foreignpkBundle_of_head hik hspk
    rw [hobj, Option.elim_some, hq] at hbundle
    refine ⟨_, hbundle, rfl, hik, hspk, ?_, rfl⟩
    rw [hobj, toQuantumPreKey_eq_some.mp hq]
  · exact absurd hfits hmal

/-- A one-time prekey that fits is kept as it is. -/
theorem oneTimeFits_iff : OneTimeFits b ↔
    b.oneTimePreKey = (b.oneTimePreKey.bind (idKeyOf x25519KeySize)).map fromIdKey := by
  unfold OneTimeFits
  cases b.oneTimePreKey with
  | none => simp
  | some j =>
    simp only [Option.some.injEq, forall_eq', Option.bind_some, idKey_fits_iff]
    constructor
    · rintro ⟨k, hk⟩
      rw [hk, Option.map_some, ← idKeyOf_eq_some.mp hk]
    · intro h
      cases hk : idKeyOf x25519KeySize j with
      | none => simp [hk] at h
      | some k => exact ⟨k, rfl⟩

/-- **Round trip.** The object that carries a bundle is decoded to it. -/
theorem foreignpkBundle_of_carries {bundle : ForeignPrekeyBundle} (h : Carries b bundle) :
    foreignpkBundle (some b) = .ok (some bundle) := by
  have hone : (bundle.oneTimePreKey.map fromIdKey).bind (idKeyOf x25519KeySize)
      = bundle.oneTimePreKey := by
    cases bundle.oneTimePreKey with
    | none => rfl
    | some k => exact idKeyOf_eq_some.mpr rfl
  have hq : toQuantumPreKey (fromQuantumPreKey bundle.qpubsidkey) = .ok (some bundle.qpubsidkey) :=
    toQuantumPreKey_eq_some.mpr rfl
  rw [foreignpkBundle_of_head h.identityKey h.signedPreKey, h.quantumPreKey, h.oneTimePreKey, hone,
    Option.elim_some, hq]
  rfl

/-- A one-time prekey that is malformed is dropped: the bundle is decoded as the one
without. -/
theorem foreignpkBundle_drops {j : GcryptIdKey} (h : ¬ j.Fits x25519KeySize) :
    foreignpkBundle (some { b with oneTimePreKey := some j })
      = foreignpkBundle (some { b with oneTimePreKey := none }) := by
  have hnone : idKeyOf x25519KeySize j = none := by
    rw [idKey_fits_iff, not_exists] at h
    exact Option.eq_none_iff_forall_ne_some.mpr h
  simp only [foreignpkBundle, toOneTimePreKey_eq, Option.bind_some, hnone, Option.bind_none]

/-! ### Malformed parts -/

/-- A bundle is returned for the well-formed objects only, and is what the object
carries; every other object is answered with `nullopt`. -/
structure DecodesStrictly (b : GcryptForeignPreKeyBundle) : Prop where
  answers : ∃ r, foreignpkBundle (some b) = .ok r
  accepts : (∃ bundle, foreignpkBundle (some b) = .ok (some bundle)) ↔ WellFormed b
  carries : ∀ bundle, foreignpkBundle (some b) = .ok (some bundle) → Carries b bundle

theorem decodesStrictly_of_rejected (h : foreignpkBundle (some b) = .ok none)
    (hmal : ¬ WellFormed b) : DecodesStrictly b := by
  refine ⟨⟨_, h⟩, iff_of_false ?_ hmal, ?_⟩
  · rintro ⟨bundle, hsome⟩
    rw [h] at hsome
    cases hsome
  · intro bundle hsome
    rw [h] at hsome
    cases hsome

theorem decodesStrictly_of_carries {bundle : ForeignPrekeyBundle} (h : Carries b bundle)
    (hwell : WellFormed b) : DecodesStrictly b := by
  have hsome := foreignpkBundle_of_carries h
  refine ⟨⟨_, hsome⟩, iff_of_true ⟨_, hsome⟩ hwell, ?_⟩
  intro bundle' hsome'
  rw [hsome] at hsome'
  cases hsome'
  exact h

/-- **Decoding, exactly.** Where the first two parts are in order, the quantum prekey must
be of one of the two classes, and where that one is in order too, the one-time prekey
must be. -/
theorem decodesStrictly_iff (b : GcryptForeignPreKeyBundle) :
    DecodesStrictly b ↔
      (HeadFits b → b.quantumPreKey ≠ some .other ∧ (QuantumFits b → OneTimeFits b)) := by
  by_cases hhead : HeadFits b
  · rw [forall_prop_of_true hhead]
    by_cases hother : b.quantumPreKey = some .other
    · refine iff_of_false ?_ fun h => h.1 hother
      rintro ⟨⟨r, hr⟩, -, -⟩
      rw [foreignpkBundle_of_other hhead hother] at hr
      cases hr
    · by_cases hquantum : QuantumFits b
      · obtain ⟨bundle, hsome, hone, hcarries⟩ := foreignpkBundle_of_quantum hhead hquantum
        constructor
        · intro hstrict
          exact ⟨hother, fun _ => (hstrict.accepts.mp ⟨bundle, hsome⟩).oneTimePreKey⟩
        · intro h
          have hfits := h.2 hquantum
          have hkept : b.oneTimePreKey = bundle.oneTimePreKey.map fromIdKey := by
            rw [hone, ← oneTimeFits_iff.mp hfits]
          rw [← hkept] at hcarries
          exact decodesStrictly_of_carries hcarries ⟨hhead, hquantum, hfits⟩
      · refine iff_of_true ?_ ⟨hother, fun h => absurd h hquantum⟩
        exact decodesStrictly_of_rejected (foreignpkBundle_of_not_quantum hhead hother hquantum)
          fun hw => hquantum hw.quantumPreKey
  · refine iff_of_true ?_ fun h => absurd h hhead
    exact decodesStrictly_of_rejected (foreignpkBundle_of_not_head hhead)
      fun hw => hhead hw.toHeadFits

end Parts

/-- A bundle whose one-time prekey has no bytes, as a new `GcryptIdKey` has none. -/
def keylessOneTime : GcryptForeignPreKeyBundle where
  identityKey := some (fromKey (Key.zero : Xckey))
  signedPreKey := some (fromSidKey (⟨⟨Key.zero, 1⟩, Key.zero⟩ : Xcsikey))
  quantumPreKey := some (.sidKey (fromSidKey (⟨⟨Key.zero, 2⟩, Key.zero⟩ : Qsidkey)))
  oneTimePreKey := some ⟨none, 3⟩

/-- It is accepted as a bundle without a one-time prekey. -/
theorem keylessOneTime_accepted :
    (∃ bundle, foreignpkBundle (some keylessOneTime) = .ok (some bundle) ∧
      bundle.oneTimePreKey = none) ∧
    ¬ WellFormed keylessOneTime ∧ ¬ DecodesStrictly keylessOneTime := by
  have hmal : ¬ WellFormed keylessOneTime := by
    intro hw
    obtain ⟨bytes, hbytes, -⟩ := hw.oneTimePreKey ⟨none, 3⟩ rfl
    cases hbytes
  have hsome : foreignpkBundle (some keylessOneTime) = .ok (some {
      identityKey := Key.zero
      signedPreKey := ⟨⟨Key.zero, 1⟩, Key.zero⟩
      qpubsidkey := .inl ⟨⟨Key.zero, 2⟩, Key.zero⟩
      oneTimePreKey := none }) := by
    have hdrop := foreignpkBundle_drops (b := keylessOneTime) (j := ⟨none, 3⟩)
      (by rintro ⟨bytes, hbytes, -⟩; cases hbytes)
    exact hdrop.trans (foreignpkBundle_of_carries ⟨rfl, rfl, rfl, rfl⟩)
  exact ⟨⟨_, hsome, rfl⟩, hmal, fun h => hmal (h.accepts.mp ⟨_, hsome⟩)⟩

end Gcrypt.JniOM
