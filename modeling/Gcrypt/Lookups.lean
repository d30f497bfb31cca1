import Gcrypt.StoredSessions

/-!
# Gcrypt.Lookups

How the storage-backed responder uses the identifier lists of a handshake: which
elements it reads, and what it asks the store for.

`loadsMade` has every lookup of a call. Against the roles of the lists
(`IndexedByRole`) there are two ways to go wrong, and both come from the polarity of
the guards. Where the identity and the signed prekey get past theirs, which takes blobs
that are too short, the function goes on to `usedPreKeys[1]` whatever the length of
the list; where both can be loaded, it stops before the one-time prekey is looked up.
-/

namespace Gcrypt

open Effect Handshake

/-! ### Lookups by identifier -/

/-- What the store was asked for, if it was. -/
def Event.prekeyLookup : Event → Option (UInt32 × KeyType)
  | .loadOneTimePrekey id type => some (id, type)
  | _ => none

/-- The `(id, type)` the store was asked for, in order. -/
def prekeyLookups (es : List Event) : List (UInt32 × KeyType) := es.filterMap Event.prekeyLookup

theorem prekeyLookups_secrets {es : List Event} (h : ∀ e ∈ es, e.IsSecret) :
    prekeyLookups es = [] := by
  rw [prekeyLookups, List.filterMap_eq_nil_iff]
  intro e he
  have hsecret := h e he
  cases e with
  | ssecret a b => rfl
  | decapsulate k => rfl
  | _ => exact absurd hsecret id

section Spec

variable {P : Primitives} {m : StorageManager} {hs : InitialMessageHandshake} {w w₁ w' : World}

/-- Using private keys after the lookups adds none. -/
theorem prekeyLookups_of_secrets {es : List Event} (h : World.Logged es w w₁)
    (h' : World.Extends Event.IsSecret w₁ w') :
    prekeyLookups (w.newEvents w') = prekeyLookups es := by
  obtain ⟨-, es', ht, hes'⟩ := h'
  rw [(World.Traced.trans h.2 ht).newEvents, prekeyLookups, List.filterMap_append]
  have hnone := prekeyLookups_secrets hes'
  rw [prekeyLookups] at hnone
  rw [hnone, List.append_nil, prekeyLookups]

/-- The store is asked for what `loadsMade` says, whatever becomes of the call. -/
theorem prekeyLookups_eq (h : w.manager = some m) :
    prekeyLookups (w.newEvents (finalState (createInboundSession P hs w)))
      = prekeyLookups (loadsMade m hs) := by
  cases hslip : slipsThrough m hs with
  | false =>
    obtain ⟨w₁, hw₁, heq⟩ := createInboundSession_of_not_slips (P := P) h hslip
    rw [heq, finalState_ok, World.Traced.newEvents hw₁.2]
  | true =>
    rcases hids : hs.usedPreKeys with _ | ⟨s, _ | ⟨o, rest⟩⟩
    · simp [slipsThrough, hids] at hslip
    · obtain ⟨w₁, hw₁, heq⟩ := createInboundSession_one (P := P) h hids
      rw [heq, hslip, if_pos rfl, finalState_error, World.Traced.newEvents hw₁.2]
    · obtain ⟨w₁, hw₁, heq⟩ := createInboundSession_two (P := P) h hids
      rw [heq, hslip, if_pos rfl]
      exact prekeyLookups_of_secrets hw₁ (keeps_inbound w₁)

end Spec

/-! ### Roles -/

/-- The lookup of an identifier, if there is one. -/
def named (id : Option UInt32) (type : KeyType) : List (UInt32 × KeyType) :=
  id.toList.map fun id => (id, type)

/-- The identity pair and the signed prekey can be loaded. -/
def earlierFound (m : StorageManager) (hs : InitialMessageHandshake) : Bool :=
  hs.usedPreKeys[0]?.any fun s => (identityHalf m).isSome && (prekeyHalf m s).isSome

/-- The second lookup: of the one-time prekey, where the handshake names one and the keys
before it were found. -/
def secondLookup (m : StorageManager) (hs : InitialMessageHandshake) : List (UInt32 × KeyType) :=
  if earlierFound m hs then named hs.usedPreKeys[1]? .prekey else []

/-- The lists are read within their bounds, and every element in its role. -/
structure IndexedByRole (P : Primitives) (m : StorageManager) (hs : InitialMessageHandshake)
    (w : World) : Prop where
  in_bounds : outcome (createInboundSession P hs (w.setManager m)) ≠ .error .undefinedBehaviour
  nullopt : hs.usedPreKeys = [] ∨ hs.usedQuantumPreKeys = [] →
    outcome (createInboundSession P hs (w.setManager m)) = .ok none
  lookups : ∃ first last,
    (first = [] ∨ first = named hs.usedPreKeys[0]? .prekey) ∧
    (last = [] ∨ last = named hs.usedQuantumPreKeys[0]? .quantum) ∧
    prekeyLookups ((w.setManager m).newEvents
        (finalState (createInboundSession P hs (w.setManager m))))
      = first ++ secondLookup m hs ++ last

/-- The blobs of the identity and of the signed prekey are not both present and too short,
and where the handshake names a one-time prekey they cannot both be loaded. -/
def RolesFit (m : StorageManager) (hs : InitialMessageHandshake) : Prop :=
  match hs.usedPreKeys with
  | [] => True
  | s :: rest =>
    (tooShort m.identity 32 && tooShort (m.prekeys s .prekey) (32 + 32)) = false ∧
      (rest = [] ∨ earlierFound m hs = false)

theorem rolesFit_cons {m : StorageManager} {hs : InitialMessageHandshake} {s : UInt32}
    {rest : List UInt32} (hids : hs.usedPreKeys = s :: rest) : RolesFit m hs ↔
      (tooShort m.identity 32 && tooShort (m.prekeys s .prekey) (32 + 32)) = false ∧
        (rest = [] ∨ earlierFound m hs = false) := by
  rw [RolesFit, hids]

section Roles

variable {P : Primitives} {m : StorageManager} {hs : InitialMessageHandshake} {w : World}
  {s : UInt32} {rest : List UInt32}

/-- A blob that is too short for the first half of the pair has no second half. -/
theorem earlierFound_of_short (h : tooShort m.identity 32 = true) : earlierFound m hs = false := by
  have hnone : identityHalf m = none := loadedHalf_of_short (by decide) (tooShort_mono (by decide) h)
  unfold earlierFound
  cases hs.usedPreKeys[0]? <;> simp [hnone]

/-- Where one of the two blobs does not get past its guard, the call asks for the signed
prekey at most, and answers `nullopt`. -/
theorem indexed_of_guarded (hids : hs.usedPreKeys = s :: rest)
    (h : (tooShort m.identity 32 && tooShort (m.prekeys s .prekey) (32 + 32)) = false) :
    slipsThrough m hs = false ∧
      prekeyLookups (loadsMade m hs) = if tooShort m.identity 32 then [(s, .prekey)] else [] := by
  unfold slipsThrough loadsMade
  rw [hids]
  cases hid : tooShort m.identity 32 with
  | false =>
    constructor
    · cases rest <;> simp
    · rfl
  | true =>
    have hs₀ : tooShort (m.prekeys s .prekey) (32 + 32) = false := by simpa [hid] using h
    constructor
    · cases rest <;> simp [hs₀]
    · simp only [if_true, hs₀]
      rfl

/-- Where both get past, the one-time prekey is looked up although nothing was loaded. -/
theorem not_indexed_of_short (hids : hs.usedPreKeys = s :: rest)
    (h : (tooShort m.identity 32 && tooShort (m.prekeys s .prekey) (32 + 32)) = true) :
    ¬ IndexedByRole P m hs w := by
  intro hrole
  rw [Bool.and_eq_true] at h
  cases rest with
  | nil =>
    obtain ⟨w₁, -, heq⟩ := createInboundSession_one (P := P) (w := w.setManager m) rfl hids
    refine hrole.in_bounds ?_
    rw [heq, slipsThrough, hids]
    simp [h.1, h.2]
  | cons o rest =>
    obtain ⟨first, last, hfirst, hlast, heq⟩ := hrole.lookups
    rw [prekeyLookups_eq (m := m) rfl, loadsMade, hids, secondLookup,
      if_neg (by simp [earlierFound_of_short h.1])] at heq
    simp only [h.1, h.2, if_true, prekeyLookups, Event.prekeyLookup, List.filterMap_cons,
      List.append_nil] at heq
    rw [hids] at hfirst
    generalize hs.usedQuantumPreKeys[0]? = q at hlast
    -- Two lookups of type `PREKEY` do not fit into `first` and `last`.
    rcases hfirst with rfl | rfl
    · rcases hlast with rfl | rfl
      · simp at heq
      · cases q <;> simp [named] at heq
    · rcases hlast with rfl | rfl
      · simp [named] at heq
      · cases q <;> simp [named] at heq

/-- Where both can be loaded, the call stops before it looks the one-time prekey up. -/
theorem not_indexed_of_found {o : UInt32} (hids : hs.usedPreKeys = s :: o :: rest)
    (hfound : earlierFound m hs = true) : ¬ IndexedByRole P m hs w := by
  intro hrole
  have hid : tooShort m.identity 32 = false := by
    by_contra hshort
    rw [Bool.not_eq_false] at hshort
    rw [earlierFound_of_short hshort] at hfound
    cases hfound
  obtain ⟨first, last, -, -, hsplit⟩ := hrole.lookups
  rw [prekeyLookups_eq (m := m) rfl, (indexed_of_guarded hids (by simp [hid])).2, hid,
    secondLookup, if_pos hfound, hids] at hsplit
  simp [named] at hsplit

theorem indexed_of_empty (hids : hs.usedPreKeys = []) : IndexedByRole P m hs w := by
  have hslip : slipsThrough m hs = false := by rw [slipsThrough, hids]
  obtain ⟨w₁, -, heq⟩ :=
    createInboundSession_of_not_slips (P := P) (w := w.setManager m) rfl hslip
  refine ⟨by simp [heq], fun _ => by simp [heq], [], [], Or.inl rfl, Or.inl rfl, ?_⟩
  rw [prekeyLookups_eq (m := m) rfl, loadsMade, hids, secondLookup, earlierFound, hids]
  rfl

theorem indexed_of_fits (hids : hs.usedPreKeys = s :: rest)
    (hguarded : (tooShort m.identity 32 && tooShort (m.prekeys s .prekey) (32 + 32)) = false)
    (hfits : rest = [] ∨ earlierFound m hs = false) : IndexedByRole P m hs w := by
  obtain ⟨hslip, hlookups⟩ := indexed_of_guarded hids hguarded
  obtain ⟨w₁, -, heq⟩ :=
    createInboundSession_of_not_slips (P := P) (w := w.setManager m) rfl hslip
  have hsecond : secondLookup m hs = [] := by
    rcases hfits with rfl | hfound
    · simp [secondLookup, hids, named]
    · simp [secondLookup, hfound]
  refine ⟨by simp [heq], fun _ => by simp [heq],
    if tooShort m.identity 32 then [(s, .prekey)] else [], [], ?_, Or.inl rfl, ?_⟩
  · cases tooShort m.identity 32 <;> simp [hids, named]
  · rw [prekeyLookups_eq (m := m) rfl, hlookups, hsecond, List.append_nil, List.append_nil]

/-- **Roles, exactly.** A handshake's lists are read in bounds and by role if and only if
the blobs of the identity and the signed prekey fit. -/
theorem indexedByRole_iff : IndexedByRole P m hs w ↔ RolesFit m hs := by
  rcases hids : hs.usedPreKeys with _ | ⟨s, rest⟩
  · have hfit : RolesFit m hs := by
      rw [RolesFit, hids]
      trivial
    exact iff_of_true (indexed_of_empty hids) hfit
  · rw [rolesFit_cons hids]
    constructor
    · intro hrole
      refine ⟨?_, ?_⟩
      · by_contra hshort
        rw [Bool.not_eq_false] at hshort
        exact not_indexed_of_short hids hshort hrole
      · cases rest with
        | nil => exact Or.inl rfl
        | cons o rest =>
          refine Or.inr ?_
          by_contra hfound
          rw [Bool.not_eq_false] at hfound
          exact not_indexed_of_found hids hfound hrole
    · rintro ⟨hguarded, hfits⟩
      exact indexed_of_fits hids hguarded hfits

end Roles

/-- Alice's handshake without a one-time prekey, on blobs that are all empty, is answered
with a read past the end of `usedPreKeys`. And with everything in place, the one-time
prekey of Alice's handshake is never looked up. -/
theorem aliceHandshake_not_indexed :
    outcome (createInboundSession Reference.primitives
        { aliceHandshake Key.zero with usedPreKeys := [1] } (zeroWorld.setManager emptyBlobs))
      = .error .undefinedBehaviour ∧
    ¬ IndexedByRole Reference.primitives emptyBlobs
        { aliceHandshake Key.zero with usedPreKeys := [1] } zeroWorld ∧
    ¬ IndexedByRole Reference.primitives bobStore (aliceHandshake Key.zero) zeroWorld := by
  refine ⟨?_, ?_, ?_⟩
  · have hids : { aliceHandshake Key.zero with usedPreKeys := [1] }.usedPreKeys = [1] := rfl
    obtain ⟨w₁, -, heq⟩ := createInboundSession_one (P := Reference.primitives)
      (m := emptyBlobs) (w := zeroWorld.setManager emptyBlobs) rfl hids
    have hslip : slipsThrough emptyBlobs
        { aliceHandshake Key.zero with usedPreKeys := [1] } = true := by decide
    rw [heq, hslip]
    rfl
  · exact not_indexed_of_short rfl (by decide)
  · have hids : (aliceHandshake Key.zero).usedPreKeys = [1, 2] := rfl
    exact not_indexed_of_found hids (by decide)

end Gcrypt
