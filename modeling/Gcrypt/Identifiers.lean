import Gcrypt.Generated

/-!
# Gcrypt.Identifiers

Identifiers as the source assigns them: 32-bit hashes of public keys (`keyid`), put into
maps and store slots without a check. What follows for a run of `make_lkb` and `refill`
depends on one thing only, whether two of the pairs generated in the run share an
identifier (`NoClash`).

Everything handed out or stored in a run is `generated` in it (`runHandsOut_generated`,
`runStores_generated`); so without a clash an identifier of a type names one key, the
maps keep every pair, and a store call hits nobody else's slot (`nothing_lost`). With a
clash none of this holds (`clash_handed_out`).

The last-resort KEM key is left aside: its identifier is no hash.
-/

namespace Gcrypt

open Effect Keygen

variable {P : Primitives}

/-! ### Clashes -/

/-- No two pairs of one type that were generated share an identifier. -/
structure NoClash (P : Primitives) (es : List Event) : Prop where
  box : ∀ p p', .boxKeypair p ∈ es → .boxKeypair p' ∈ es →
    keyid P p.Public = keyid P p'.Public → p = p'
  mlkem : ∀ p p', .mlkemKeypair p ∈ es → .mlkemKeypair p' ∈ es →
    keyid P p.Public = keyid P p'.Public → p = p'

theorem eq_of_nodup_filterMap {A B : Type} {f : A → Option B} {l : List A}
    (h : (l.filterMap f).Nodup) {a a' : A} (ha : a ∈ l) (ha' : a' ∈ l) {b : B}
    (hb : f a = some b) (hb' : f a' = some b) : a = a' := by
  by_contra hne
  have hpairs : l.Pairwise fun x y => ∀ c, f x = some c → ∀ d, f y = some d → c ≠ d :=
    List.pairwise_filterMap.mp h
  have hsymm : Std.Symm fun x y => ∀ c, f x = some c → ∀ d, f y = some d → c ≠ d :=
    ⟨fun x y hxy c hc d hd => (hxy d hd c hc).symm⟩
  exact hpairs.forall ha ha' hne b hb b hb' rfl

theorem noClash_of_nodup {es : List Event} (h : (generatedIds P es).Nodup) : NoClash P es := by
  constructor
  · intro p p' hp hp' hid
    exact Event.boxKeypair.inj (eq_of_nodup_filterMap h hp hp' (congrArg some hid) rfl)
  · intro p p' hp hp' hid
    exact Event.mlkemKeypair.inj (eq_of_nodup_filterMap h hp hp' (congrArg some hid) rfl)

/-- Without a clash an identifier of a type names one key. -/
theorem NoClash.unique {es : List Event} (h : NoClash P es) {k k' : Named}
    (hk : k ∈ generated P es) (hk' : k' ∈ generated P es) (htype : k.type = k'.type)
    (hid : k.identifier = k'.identifier) : k.key = k'.key := by
  obtain ⟨e, he, hnamed⟩ := mem_generated.mp hk
  obtain ⟨e', he', hnamed'⟩ := mem_generated.mp hk'
  cases e with
  | boxKeypair p =>
    cases hnamed
    cases e' with
    | boxKeypair p' =>
      cases hnamed'
      rw [h.box p p' he he' hid]
    | mlkemKeypair p' =>
      cases hnamed'
      cases htype
    | _ => cases hnamed'
  | mlkemKeypair p =>
    cases hnamed
    cases e' with
    | boxKeypair p' =>
      cases hnamed'
      cases htype
    | mlkemKeypair p' =>
      cases hnamed'
      rw [h.mlkem p p' he he' hid]
    | _ => cases hnamed'
  | _ => cases hnamed

theorem NoClash.mono {es es' : List Event} (h : NoClash P es') (hsub : ∀ e ∈ es, e ∈ es') :
    NoClash P es :=
  ⟨fun p p' hp hp' => h.box p p' (hsub _ hp) (hsub _ hp'),
    fun p p' hp hp' => h.mlkem p p' (hsub _ hp) (hsub _ hp')⟩

/-! ### Runs -/

/-- A call that generates keys. -/
inductive PublishCall
  | makeLkb (deviceId : UInt32)
  | refill (privIdentityKey : Xckey) (Count : UInt32)

namespace PublishCall

/-- The world that the call leaves, also where it throws. -/
def after (P : Primitives) (w : World) : PublishCall → World
  | .makeLkb deviceId => finalState (Gcrypt.makeLkb P deviceId w)
  | .refill priv count => finalState (Gcrypt.refill P priv count w)

/-- The keys the call hands out, where it returns. -/
def handsOut (P : Primitives) (w : World) : PublishCall → List Named
  | .makeLkb deviceId =>
    match Gcrypt.makeLkb P deviceId w with
    | .ok lkb _ => lkb.handsOut
    | .error _ _ => []
  | .refill priv count =>
    match Gcrypt.refill P priv count w with
    | .ok payload _ => payload.handsOut
    | .error _ _ => []

/-- The calls of `store_one_time_prekey` it makes. -/
def stores (P : Primitives) (w : World) : PublishCall → List StoreCall
  | .makeLkb _ => []
  | .refill priv count => storeCalls P (w.newEvents (finalState (Gcrypt.refill P priv count w)))

/-- Both maps of the bundle contain every pair generated for them. -/
def FillsMaps (P : Primitives) (w : World) : PublishCall → Prop
  | .makeLkb deviceId => ∀ lkb w', Gcrypt.makeLkb P deviceId w = .ok lkb w' →
    ∃ g : LkbPairs, w.newEvents w' = g.events ∧
      g.oneTime.length = initialPrekeyBundleCount ∧
      g.oneTimeQuantum.length = initialPrekeyBundleCount ∧
      (∀ pair ∈ g.oneTime, lkb.OneTimePreKeys.lookup (keyid P pair.Public) = some pair) ∧
      ∀ pair ∈ g.oneTimeQuantum, lkb.OneTimeQuantumKeys.lookup (keyid P pair.Public) = some pair
  | .refill _ _ => True

/-- A refill leaves the slot of `a` alone, or writes it for `a` itself. -/
def Spares (P : Primitives) (w : World) (a : Named) : PublishCall → Prop
  | .makeLkb _ => True
  | .refill priv count => ∀ m m', w.manager = some m →
    (finalState (Gcrypt.refill P priv count w)).manager = some m' →
    m'.prekeys a.identifier a.type = m.prekeys a.identifier a.type ∨
      ∃ c ∈ (PublishCall.refill priv count).stores P w,
        c.toNamed = a ∧ m'.prekeys a.identifier a.type = some c.blob

end PublishCall

/-- The calls of a run, each with the world it starts in. A call that throws leaves its
world to the next one. -/
def publishSteps (P : Primitives) : List PublishCall → World → List (PublishCall × World)
  | [], _ => []
  | c :: cs, w => (c, w) :: publishSteps P cs (c.after P w)

/-- The world after a run. -/
def publishEnd (P : Primitives) : List PublishCall → World → World
  | [], w => w
  | c :: cs, w => publishEnd P cs (c.after P w)

/-- Everything a run hands out under a hash. -/
def runHandsOut (P : Primitives) (calls : List PublishCall) (w : World) : List Named :=
  (publishSteps P calls w).flatMap fun s => s.1.handsOut P s.2

/-- Every call of `store_one_time_prekey` of a run. -/
def runStores (P : Primitives) (calls : List PublishCall) (w : World) : List StoreCall :=
  (publishSteps P calls w).flatMap fun s => s.1.stores P s.2

/-- Events were added at the end of the trace, and nothing else happened to it. -/
def TraceGrows (w w' : World) : Prop := ∃ es, World.Traced es w w'

theorem traceGrows_of_same {w w' : World} (h : w'.trace = w.trace) : TraceGrows w w' :=
  ⟨[], by simp [World.Traced, h]⟩

theorem traceGrows_publishFrame : PublishFrame TraceGrows where
  frame := {
    refl := fun w => traceGrows_of_same rfl
    trans := by
      rintro w₁ w₂ w₃ ⟨es, h⟩ ⟨es', h'⟩
      exact ⟨es ++ es', h.trans h'⟩ }
  skip w n := traceGrows_of_same rfl
  log w e := ⟨[e], rfl⟩
  storeIdentityKeyPair keys w := traceGrows_of_same (storeIdentityKeyPair_trace _ w)
  storeOneTimePrekey id type keys w := traceGrows_of_same (storeOneTimePrekey_trace id type _ w)

theorem PublishCall.traceGrows (c : PublishCall) (w : World) : TraceGrows w (c.after P w) := by
  cases c with
  | makeLkb deviceId => exact keeps_makeLkb traceGrows_publishFrame deviceId w
  | refill priv count => exact keeps_refill traceGrows_publishFrame priv count w

theorem publishEnd_traceGrows (calls : List PublishCall) (w : World) :
    TraceGrows w (publishEnd P calls w) := by
  induction calls generalizing w with
  | nil => exact traceGrows_of_same rfl
  | cons c cs ih => exact traceGrows_publishFrame.frame.trans (c.traceGrows w) (ih _)

theorem newEvents_trans {w w₁ w₂ : World} (h : TraceGrows w w₁) (h' : TraceGrows w₁ w₂) :
    w.newEvents w₂ = w.newEvents w₁ ++ w₁.newEvents w₂ := by
  obtain ⟨es, hes⟩ := h
  obtain ⟨es', hes'⟩ := h'
  rw [(hes.trans hes').newEvents, hes.newEvents, hes'.newEvents]

/-- **Run.** What a step generates is generated in the run. -/
theorem newEvents_of_step {calls : List PublishCall} {w : World} {s : PublishCall × World}
    (hs : s ∈ publishSteps P calls w) :
    ∀ e ∈ s.2.newEvents (s.1.after P s.2), e ∈ w.newEvents (publishEnd P calls w) := by
  induction calls generalizing w with
  | nil => simp [publishSteps] at hs
  | cons c cs ih =>
    intro e he
    rw [publishEnd, newEvents_trans (c.traceGrows w) (publishEnd_traceGrows cs _),
      List.mem_append]
    rcases List.mem_cons.mp hs with rfl | hs
    · exact Or.inl he
    · exact Or.inr (ih hs e he)

theorem runHandsOut_generated (calls : List PublishCall) (w : World) :
    ∀ k ∈ runHandsOut P calls w, k ∈ generated P (w.newEvents (publishEnd P calls w)) := by
  intro k hk
  obtain ⟨s, hs, hk⟩ := List.mem_flatMap.mp hk
  refine generated_mono (newEvents_of_step hs) k ?_
  obtain ⟨c, w₀⟩ := s
  cases c with
  | makeLkb deviceId =>
    simp only [PublishCall.handsOut] at hk
    simp only [PublishCall.after]
    cases hrun : makeLkb P deviceId w₀ with
    | error e w₁ => simp [hrun] at hk
    | ok lkb w₁ =>
      rw [hrun] at hk
      exact makeLkb_handsOut hrun k hk
  | refill priv count =>
    simp only [PublishCall.handsOut] at hk
    simp only [PublishCall.after]
    cases hrun : refill P priv count w₀ with
    | error e w₁ => simp [hrun] at hk
    | ok payload w₁ =>
      rw [hrun] at hk
      exact refill_handsOut hrun k hk

theorem runStores_generated (calls : List PublishCall) (w : World) :
    ∀ c ∈ runStores P calls w,
      c.toNamed ∈ generated P (w.newEvents (publishEnd P calls w)) := by
  intro c hc
  obtain ⟨s, hs, hc⟩ := List.mem_flatMap.mp hc
  refine generated_mono (newEvents_of_step hs) c.toNamed ?_
  obtain ⟨call, w₀⟩ := s
  cases call with
  | makeLkb deviceId => simp [PublishCall.stores] at hc
  | refill priv count => exact stores_generated c hc

/-- Without a clash the maps of a bundle lose nothing. -/
theorem fillsMaps_of_noClash {c : PublishCall} {w : World}
    (h : NoClash P (w.newEvents (c.after P w))) : c.FillsMaps P w := by
  cases c with
  | refill priv count => trivial
  | makeLkb deviceId =>
    intro lkb w' hrun
    rw [PublishCall.after, hrun, finalState_ok] at h
    obtain ⟨g, hlen, hlenq, htrace, rfl⟩ := makeLkb_returned hrun
    rw [htrace.newEvents] at h
    refine ⟨g, htrace.newEvents, hlen, hlenq, ?_, ?_⟩
    · intro pair hpair
      refine lookup_insertAll_of_mem (f := fun pair : Xckeypair => keyid P pair.Public) ?_ hpair
      intro a ha b hb hid
      exact h.box a b (by simp [LkbPairs.events, ha]) (by simp [LkbPairs.events, hb]) hid
    · intro pair hpair
      refine lookup_insertAll_of_mem (f := fun pair : Qkeypair => keyid P pair.Public) ?_ hpair
      intro a ha b hb hid
      exact h.mlkem a b (by simp [LkbPairs.events, ha]) (by simp [LkbPairs.events, hb]) hid

/-- Where the calls of a refill hit no other key's slot, the store spares them all. -/
theorem spares_of_stores {c : PublishCall} {w : World} {a : Named}
    (h : ∀ s ∈ c.stores P w, s.type = a.type → s.identifier = a.identifier → s.key = a.key) :
    c.Spares P w a := by
  cases c with
  | makeLkb deviceId => trivial
  | refill priv count =>
    intro m m' hm hm'
    rw [refill_storeCalls, hm, Option.map_some, Option.some.injEq] at hm'
    subst hm'
    rcases prekeys_foldl_apply _ m a.identifier a.type with hkept | ⟨s, hs, hid, htype, hblob⟩
    · exact Or.inl hkept
    · have hkey := h s hs htype hid
      refine Or.inr ⟨s, hs, ?_, hblob⟩
      cases a
      obtain ⟨⟨id, type, key⟩, blob⟩ := s
      cases hid
      cases htype
      cases hkey
      rfl

/-- **Nothing is lost** in a run without a clash: the maps of every bundle are complete,
distinct keys handed out have distinct identifiers, and a refill makes no store call for
the slot of another key, so that the store keeps what is in it. -/
theorem nothing_lost {calls : List PublishCall} {w : World}
    (h : NoClash P (w.newEvents (publishEnd P calls w))) :
    (∀ s ∈ publishSteps P calls w, s.1.FillsMaps P s.2) ∧
      (∀ a ∈ runHandsOut P calls w, ∀ b ∈ runHandsOut P calls w,
        a.type = b.type → a.key ≠ b.key → a.identifier ≠ b.identifier) ∧
      ∀ s ∈ publishSteps P calls w, ∀ a ∈ runHandsOut P calls w,
        (∀ c ∈ s.1.stores P s.2, c.type = a.type → c.identifier = a.identifier →
          c.key = a.key) ∧ s.1.Spares P s.2 a := by
  refine ⟨?_, ?_, ?_⟩
  · intro s hs
    exact fillsMaps_of_noClash (h.mono (newEvents_of_step hs))
  · intro a ha b hb htype hkey hid
    exact hkey (h.unique (runHandsOut_generated _ _ a ha) (runHandsOut_generated _ _ b hb)
      htype hid)
  · intro s hs a ha
    have hstores : ∀ c ∈ s.1.stores P s.2, c.type = a.type → c.identifier = a.identifier →
        c.key = a.key := by
      intro c hc htype hid
      have hrun : c ∈ runStores P calls w := List.mem_flatMap.mpr ⟨s, hs, hc⟩
      exact h.unique (runStores_generated _ _ c hrun) (runHandsOut_generated _ _ a ha) htype hid
    exact ⟨hstores, spares_of_stores hstores⟩

/-- Two rounds of a refill generate four pairs with four identifiers. -/
theorem freshWorld_refill_ids : (generatedIds Reference.primitives (freshWorld.newEvents
    (finalState (refill Reference.primitives Key.zero 2 freshWorld)))).Nodup := by
  decide +kernel

theorem nothing_lost_freshWorld :
    (∀ s ∈ publishSteps Reference.primitives [.refill Key.zero 2] freshWorld,
      s.1.FillsMaps Reference.primitives s.2) ∧
    (∀ a ∈ runHandsOut Reference.primitives [.refill Key.zero 2] freshWorld,
      ∀ b ∈ runHandsOut Reference.primitives [.refill Key.zero 2] freshWorld,
        a.type = b.type → a.key ≠ b.key → a.identifier ≠ b.identifier) ∧
    ∀ s ∈ publishSteps Reference.primitives [.refill Key.zero 2] freshWorld,
      ∀ a ∈ runHandsOut Reference.primitives [.refill Key.zero 2] freshWorld,
        (∀ c ∈ s.1.stores Reference.primitives s.2, c.type = a.type →
          c.identifier = a.identifier → c.key = a.key) ∧
          s.1.Spares Reference.primitives s.2 a :=
  nothing_lost (noClash_of_nodup freshWorld_refill_ids)

/-! ### A clash -/

/-- The private key with these low bytes, clamped. -/
def clashPrivate (low : Nat) : Xckey := Key.ofNat 32 (2 ^ 254 + low)

/-- The pair with that private key. -/
def clashPair (low : Nat) : Xckeypair :=
  ⟨Reference.primitives.cryptoScalarmultCurve25519Base (clashPrivate low), clashPrivate low⟩

/-- Two X25519 public keys with one identifier. -/
theorem clashPair_keyid :
    (clashPair 135792).Public ≠ (clashPair 142624).Public ∧
      keyid Reference.primitives (clashPair 135792).Public
        = keyid Reference.primitives (clashPair 142624).Public := by decide +kernel

/-- Random bytes for two rounds of `refill`: a private key, the coins of a KEM pair and
the random bytes of a signature each. -/
def clashBytes : List UInt8 :=
  (clashPrivate 135792).bytes ++ List.replicate 64 0 ++ List.replicate 64 0 ++
    (clashPrivate 142624).bytes ++ List.replicate 32 0 ++ List.replicate 32 1

def clashWorld : World where
  manager := some ⟨none, fun _ _ => none, fun _ => true⟩
  entropy i := clashBytes.getD i 0
  trace := []

/-- Two rounds with these random bytes: the pairs generated are distinct, and two keys
handed out have one identifier. -/
theorem clashWorld_refill : ∃ payload w',
    refill Reference.primitives Key.zero 2 clashWorld = .ok payload w' ∧
      payload.oneTimePreKeys = [135792, 142624].map (fun low =>
        ⟨(clashPair low).Public, keyid Reference.primitives (clashPair low).Public⟩) ∧
      ∃ q q', q ≠ q' ∧ World.Traced
        [.boxKeypair (clashPair 135792), .mlkemKeypair q,
          .boxKeypair (clashPair 142624), .mlkemKeypair q'] clashWorld w' := by
  have hfirst : nextBoxPair Reference.primitives clashWorld = clashPair 135792 := by
    rw [nextBoxPair, show clashWorld.peek 32 = clashPrivate 135792 by decide +kernel, clashPair]
  obtain ⟨q, hq⟩ := reference_mlkimplKeypair ((clashWorld.skip 32).peek 64)
  obtain ⟨k, w₁, m₁, hm₁, hacc₁, hent, htrace₁, h₁⟩ :=
    refillLoop_accepted (w := clashWorld) rfl rfl hq Key.zero 1 ⟨[], []⟩
  obtain ⟨q', hq'⟩ := reference_mlkimplKeypair ((w₁.skip 32).peek 64)
  obtain ⟨k', w₂, m₂, hm₂, hacc₂, -, htrace₂, h₂⟩ :=
    refillLoop_accepted hm₁ hacc₁ hq' Key.zero 0 ⟨_, _⟩
  have hpeek : w₁.peek 32 = (clashWorld.skip 160).peek 32 := by
    rw [World.peek, hent, World.peek]
  have hcoins : (w₁.skip 32).peek 64 = ((clashWorld.skip 160).skip 32).peek 64 := by
    simp only [World.peek, World.skip, hent]
  have hsecond : nextBoxPair Reference.primitives w₁ = clashPair 142624 := by
    rw [nextBoxPair, hpeek,
      show (clashWorld.skip 160).peek 32 = clashPrivate 142624 by decide +kernel, clashPair]
  rw [hcoins] at hq'
  rw [hfirst] at htrace₁ h₁
  rw [hsecond] at htrace₂ h₂
  have hloop : refill Reference.primitives Key.zero 2 clashWorld
      = refillLoop Reference.primitives Key.zero 2 ⟨[], []⟩ clashWorld := by
    rw [refill, bind_of_ok (assertStore_apply rfl)]
    rfl
  refine ⟨_, w₂, hloop.trans (h₁.trans h₂), rfl, q, q', ?_, htrace₁.trans htrace₂⟩
  exact Reference.mlkimplKeypair_ne hq hq' (by decide +kernel) (by decide +kernel)

/-- **A clash.** The pairs of this run are distinct; still two keys of one type share an
identifier, and the second is stored in the slot of the first. -/
theorem clash_handed_out :
    (clashWorld.newEvents
      (publishEnd Reference.primitives [.refill Key.zero 2] clashWorld)).Nodup ∧
    ∃ a ∈ runHandsOut Reference.primitives [.refill Key.zero 2] clashWorld,
      ∃ b ∈ runHandsOut Reference.primitives [.refill Key.zero 2] clashWorld,
        a.type = b.type ∧ a.key ≠ b.key ∧ a.identifier = b.identifier ∧
        ∃ c ∈ runStores Reference.primitives [.refill Key.zero 2] clashWorld,
          c.type = a.type ∧ c.identifier = a.identifier ∧ c.key ≠ a.key := by
  obtain ⟨payload, w', hrun, hpayload, q, q', hqq', htrace⟩ := clashWorld_refill
  obtain ⟨hne, hid⟩ := clashPair_keyid
  have hend : publishEnd Reference.primitives [.refill Key.zero 2] clashWorld = w' := by
    rw [publishEnd, publishEnd, PublishCall.after, hrun, finalState_ok]
  have hhands : runHandsOut Reference.primitives [.refill Key.zero 2] clashWorld
      = payload.handsOut := by
    simp only [runHandsOut, publishSteps, List.flatMap_cons, List.flatMap_nil, List.append_nil,
      PublishCall.handsOut, hrun]
  have hstores : runStores Reference.primitives [.refill Key.zero 2] clashWorld
      = storeCalls Reference.primitives (clashWorld.newEvents w') := by
    simp only [runStores, publishSteps, List.flatMap_cons, List.flatMap_nil, List.append_nil,
      PublishCall.stores, hrun, finalState_ok]
  rw [hend, hhands, hstores, htrace.newEvents]
  constructor
  · have hpair : clashPair 135792 ≠ clashPair 142624 := by
      intro heq
      exact hne (congrArg (fun pair : Xckeypair => pair.Public) heq)
    simp [hpair, hqq']
  · refine ⟨⟨keyid Reference.primitives (clashPair 135792).Public, .prekey,
        (clashPair 135792).Public.bytes⟩, ?_,
      ⟨keyid Reference.primitives (clashPair 142624).Public, .prekey,
        (clashPair 142624).Public.bytes⟩, ?_, rfl, ?_, hid, ?_⟩
    · simp [RefillPayload.handsOut, hpayload, Idkey.named]
    · simp [RefillPayload.handsOut, hpayload, Idkey.named]
    · intro heq
      exact hne (Key.ext heq)
    · refine ⟨_, List.mem_filterMap.mpr ⟨.boxKeypair (clashPair 142624), by simp, rfl⟩, rfl,
        hid.symm, ?_⟩
      intro heq
      exact hne (Key.ext heq.symm)

end Gcrypt
