import Gcrypt.Library.Effect

/-!
# Gcrypt.Library.Latch

Programs over a **latch**: a flag that a statement can set and none can clear, such as a
pending exception or an error number.

* `Latching x` says that `x` does not clear the flag. It is a class, so that it is found for
  a long program from its statements.
* `Clean c x v` says exactly when `x` gets through: under the condition `c` it returns `v`
  with the flag still down, and else it does not return with the flag down. It composes along
  `bind`, the conditions by conjunction (`Clean.bind`), so when a long program gets through is
  read off its statements, and `Clean.iff` turns it into an equivalence.

Nothing here knows about any particular program.
-/

namespace Effect

variable {ε α β ι : Type}

/-! ### The flag stays up -/

/-- Run with the flag up, the program leaves it up. -/
class Latching (x : EStateM ε Bool α) : Prop where
  stays : finalState (x true) = true

instance Latching.pure (a : α) : Latching (pure a : EStateM ε Bool α) := ⟨rfl⟩

instance Latching.throw (e : ε) : Latching (throw e : EStateM ε Bool α) := ⟨rfl⟩

instance Latching.bind {x : EStateM ε Bool α} {f : α → EStateM ε Bool β} [hx : Latching x]
    [hf : ∀ a, Latching (f a)] : Latching (x >>= f) := by
  constructor
  have hstays := hx.stays
  cases h : x true with
  | ok a s =>
    rw [h, finalState_ok] at hstays
    rw [bind_of_ok h, hstays]
    exact (hf a).stays
  | error e s =>
    rw [h] at hstays
    rw [bind_of_error h]
    exact hstays

/-- Go on with the result, or with nothing where there is none. -/
def orNull (x : EStateM ε Bool (Option α)) (f : α → EStateM ε Bool (Option β)) :
    EStateM ε Bool (Option β) := do
  match ← x with
  | none => return none
  | some a => f a

theorem orNull_assoc {γ : Type} (x : EStateM ε Bool (Option α))
    (f : α → EStateM ε Bool (Option β)) (g : β → EStateM ε Bool (Option γ)) :
    orNull (orNull x f) g = orNull x fun a => orNull (f a) g := by
  unfold orNull
  rw [bind_assoc]
  congr 1
  funext r
  cases r with
  | none => exact pure_bind _ _
  | some a => rfl

theorem orNull_bind_some {γ : Type} (x : EStateM ε Bool α) (b : β)
    (g : β → EStateM ε Bool (Option γ)) :
    orNull (x >>= fun _ => Pure.pure (some b)) g = x >>= fun _ => g b := by
  unfold orNull
  rw [bind_assoc]
  congr 1

instance Latching.orNull {x : EStateM ε Bool (Option α)} {f : α → EStateM ε Bool (Option β)}
    [Latching x] [hf : ∀ a, Latching (f a)] : Latching (orNull x f) := by
  refine @Latching.bind _ _ _ x _ _ fun r => ?_
  cases r with
  | none => exact Latching.pure none
  | some a => exact hf a

/-! ### Getting through -/

/-- Run with the flag down, the program returns `v` with the flag still down exactly where `c`
holds. -/
structure Clean (c : Prop) (x : EStateM ε Bool α) (v : α) : Prop where
  returns : c → x false = .ok v false
  blocked : ¬ c → ∀ v', x false ≠ .ok v' false

section Clean

variable {c c' : Prop} {x : EStateM ε Bool α} {f : α → EStateM ε Bool β} {v : α} {u : β}

theorem Clean.pure (v : α) : Clean True (pure v : EStateM ε Bool α) v :=
  ⟨fun _ => rfl, fun h => absurd trivial h⟩

theorem Clean.congr (h : Clean c x v) (hc : c' ↔ c) : Clean c' x v :=
  ⟨fun h' => h.returns (hc.mp h'), fun h' => h.blocked fun hc' => h' (hc.mpr hc')⟩

/-- A program that does not get through in front of one that does not clear the flag. -/
theorem bind_blocked [hf : ∀ a, Latching (f a)] (hx : ∀ v, x false ≠ .ok v false) (u : β) :
    (x >>= f) false ≠ .ok u false := by
  intro h
  obtain ⟨a, s, ha, hu⟩ := bind_eq_ok.mp h
  cases s with
  | false => exact hx a ha
  | true =>
    have hstays := (hf a).stays
    rw [hu] at hstays
    cases hstays

/-- A statement that never gets through. -/
theorem Clean.never (h : ∀ v, x false ≠ .ok v false) : Clean False x v :=
  ⟨False.elim, fun _ => h⟩

/-- **Sequence rule.** -/
theorem Clean.bind [hl : ∀ a, Latching (f a)] (hx : Clean c x v) (hf : Clean c' (f v) u) :
    Clean (c ∧ c') (x >>= f) u := by
  constructor
  · rintro ⟨hc, hc'⟩
    rw [bind_of_ok (hx.returns hc)]
    exact hf.returns hc'
  · intro h
    by_cases hc : c
    · rw [bind_of_ok (hx.returns hc)]
      exact hf.blocked fun hc' => h ⟨hc, hc'⟩
    · exact bind_blocked (hx.blocked hc)

/-- A statement that always gets through. -/
theorem Clean.andThen [∀ a, Latching (f a)] (hx : Clean True x v) (hf : Clean c (f v) u) :
    Clean c (x >>= f) u :=
  (hx.bind hf).congr ⟨fun h => ⟨trivial, h⟩, And.right⟩

/-- A statement after which all get through. -/
theorem Clean.onlyIf [∀ a, Latching (f a)] (hx : Clean c x v) (hf : Clean True (f v) u) :
    Clean c (x >>= f) u :=
  (hx.bind hf).congr ⟨fun h => ⟨h, trivial⟩, And.left⟩

theorem Clean.orNull {x : EStateM ε Bool (Option α)} {f : α → EStateM ε Bool (Option β)}
    {u : Option β} [hl : ∀ a, Latching (f a)] (hx : Clean c x (some v)) (hf : Clean c' (f v) u) :
    Clean (c ∧ c') (orNull x f) u := by
  refine @Clean.bind _ _ _ _ _ x _ (some v) u (fun r => ?_) hx hf
  cases r with
  | none => exact Latching.pure none
  | some a => exact hl a

/-- Getting through, exactly. -/
theorem Clean.iff (h : Clean c x v) {v' : α} : x false = .ok v' false ↔ c ∧ v' = v := by
  constructor
  · intro hx
    by_cases hc : c
    · rw [h.returns hc, EStateM.Result.ok.injEq] at hx
      exact ⟨hc, hx.1.symm⟩
    · exact absurd hx (h.blocked hc v')
  · rintro ⟨hc, rfl⟩
    exact h.returns hc

end Clean

end Effect
