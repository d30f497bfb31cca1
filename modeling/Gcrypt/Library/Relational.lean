import Gcrypt.Library.Effect

/-!
# Gcrypt.Library.Relational

Two runs side by side, from states that a relation connects.

* `Matches R x y` says that `x` and `y`, started in related states, end alike: with the same
  outcome, in related states again. It composes along `bind`, so it is read off the statements
  of two programs that are written alike, and `Matches.drop` drops a statement that one of
  them has more.
* `Respects R x` is that of one program with itself: it does not depend on what `R` leaves
  open.
* `answers` is what the calls of a run deliver. Two runs whose calls match deliver the same
  (`answers_matches`), and calls that only move within an equivalence that all respect can be
  taken out of a run (`answers_filter`).

Nothing here knows about any particular program.
-/

namespace Effect

variable {ε σ τ α β ι : Type}

/-! ### Ending alike -/

/-- The same outcome, in related states. -/
structure Alike (R : σ → τ → Prop) (r : EStateM.Result ε σ α) (r' : EStateM.Result ε τ α) :
    Prop where
  outcome : outcome r = outcome r'
  final : R (finalState r) (finalState r')

/-- From related states the programs end alike. -/
structure Matches (R : σ → τ → Prop) (x : EStateM ε σ α) (y : EStateM ε τ α) : Prop where
  alike : ∀ {s t}, R s t → Alike R (x s) (y t)

/-- From related states the program ends alike. -/
abbrev Respects (R : σ → σ → Prop) (x : EStateM ε σ α) : Prop := Matches R x x

section Matches

variable {R : σ → τ → Prop}

theorem Alike.ok {s : σ} {t : τ} (a : α) (h : R s t) :
    Alike R (.ok a s : EStateM.Result ε σ α) (.ok a t) := ⟨rfl, h⟩

theorem Alike.error {s : σ} {t : τ} (e : ε) (h : R s t) :
    Alike R (.error e s : EStateM.Result ε σ α) (.error e t) := ⟨rfl, h⟩

/-- Two runs that end alike both return the same value, or both throw the same fault. -/
theorem Alike.cases {r : EStateM.Result ε σ α} {r' : EStateM.Result ε τ α} (h : Alike R r r') :
    (∃ a s t, r = .ok a s ∧ r' = .ok a t ∧ R s t) ∨
      ∃ e s t, r = .error e s ∧ r' = .error e t ∧ R s t := by
  obtain ⟨hout, hfinal⟩ := h
  cases r with
  | ok a s =>
    cases r' with
    | ok a' t =>
      cases hout
      exact Or.inl ⟨a, s, t, rfl, rfl, hfinal⟩
    | error e' t => cases hout
  | error e s =>
    cases r' with
    | ok a' t => cases hout
    | error e' t =>
      cases hout
      exact Or.inr ⟨e, s, t, rfl, rfl, hfinal⟩

theorem Matches.pure (a : α) : Matches R (pure a : EStateM ε σ α) (Pure.pure a) :=
  ⟨fun h => Alike.ok a h⟩

theorem Matches.throw (e : ε) :
    Matches R (throw e : EStateM ε σ α) (MonadExcept.throw e) :=
  ⟨fun h => Alike.error e h⟩

variable {x : EStateM ε σ α} {y : EStateM ε τ α}

/-- **Sequence rule.** -/
theorem Matches.bind {f : α → EStateM ε σ β} {g : α → EStateM ε τ β} (h : Matches R x y)
    (hf : ∀ a, Matches R (f a) (g a)) : Matches R (x >>= f) (y >>= g) := by
  refine ⟨fun {s t} hR => ?_⟩
  rcases (h.alike hR).cases with ⟨a, s₁, t₁, h₁, h₁', hR₁⟩ | ⟨e, s₁, t₁, h₁, h₁', hR₁⟩
  · rw [bind_of_ok h₁, bind_of_ok h₁']
    exact (hf a).alike hR₁
  · rw [bind_of_error h₁, bind_of_error h₁']
    exact Alike.error e hR₁

/-- A statement of one program that the other has not: it returns what is known, and stays
in the relation. -/
theorem Matches.drop {f : α → EStateM ε σ β} {y : EStateM ε τ β} (a : α)
    (hx : ∀ {s t}, R s t → ∃ s₁, x s = .ok a s₁ ∧ R s₁ t) (hf : Matches R (f a) y) :
    Matches R (x >>= f) y := by
  refine ⟨fun {s t} hR => ?_⟩
  obtain ⟨s₁, h₁, hR₁⟩ := hx hR
  rw [bind_of_ok h₁]
  exact hf.alike hR₁

theorem Matches.attempt (h : Matches R x y) (caught : ε → Bool) :
    Matches R (attempt caught x) (attempt caught y) := by
  refine ⟨fun {s t} hR => ?_⟩
  rcases (h.alike hR).cases with ⟨a, s₁, t₁, h₁, h₁', hR₁⟩ | ⟨e, s₁, t₁, h₁, h₁', hR₁⟩
  · rw [attempt_of_ok h₁, attempt_of_ok h₁']
    exact Alike.ok _ hR₁
  · simp only [Effect.attempt, h₁, h₁']
    cases caught e with
    | true => exact Alike.ok _ hR₁
    | false => exact Alike.error e hR₁

end Matches

/-! ### Runs -/

theorem outcome_bind_pure (x : EStateM ε σ α) (f : α → β) (s : σ) :
    outcome ((x >>= fun a => Pure.pure (f a)) s) = (outcome (x s)).map f := by
  cases h : x s with
  | ok a s₁ =>
    rw [bind_of_ok h]
    rfl
  | error e s₁ =>
    rw [bind_of_error h]
    rfl

theorem outcome_eq_ok {r : EStateM.Result ε σ α} {a : α} (h : outcome r = .ok a) :
    ∃ s, r = .ok a s := by
  cases r with
  | ok b s =>
    cases h
    exact ⟨s, rfl⟩
  | error e s => cases h

/-- What the calls of a run deliver, in order. -/
def answers (f : ι → EStateM ε σ α) : List ι → σ → List (ι × Except ε α)
  | [], _ => []
  | i :: is, s => (i, outcome (f i s)) :: answers f is (finalState (f i s))

section Runs

variable {f : ι → EStateM ε σ α}

/-- A run of the calls of one list and then of another. -/
theorem runEnd_append (is js : List ι) (s : σ) :
    runEnd f (is ++ js) s = runEnd f js (runEnd f is s) := by
  induction is generalizing s with
  | nil => rfl
  | cons i is ih => exact ih _

/-- Every answer of a run is that of its call, in the state the calls before it left. -/
theorem mem_answers {is : List ι} {s : σ} {p : ι × Except ε α} (h : p ∈ answers f is s) :
    ∃ before after, is = before ++ p.1 :: after ∧ p.2 = outcome (f p.1 (runEnd f before s)) := by
  induction is generalizing s with
  | nil => cases h
  | cons i is ih =>
    rw [answers, List.mem_cons] at h
    rcases h with rfl | h
    · exact ⟨[], is, rfl, rfl⟩
    · obtain ⟨before, after, rfl, hp⟩ := ih h
      exact ⟨i :: before, after, rfl, hp⟩

/-- The answers that are looked at, of a run and its first call. -/
theorem answers_cons_filter (kept : ι → Bool) (i : ι) (is : List ι) (s : σ) :
    (answers f (i :: is) s).filter (fun p => kept p.1)
      = (if kept i then [(i, outcome (f i s))] else [])
        ++ (answers f is (finalState (f i s))).filter fun p => kept p.1 := by
  rw [answers, List.filter_cons]
  cases kept i <;> rfl

/-- **Run rule.** Where the calls that are looked at match, and the others stay in the
relation, two runs from related states deliver the same, call by call. -/
theorem answers_matches {R : σ → τ → Prop} {g : ι → EStateM ε τ α} {kept : ι → Bool}
    (hkept : ∀ i, kept i = true → Matches R (f i) (g i))
    (hothers : ∀ i, kept i = false → ∀ {s t}, R s t →
      R (finalState (f i s)) (finalState (g i t))) (is : List ι) {s : σ} {t : τ} (h : R s t) :
    (answers f is s).filter (fun p => kept p.1) = (answers g is t).filter (fun p => kept p.1) ∧
      R (runEnd f is s) (runEnd g is t) := by
  induction is generalizing s t with
  | nil => exact ⟨rfl, h⟩
  | cons i is ih =>
    rw [answers_cons_filter, answers_cons_filter]
    cases hi : kept i with
    | true =>
      obtain ⟨hout, hfinal⟩ := (hkept i hi).alike h
      obtain ⟨hanswers, hend⟩ := ih hfinal
      rw [hout, hanswers]
      exact ⟨rfl, hend⟩
    | false =>
      obtain ⟨hanswers, hend⟩ := ih (hothers i hi h)
      rw [hanswers]
      exact ⟨rfl, hend⟩

/-- **Dropping rule.** Where every call respects an equivalence and the dropped ones only
move within it, the calls that are left deliver what they did before. -/
theorem answers_filter {R : σ → σ → Prop} (hR : Equivalence R) (hf : ∀ i, Respects R (f i))
    {kept : ι → Bool} (hdropped : ∀ i, kept i = false → Keeps R (f i)) (is : List ι) {s s' : σ}
    (h : R s s') :
    answers f (is.filter kept) s' = (answers f is s).filter (fun p => kept p.1) ∧
      R (runEnd f is s) (runEnd f (is.filter kept) s') := by
  induction is generalizing s s' with
  | nil => exact ⟨rfl, h⟩
  | cons i is ih =>
    rw [answers_cons_filter]
    cases hkept : kept i with
    | true =>
      obtain ⟨hout, hfinal⟩ := (hf i).alike h
      obtain ⟨hanswers, hend⟩ := ih hfinal
      rw [List.filter_cons_of_pos hkept, answers, hout, hanswers]
      exact ⟨rfl, hend⟩
    | false =>
      -- The dropped call ends where it started, up to the relation.
      have hstays : R s (finalState (f i s)) := hdropped i hkept s
      obtain ⟨hanswers, hend⟩ := ih (hR.trans (hR.symm hstays) h)
      have hneg : ¬ kept i = true := by simp [hkept]
      rw [List.filter_cons_of_neg hneg]
      exact ⟨hanswers, hend⟩

end Runs

end Effect
