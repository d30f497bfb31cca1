/-!
# Gcrypt.Library.Effect

Reasoning rules for **programs that may throw and that change a state even when
they throw** (`EStateM ε σ`).

* `bind_of_ok`/`bind_of_error` execute one statement; `bind_eq_ok` inverts a
  sequence that returned. Together with `cases` on the result of each primitive
  they replace unfolding the monad.
* `attempt` is a `try`/`catch` that only catches some faults.
* `Keeps R` says that a program relates every state to the one it ends in, on
  both exits; it composes along `bind`, so a frame condition of a long program is
  read off its statements.
* `Exits Q E` does so for each exit on its own: `Q` on the return, `E` on the throw.
* `Delivers R p` says that a program always returns, with a result in `p`; it
  composes in the same way.
* `runAll` runs one program over a list of inputs, keeping the state across the
  calls that throw, and records what each call did.

Nothing here knows about any particular program.
-/

namespace Effect

variable {ε σ α β ι : Type}

/-! ### Results -/

/-- The state a run ends in, whether it returned or threw. -/
def finalState : EStateM.Result ε σ α → σ
  | .ok _ s => s
  | .error _ s => s

/-- What a run delivered, without the state. -/
def outcome : EStateM.Result ε σ α → Except ε α
  | .ok a _ => .ok a
  | .error e _ => .error e

@[simp] theorem finalState_ok (a : α) (s : σ) :
    finalState (.ok a s : EStateM.Result ε σ α) = s := rfl
@[simp] theorem finalState_error (e : ε) (s : σ) :
    finalState (.error e s : EStateM.Result ε σ α) = s := rfl
@[simp] theorem outcome_ok (a : α) (s : σ) :
    outcome (.ok a s : EStateM.Result ε σ α) = .ok a := rfl
@[simp] theorem outcome_error (e : ε) (s : σ) :
    outcome (.error e s : EStateM.Result ε σ α) = .error e := rfl

/-! ### Executing and inverting statements -/

@[simp] theorem pure_apply (a : α) (s : σ) : (pure a : EStateM ε σ α) s = .ok a s := rfl
@[simp] theorem throw_apply (e : ε) (s : σ) :
    (throw e : EStateM ε σ α) s = .error e s := rfl

theorem bind_of_ok {x : EStateM ε σ α} {f : α → EStateM ε σ β} {s s₁ : σ} {a : α}
    (h : x s = .ok a s₁) : (x >>= f) s = f a s₁ := by
  show EStateM.bind x f s = _
  rw [EStateM.bind, h]

theorem bind_of_error {x : EStateM ε σ α} {f : α → EStateM ε σ β} {s s₁ : σ} {e : ε}
    (h : x s = .error e s₁) : (x >>= f) s = .error e s₁ := by
  show EStateM.bind x f s = _
  rw [EStateM.bind, h]

/-- A sequence returns exactly when each of its parts does. -/
theorem bind_eq_ok {x : EStateM ε σ α} {f : α → EStateM ε σ β} {s s' : σ} {b : β} :
    (x >>= f) s = .ok b s' ↔ ∃ a s₁, x s = .ok a s₁ ∧ f a s₁ = .ok b s' := by
  cases h : x s with
  | ok a s₁ =>
    rw [bind_of_ok h]
    constructor
    · intro hf
      exact ⟨a, s₁, rfl, hf⟩
    · rintro ⟨a', s₂, heq, hf⟩
      cases heq
      exact hf
  | error e s₁ => rw [bind_of_error h]; simp

/-! ### Returning and throwing -/

/-- The program returns from `s`. -/
def Returns (x : EStateM ε σ α) (s : σ) : Prop := ∃ a s', x s = .ok a s'

/-- The program throws from `s`. -/
def Throws (x : EStateM ε σ α) (s : σ) : Prop := ∃ e s', x s = .error e s'

theorem returns_iff_not_throws {x : EStateM ε σ α} {s : σ} : Returns x s ↔ ¬ Throws x s := by
  unfold Returns Throws
  cases x s <;> simp

/-- Run a program and turn the faults that are `caught` into `none`. Like a
`catch` clause it keeps the state as the fault left it. -/
def attempt (caught : ε → Bool) (x : EStateM ε σ α) : EStateM ε σ (Option α) := fun s =>
  match x s with
  | .ok a s' => .ok (some a) s'
  | .error e s' => if caught e then .ok none s' else .error e s'

theorem attempt_of_ok {caught : ε → Bool} {x : EStateM ε σ α} {s s' : σ} {a : α}
    (h : x s = .ok a s') : attempt caught x s = .ok (some a) s' := by
  simp only [attempt, h]

theorem attempt_of_caught {caught : ε → Bool} {x : EStateM ε σ α} {s s' : σ} {e : ε}
    (h : x s = .error e s') (hc : caught e = true) : attempt caught x s = .ok none s' := by
  simp only [attempt, h, hc, if_true]

/-- A first statement that returns can be executed under the `try`. -/
theorem attempt_bind_of_ok {caught : ε → Bool} {x : EStateM ε σ α} {f : α → EStateM ε σ β}
    {s s₁ : σ} {a : α} (h : x s = .ok a s₁) :
    attempt caught (x >>= f) s = attempt caught (f a) s₁ := by
  simp only [attempt, bind_of_ok h]

/-! ### Frame conditions -/

/-- `x` relates every state it is started in to the state it ends in. -/
def Keeps (R : σ → σ → Prop) (x : EStateM ε σ α) : Prop := ∀ s, R s (finalState (x s))

/-- A relation a program can keep over any number of steps. -/
structure Frame (R : σ → σ → Prop) : Prop where
  refl : ∀ s, R s s
  trans : ∀ {s₁ s₂ s₃}, R s₁ s₂ → R s₂ s₃ → R s₁ s₃

section Keeps

variable {R : σ → σ → Prop}

theorem Keeps.pure (hR : Frame R) (a : α) : Keeps R (pure a : EStateM ε σ α) :=
  fun s => hR.refl s

theorem Keeps.throw (hR : Frame R) (e : ε) : Keeps R (throw e : EStateM ε σ α) :=
  fun s => hR.refl s

theorem Keeps.bind (hR : Frame R) {x : EStateM ε σ α} {f : α → EStateM ε σ β}
    (hx : Keeps R x) (hf : ∀ a, Keeps R (f a)) : Keeps R (x >>= f) := by
  intro s
  have hs := hx s
  cases h : x s with
  | ok a s₁ =>
    rw [bind_of_ok h]
    rw [h] at hs
    exact hR.trans hs (hf a s₁)
  | error e s₁ =>
    rw [bind_of_error h]
    rwa [h] at hs

theorem Keeps.of_ok {x : EStateM ε σ α} (hx : Keeps R x) {s s' : σ} {a : α}
    (h : x s = .ok a s') : R s s' := by
  have hs := hx s
  rw [h] at hs
  exact hs

theorem Keeps.attempt {x : EStateM ε σ α} (hx : Keeps R x) (caught : ε → Bool) :
    Keeps R (attempt caught x) := by
  intro s
  have hs := hx s
  cases h : x s with
  | ok a s₁ => rwa [attempt_of_ok h, ← finalState_ok (ε := ε) a s₁, ← h]
  | error e s₁ =>
    rw [h] at hs
    simp only [Effect.attempt, h]
    split <;> exact hs

end Keeps

/-! ### Conditions on each exit -/

/-- `Q` relates `s` to the state a run from it returned in, `E` to the one it threw in. -/
def Ended (Q E : σ → σ → Prop) (s : σ) : EStateM.Result ε σ α → Prop
  | .ok _ s' => Q s s'
  | .error _ s' => E s s'

/-- From every state, the program returns in one that `Q` relates it to, or throws in one that
`E` does. -/
structure Exits (Q E : σ → σ → Prop) (x : EStateM ε σ α) : Prop where
  ended : ∀ s, Ended Q E s (x s)

/-- After a return with `Q` the rest of a program can end in either way. -/
structure ExitFrame (Q Q' E : σ → σ → Prop) : Prop where
  trans : ∀ {s₁ s₂ s₃}, Q s₁ s₂ → Q' s₂ s₃ → Q' s₁ s₃
  fail : ∀ {s₁ s₂ s₃}, Q s₁ s₂ → E s₂ s₃ → E s₁ s₃

section Exits

variable {Q Q' E : σ → σ → Prop}

theorem Exits.pure (hQ : ∀ s, Q s s) (a : α) : Exits Q E (pure a : EStateM ε σ α) :=
  ⟨fun s => hQ s⟩

/-- A program that keeps a relation keeps it on both exits. -/
theorem Keeps.exits {R : σ → σ → Prop} {x : EStateM ε σ α} (hx : Keeps R x) : Exits R R x := by
  refine ⟨fun s => ?_⟩
  have hs := hx s
  cases h : x s with
  | ok a s₁ =>
    rw [h] at hs
    exact hs
  | error e s₁ =>
    rw [h] at hs
    exact hs

theorem Exits.keeps {R : σ → σ → Prop} {x : EStateM ε σ α} (hx : Exits R R x) : Keeps R x := by
  intro s
  have hs := hx.ended s
  cases h : x s with
  | ok a s₁ =>
    rw [h] at hs
    exact hs
  | error e s₁ =>
    rw [h] at hs
    exact hs

theorem Ended.then (hQ : ExitFrame Q Q' E) {s s₁ : σ} (h : Q s s₁)
    {r : EStateM.Result ε σ α} (hr : Ended Q' E s₁ r) : Ended Q' E s r := by
  cases r with
  | ok a s₂ => exact hQ.trans h hr
  | error e s₂ => exact hQ.fail h hr

theorem Exits.bind (hQ : ExitFrame Q Q' E) {x : EStateM ε σ α} {f : α → EStateM ε σ β}
    (hx : Exits Q E x) (hf : ∀ a, Exits Q' E (f a)) : Exits Q' E (x >>= f) := by
  refine ⟨fun s => ?_⟩
  have hs := hx.ended s
  cases h : x s with
  | ok a s₁ =>
    rw [h] at hs
    rw [bind_of_ok h]
    exact ((hf a).ended s₁).then hQ hs
  | error e s₁ =>
    rw [h] at hs
    rw [bind_of_error h]
    exact hs

end Exits

/-! ### Total programs -/

/-- From every state `x` returns: a result with `p`, in a state that `R` relates to it. -/
def Delivers (R : σ → σ → Prop) (p : α → Prop) (x : EStateM ε σ α) : Prop :=
  ∀ s, ∃ a s', x s = .ok a s' ∧ p a ∧ R s s'

section Delivers

variable {R : σ → σ → Prop}

theorem Delivers.pure (hR : Frame R) {p : α → Prop} {a : α} (ha : p a) :
    Delivers R p (pure a : EStateM ε σ α) :=
  fun s => ⟨a, s, rfl, ha, hR.refl s⟩

theorem Delivers.bind (hR : Frame R) {p : α → Prop} {q : β → Prop} {x : EStateM ε σ α}
    {f : α → EStateM ε σ β} (hx : Delivers R p x) (hf : ∀ a, p a → Delivers R q (f a)) :
    Delivers R q (x >>= f) := by
  intro s
  obtain ⟨a, s₁, hs₁, ha, hR₁⟩ := hx s
  obtain ⟨b, s₂, hs₂, hb, hR₂⟩ := hf a ha s₁
  exact ⟨b, s₂, (bind_of_ok hs₁).trans hs₂, hb, hR.trans hR₁ hR₂⟩

end Delivers

/-! ### Runs -/

/-- One call of a run: its input, what it delivered, and the state after it. -/
structure Call (ι ε σ α : Type) where
  input : ι
  outcome : Except ε α
  after : σ

/-- Call `f` on every input in turn. A call that throws leaves its state to the
next one, as for a caller that catches the fault and goes on. Every fault is one to go on
from here, also one that stands for behaviour without a definition: what such a call leaves
is the state in which it got there. -/
def runAll (f : ι → EStateM ε σ α) : List ι → σ → List (Call ι ε σ α)
  | [], _ => []
  | i :: is, s =>
    ⟨i, outcome (f i s), finalState (f i s)⟩ :: runAll f is (finalState (f i s))

/-- The state after a run. -/
def runEnd (f : ι → EStateM ε σ α) : List ι → σ → σ
  | [], s => s
  | i :: is, s => runEnd f is (finalState (f i s))

theorem runEnd_keeps {f : ι → EStateM ε σ α} {R : σ → σ → Prop} (hR : Frame R)
    (hf : ∀ i, Keeps R (f i)) (is : List ι) (s : σ) : R s (runEnd f is s) := by
  induction is generalizing s with
  | nil => exact hR.refl s
  | cons i is ih => exact hR.trans (hf i s) (ih _)

/-- **Run rule.** Every call of a run starts in a state the frame relates to the
initial one. -/
theorem runAll_mem {f : ι → EStateM ε σ α} {R : σ → σ → Prop} (hR : Frame R)
    (hf : ∀ i, Keeps R (f i)) {is : List ι} {s : σ} {c : Call ι ε σ α}
    (hc : c ∈ runAll f is s) :
    c.input ∈ is ∧ ∃ s₁, R s s₁ ∧ c.outcome = outcome (f c.input s₁) ∧
      c.after = finalState (f c.input s₁) := by
  induction is generalizing s with
  | nil => simp [runAll] at hc
  | cons i is ih =>
    rw [runAll, List.mem_cons] at hc
    rcases hc with rfl | hc
    · exact ⟨List.mem_cons_self, s, hR.refl s, rfl, rfl⟩
    · obtain ⟨hin, s₁, hs₁, hout, hafter⟩ := ih hc
      exact ⟨List.mem_cons_of_mem _ hin, s₁, hR.trans (hf i s) hs₁, hout, hafter⟩

/-- Every input of a run has its call. -/
theorem exists_call_of_mem {f : ι → EStateM ε σ α} {is : List ι} {s : σ} {i : ι}
    (hi : i ∈ is) : ∃ c ∈ runAll f is s, c.input = i := by
  induction is generalizing s with
  | nil => cases hi
  | cons j is ih =>
    rw [runAll]
    rcases List.mem_cons.mp hi with rfl | hi
    · exact ⟨_, List.mem_cons_self, rfl⟩
    · obtain ⟨c, hc, hci⟩ := ih hi
      exact ⟨c, List.mem_cons_of_mem _ hc, hci⟩

end Effect
