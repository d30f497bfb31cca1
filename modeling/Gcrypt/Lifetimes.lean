import Mathlib.Data.Set.Card
import Gcrypt.Interleavings

/-!
# Gcrypt.Lifetimes

What C++ adds to values: the lifetimes of keys and of the storage manager.

* `protocol.hpp`: a `key` wipes its bytes when it is moved from, assigned to or destroyed. So
  no key is left where one was destroyed (`no_residue`), and a key is in as many places as it
  was copied to (`holders_le`): moving it leaves it in one.
* `store.cpp`: `Init` takes over the manager that it is given. A process ends without an access
  to a manager that is gone if and only if it passes each manager to `Init` once, and while it
  is there (`ends_safely_iff`).

Everywhere else keys are values (`values_represented`), and the store is the content of the
registered manager (`Process.world`).
-/

namespace Gcrypt

open Effect

/-! ### Key objects -/

section KeyObjects

variable {n : Nat}

/-- The memory of a `key<N>`, and whether there is an object in it. -/
structure KeyObject (n : Nat) where
  alive : Bool
  implStorage : Key n

/-- Memory for keys, by their addresses. -/
abbrev KeyMemory (n : Nat) := Nat → KeyObject n

/-- A program over key objects. What it does outside of a lifetime has no defined result. -/
abbrev KeyM (n : Nat) := EStateM Fault (KeyMemory n)

/-- The memory with another object at `a`. -/
def KeyMemory.set (m : KeyMemory n) (a : Nat) (o : KeyObject n) : KeyMemory n :=
  Function.update m a o

@[simp] theorem KeyMemory.set_self (m : KeyMemory n) (a : Nat) (o : KeyObject n) :
    m.set a o a = o := by rw [KeyMemory.set, Function.update_self]

theorem KeyMemory.set_ne (m : KeyMemory n) {a b : Nat} (o : KeyObject n) (h : b ≠ a) :
    m.set a o b = m b := by rw [KeyMemory.set, Function.update_of_ne h]

/-- Read `impl_storage` of an object. -/
def readStorage (a : Nat) : KeyM n (Key n) := fun m =>
  if (m a).alive then .ok (m a).implStorage m else .error .undefinedBehaviour m

/-- Write it. -/
def writeStorage (a : Nat) (k : Key n) : KeyM n Unit := fun m =>
  if (m a).alive then .ok () (m.set a ⟨true, k⟩) else .error .undefinedBehaviour m

/-- A constructor begins a lifetime, where there is no object yet. -/
def beginLifetime (a : Nat) (k : Key n) : KeyM n Unit := fun m =>
  if (m a).alive then .error .undefinedBehaviour m else .ok () (m.set a ⟨true, k⟩)

/-- The memory of an object stays as the destructor leaves it. -/
def endLifetime (a : Nat) : KeyM n Unit := fun m =>
  if (m a).alive then .ok () (m.set a { m a with alive := false })
  else .error .undefinedBehaviour m

/-! The members of `key<N>`, each on the object at `a`. -/

/-- `kill()`. -/
def kill (a : Nat) : KeyM n Unit := writeStorage a Key.zero

/-- `key()`. -/
def construct (a : Nat) : KeyM n Unit := beginLifetime a Key.zero

/-- `key(const key& other)`. -/
def copyConstruct (a other : Nat) : KeyM n Unit := do
  let storage ← readStorage other
  beginLifetime a storage

/-- `key(key&& other)`. -/
def moveConstruct (a other : Nat) : KeyM n Unit := do
  let storage ← readStorage other
  beginLifetime a storage
  kill other

/-- `~key()`. -/
def destroy (a : Nat) : KeyM n Unit := do
  kill a
  endLifetime a

/-- `operator=(const key& other)`. -/
def copyAssign (a other : Nat) : KeyM n Unit :=
  if a = other then do
    let _ ← readStorage a
    return ()
  else do
    kill a
    let storage ← readStorage other
    writeStorage a storage

/-- `operator=(key&& other)`. -/
def moveAssign (a other : Nat) : KeyM n Unit :=
  if a = other then do
    let _ ← readStorage a
    return ()
  else do
    kill a
    let storage ← readStorage other
    writeStorage a storage
    kill other

/-- A call of a member function of `key<N>` on the object at the address `a`; `other` is the
address of the operand. -/
inductive KeyCall (n : Nat)
  | construct (a : Nat)
  | copyConstruct (a other : Nat)
  | moveConstruct (a other : Nat)
  | copyAssign (a other : Nat)
  | moveAssign (a other : Nat)
  | kill (a : Nat)
  /-- Through `data()`, `begin()` or `operator[]`. -/
  | write (a : Nat) (k : Key n)
  | destroy (a : Nat)

/-- The member function, called. -/
def KeyCall.run : KeyCall n → KeyM n Unit
  | construct a => Gcrypt.construct a
  | copyConstruct a other => Gcrypt.copyConstruct a other
  | moveConstruct a other => Gcrypt.moveConstruct a other
  | copyAssign a other => Gcrypt.copyAssign a other
  | moveAssign a other => Gcrypt.moveAssign a other
  | kill a => Gcrypt.kill a
  | write a k => writeStorage a k
  | destroy a => Gcrypt.destroy a

/-- The calls of a program, in order. -/
def runKeys : List (KeyCall n) → KeyM n Unit
  | [] => return ()
  | c :: calls => do
    c.run
    runKeys calls

/-! #### Residue -/

/-- Memory without an object is zero, or as it was before there was any. -/
def NoResidue (m m' : KeyMemory n) : Prop :=
  ∀ a, (m' a).alive = false → (m' a).implStorage = Key.zero ∨
    (m a).alive = false ∧ (m' a).implStorage = (m a).implStorage

theorem noResidue_frame : Frame (NoResidue (n := n)) where
  refl _ _ hdead := Or.inr ⟨hdead, rfl⟩
  trans := by
    intro m₁ m₂ m₃ h h' a hdead
    rcases h' a hdead with hzero | ⟨hdead₂, hsame⟩
    · exact Or.inl hzero
    · rw [hsame]
      exact h a hdead₂

/-- Writing a live object leaves no residue. -/
theorem noResidue_set_alive (m : KeyMemory n) (a : Nat) (k : Key n) :
    NoResidue m (m.set a ⟨true, k⟩) := by
  intro b hdead
  by_cases hb : b = a
  · rw [hb, KeyMemory.set_self] at hdead
    cases hdead
  · rw [KeyMemory.set_ne m _ hb] at hdead ⊢
    exact Or.inr ⟨hdead, rfl⟩

theorem keeps_readStorage (a : Nat) : Keeps NoResidue (readStorage (n := n) a) := by
  intro m
  unfold readStorage
  split <;> exact noResidue_frame.refl m

theorem keeps_writeStorage (a : Nat) (k : Key n) : Keeps NoResidue (writeStorage a k) := by
  intro m
  unfold writeStorage
  split
  · exact noResidue_set_alive m a k
  · exact noResidue_frame.refl m

theorem keeps_beginLifetime (a : Nat) (k : Key n) : Keeps NoResidue (beginLifetime a k) := by
  intro m
  unfold beginLifetime
  split
  · exact noResidue_frame.refl m
  · exact noResidue_set_alive m a k

theorem readStorage_of_alive {m : KeyMemory n} {a : Nat} (h : (m a).alive = true) :
    readStorage a m = .ok (m a).implStorage m := by
  simp only [readStorage, h, if_true]

theorem readStorage_of_dead {m : KeyMemory n} {a : Nat} (h : (m a).alive = false) :
    readStorage a m = .error .undefinedBehaviour m := by
  simp only [readStorage, h, Bool.false_eq_true, if_false]

theorem kill_of_alive {m : KeyMemory n} {a : Nat} (h : (m a).alive = true) :
    kill a m = .ok () (m.set a ⟨true, Key.zero⟩) := by
  simp only [kill, writeStorage, h, if_true]

theorem kill_of_dead {m : KeyMemory n} {a : Nat} (h : (m a).alive = false) :
    kill a m = .error .undefinedBehaviour m := by
  simp only [kill, writeStorage, h, Bool.false_eq_true, if_false]

/-- The destructor wipes before the lifetime ends. -/
theorem destroy_of_alive {m : KeyMemory n} {a : Nat} (h : (m a).alive = true) :
    destroy a m = .ok () ((m.set a ⟨true, Key.zero⟩).set a ⟨false, Key.zero⟩) := by
  refine (bind_of_ok (kill_of_alive h)).trans ?_
  simp only [endLifetime, KeyMemory.set_self, if_true]

theorem keeps_destroy (a : Nat) : Keeps NoResidue (destroy (n := n) a) := by
  intro m
  cases halive : (m a).alive with
  | true =>
    rw [destroy_of_alive halive, finalState_ok]
    intro b hdead
    by_cases hb : b = a
    · rw [hb, KeyMemory.set_self]
      exact Or.inl rfl
    · rw [KeyMemory.set_ne _ _ hb, KeyMemory.set_ne _ _ hb] at hdead ⊢
      exact Or.inr ⟨hdead, rfl⟩
  | false =>
    have hrun : destroy a m = .error .undefinedBehaviour m := bind_of_error (kill_of_dead halive)
    rw [hrun]
    exact noResidue_frame.refl m

/-- **Step.** What a call leaves in memory without an object is zero, or was in memory without
an object before. -/
theorem KeyCall.keeps_noResidue (c : KeyCall n) : Keeps NoResidue c.run := by
  have hR := noResidue_frame (n := n)
  have hself (a : Nat) : Keeps NoResidue (readStorage (n := n) a >>= fun _ => pure ()) :=
    Keeps.bind hR (keeps_readStorage a) fun _ => Keeps.pure hR ()
  cases c with
  | construct a => exact keeps_beginLifetime a _
  | copyConstruct a other =>
    exact Keeps.bind hR (keeps_readStorage other) fun k => keeps_beginLifetime a k
  | moveConstruct a other =>
    refine Keeps.bind hR (keeps_readStorage other) fun k => ?_
    exact Keeps.bind hR (keeps_beginLifetime a k) fun _ => keeps_writeStorage other _
  | copyAssign a other =>
    by_cases h : a = other
    · rw [KeyCall.run, Gcrypt.copyAssign, if_pos h]
      exact hself a
    · rw [KeyCall.run, Gcrypt.copyAssign, if_neg h]
      refine Keeps.bind hR (keeps_writeStorage a _) fun _ => ?_
      exact Keeps.bind hR (keeps_readStorage other) fun k => keeps_writeStorage a k
  | moveAssign a other =>
    by_cases h : a = other
    · rw [KeyCall.run, Gcrypt.moveAssign, if_pos h]
      exact hself a
    · rw [KeyCall.run, Gcrypt.moveAssign, if_neg h]
      refine Keeps.bind hR (keeps_writeStorage a _) fun _ => ?_
      refine Keeps.bind hR (keeps_readStorage other) fun k => ?_
      exact Keeps.bind hR (keeps_writeStorage a k) fun _ => keeps_writeStorage other _
  | kill a => exact keeps_writeStorage a _
  | write a k => exact keeps_writeStorage a k
  | destroy a => exact keeps_destroy a

/-- **No residue.** However a program over keys ends, memory that held one and holds none is
zero. -/
theorem no_residue (calls : List (KeyCall n)) (m : KeyMemory n) :
    NoResidue m (finalState (runKeys calls m)) := by
  have hkeeps : Keeps NoResidue (runKeys calls) := by
    induction calls with
    | nil => exact Keeps.pure noResidue_frame ()
    | cons c calls ih => exact Keeps.bind noResidue_frame c.keeps_noResidue fun _ => ih
  exact hkeeps m

/-! #### Copies -/

/-- The objects that hold a key. -/
def holders (k : Key n) (m : KeyMemory n) : Set Nat :=
  {a | (m a).alive = true ∧ (m a).implStorage = k}

/-- How many more there may be after a call. -/
def KeyCall.adds (k : Key n) : KeyCall n → Nat
  | copyConstruct _ _ | copyAssign _ _ => 1
  | write _ k' => if k' = k then 1 else 0
  | _ => 0

section Holders

variable {k : Key n} {m : KeyMemory n} {a b : Nat}

theorem holders_set_subset (o : KeyObject n) : holders k (m.set a o) ⊆ insert a (holders k m) := by
  intro c hc
  by_cases h : c = a
  · exact Or.inl h
  · refine Or.inr ?_
    rw [holders, Set.mem_ofPred_eq, KeyMemory.set_ne m o h] at hc
    exact hc

theorem holders_set_of_ne {o : KeyObject n} (h : o.alive = true → o.implStorage ≠ k) :
    holders k (m.set a o) ⊆ holders k m \ {a} := by
  rintro c ⟨halive, hstorage⟩
  by_cases hc : c = a
  · rw [hc, KeyMemory.set_self] at halive hstorage
    exact absurd hstorage (h halive)
  · rw [KeyMemory.set_ne m o hc] at halive hstorage
    exact ⟨⟨halive, hstorage⟩, hc⟩

theorem holders_set_le (o : KeyObject n) :
    (holders k (m.set a o)).encard ≤ (holders k m).encard + 1 :=
  (Set.encard_le_encard (holders_set_subset o)).trans (Set.encard_insert_le _ _)

theorem holders_wipe_le {o : KeyObject n} (h : o.alive = true → o.implStorage ≠ k) :
    (holders k (m.set a o)).encard ≤ (holders k m).encard :=
  Set.encard_le_encard ((holders_set_of_ne h).trans Set.sdiff_subset)

/-- The bytes of another object, which is wiped. -/
theorem holders_move_le (hk : k ≠ Key.zero) (hb : (m b).alive = true) :
    (holders k ((m.set a ⟨true, (m b).implStorage⟩).set b ⟨true, Key.zero⟩)).encard
      ≤ (holders k m).encard := by
  have hwiped : holders k ((m.set a ⟨true, (m b).implStorage⟩).set b ⟨true, Key.zero⟩)
      ⊆ holders k (m.set a ⟨true, (m b).implStorage⟩) \ {b} :=
    holders_set_of_ne fun _ => hk.symm
  by_cases hstorage : (m b).implStorage = k
  · -- It holds the key no more.
    have hsubset : holders k ((m.set a ⟨true, (m b).implStorage⟩).set b ⟨true, Key.zero⟩)
        ⊆ insert a (holders k m \ {b}) := by
      intro c hc
      obtain ⟨hmem, hne⟩ := hwiped hc
      rcases holders_set_subset _ hmem with rfl | hmem
      · exact Or.inl rfl
      · exact Or.inr ⟨hmem, hne⟩
    calc (holders k ((m.set a ⟨true, (m b).implStorage⟩).set b ⟨true, Key.zero⟩)).encard
        ≤ (holders k m \ {b}).encard + 1 :=
          (Set.encard_le_encard hsubset).trans (Set.encard_insert_le _ _)
      _ = (holders k m).encard := Set.encard_sdiff_singleton_add_one ⟨hb, hstorage⟩
  · refine (Set.encard_le_encard (hwiped.trans Set.sdiff_subset)).trans ?_
    exact holders_wipe_le fun _ => hstorage

/-- On either exit there are at most `c` holders more. -/
def Adds (k : Key n) (c : Nat) {α : Type} (x : KeyM n α) : Prop :=
  ∀ m, (holders k (finalState (x m))).encard ≤ (holders k m).encard + c

theorem Adds.bind {α β : Type} {c c' : Nat} {x : KeyM n α} {f : α → KeyM n β} (hx : Adds k c x)
    (hf : ∀ r, Adds k c' (f r)) : Adds k (c + c') (x >>= f) := by
  intro m
  have hfirst := hx m
  rw [Nat.cast_add, ← add_assoc]
  cases hrun : x m with
  | ok r m₁ =>
    rw [hrun, finalState_ok] at hfirst
    rw [bind_of_ok hrun]
    exact (hf r m₁).trans (add_le_add_left hfirst _)
  | error e m₁ =>
    rw [hrun, finalState_error] at hfirst
    rw [bind_of_error hrun]
    exact hfirst.trans le_self_add

/-- After a statement that adds none. -/
theorem Adds.after {α β : Type} {c : Nat} {x : KeyM n α} {f : α → KeyM n β} (hx : Adds k 0 x)
    (hf : ∀ r, Adds k c (f r)) : Adds k c (x >>= f) := by
  have h := hx.bind hf
  rwa [Nat.zero_add] at h

theorem adds_of_same {α : Type} {x : KeyM n α} (h : ∀ m, finalState (x m) = m) (c : Nat) :
    Adds k c x := by
  intro m
  rw [h m]
  exact le_self_add

theorem adds_readStorage (a : Nat) : Adds k 0 (readStorage (n := n) a) := by
  refine adds_of_same (fun m => ?_) 0
  unfold readStorage
  split <;> rfl

theorem adds_writeStorage (a : Nat) (k' : Key n) :
    Adds k (if k' = k then 1 else 0) (writeStorage a k') := by
  intro m
  unfold writeStorage
  cases (m a).alive with
  | false => exact le_self_add
  | true =>
    by_cases h : k' = k
    · rw [if_pos h]
      exact holders_set_le _
    · rw [if_neg h]
      exact (holders_wipe_le fun _ => h).trans le_self_add

theorem adds_beginLifetime (a : Nat) (k' : Key n) :
    Adds k (if k' = k then 1 else 0) (beginLifetime a k') := by
  intro m
  unfold beginLifetime
  cases (m a).alive with
  | true => exact le_self_add
  | false =>
    by_cases h : k' = k
    · rw [if_pos h]
      exact holders_set_le _
    · rw [if_neg h]
      exact (holders_wipe_le fun _ => h).trans le_self_add

theorem adds_endLifetime (a : Nat) : Adds k 0 (endLifetime (n := n) a) := by
  intro m
  unfold endLifetime
  cases (m a).alive with
  | false => exact le_self_add
  | true => exact (holders_wipe_le (by simp)).trans le_self_add

/-- At most one more, whatever is written. -/
theorem Adds.atMostOne {α : Type} {x : KeyM n α} {p : Prop} [Decidable p]
    (h : Adds k (if p then 1 else 0) x) : Adds k 1 x := by
  intro m
  refine (h m).trans (add_le_add_right ?_ _)
  split <;> simp

/-- A wipe adds none. -/
theorem adds_kill (hk : k ≠ Key.zero) (a : Nat) : Adds k 0 (kill (n := n) a) := by
  have h := adds_writeStorage (k := k) a Key.zero
  rwa [if_neg hk.symm] at h

/-- A move, by construction or assignment: what is put at `a` is wiped behind it. -/
theorem adds_move (hk : k ≠ Key.zero) {a other : Nat} {put : Key n → KeyM n Unit}
    (hput : ∀ m, (m other).alive = true →
      a ≠ other ∧ put (m other).implStorage m = .ok () (m.set a ⟨true, (m other).implStorage⟩) ∨
        put (m other).implStorage m = .error .undefinedBehaviour m) :
    Adds k 0 (readStorage other >>= fun storage => put storage >>= fun _ => kill other) := by
  intro m
  cases halive : (m other).alive with
  | false =>
    rw [bind_of_error (readStorage_of_dead halive)]
    exact le_self_add
  | true =>
    rw [bind_of_ok (readStorage_of_alive halive)]
    rcases hput m halive with ⟨hne, hok⟩ | herror
    · have hother : ((m.set a ⟨true, (m other).implStorage⟩) other).alive = true := by
        rw [KeyMemory.set_ne m _ hne.symm]
        exact halive
      rw [bind_of_ok hok, kill_of_alive hother]
      exact (holders_move_le hk halive).trans le_self_add
    · rw [bind_of_error herror]
      exact le_self_add

/-- **Step.** After a call at most `c.adds k` objects more hold the key `k`. -/
theorem KeyCall.run_adds (hk : k ≠ Key.zero) (c : KeyCall n) : Adds k (c.adds k) c.run := by
  have hself (a c : Nat) : Adds k c (readStorage (n := n) a >>= fun _ => pure ()) :=
    (adds_readStorage a).after fun _ => adds_of_same (fun _ => rfl) c
  cases c with
  | construct a =>
    have h := adds_beginLifetime (k := k) a Key.zero
    rwa [if_neg hk.symm] at h
  | copyConstruct a other =>
    exact (adds_readStorage other).after fun storage =>
      (adds_beginLifetime a storage).atMostOne
  | moveConstruct a other =>
    refine adds_move (a := a) hk fun m hother => ?_
    cases halive : (m a).alive with
    | true =>
      refine Or.inr ?_
      simp only [beginLifetime, halive, if_true]
    | false =>
      refine Or.inl ⟨?_, ?_⟩
      · rintro rfl
        rw [halive] at hother
        cases hother
      · simp only [beginLifetime, halive, Bool.false_eq_true, if_false]
  | copyAssign a other =>
    by_cases h : a = other
    · rw [KeyCall.run, Gcrypt.copyAssign, if_pos h]
      exact hself a 1
    · rw [KeyCall.run, Gcrypt.copyAssign, if_neg h]
      refine (adds_kill hk a).after fun _ => ?_
      exact (adds_readStorage other).after fun storage =>
        (adds_writeStorage a storage).atMostOne
  | moveAssign a other =>
    by_cases h : a = other
    · rw [KeyCall.run, Gcrypt.moveAssign, if_pos h]
      exact hself a 0
    · rw [KeyCall.run, Gcrypt.moveAssign, if_neg h]
      refine (adds_kill hk a).after fun _ => ?_
      refine adds_move (a := a) hk fun m hother => ?_
      cases halive : (m a).alive with
      | true =>
        refine Or.inl ⟨h, ?_⟩
        simp only [writeStorage, halive, if_true]
      | false =>
        refine Or.inr ?_
        simp only [writeStorage, halive, Bool.false_eq_true, if_false]
  | kill a => exact adds_kill hk a
  | write a k' => exact adds_writeStorage a k'
  | destroy a =>
    exact (adds_kill hk a).after fun _ => adds_endLifetime a

/-- **Copies.** After any program over keys a key is held by as many objects as it was before,
and by one more for each time it was copied or written at most. Moving it adds none. -/
theorem holders_le (hk : k ≠ Key.zero) (calls : List (KeyCall n)) (m : KeyMemory n) :
    (holders k (finalState (runKeys calls m))).encard
      ≤ (holders k m).encard + (calls.map (KeyCall.adds k)).sum := by
  have hadds : Adds k (calls.map (KeyCall.adds k)).sum (runKeys calls) := by
    induction calls with
    | nil => exact adds_of_same (fun _ => rfl) 0
    | cons c calls ih =>
      rw [List.map_cons, List.sum_cons]
      exact (c.run_adds hk).bind fun _ => ih
  exact hadds m

/-- A key of ones that is moved twice, from memory without any. -/
def movedTwice : List (KeyCall 32) :=
  [.construct 0, .write 0 (Keygen.filled 32 1), .moveConstruct 1 0, .moveConstruct 2 1,
    .destroy 0, .destroy 1]

def noKeys : KeyMemory 32 := fun _ => ⟨false, Key.zero⟩

theorem holders_le_movedTwice :
    (holders (Keygen.filled 32 1) (finalState (runKeys movedTwice noKeys))).encard
      ≤ (holders (Keygen.filled 32 1) noKeys).encard
        + (movedTwice.map (KeyCall.adds (Keygen.filled 32 1))).sum :=
  holders_le (by decide) movedTwice noKeys

end Holders

/-! #### Keys as values -/

/-- Keys as the rest of the development has them, where they have a value: not without an
object, and not after they were moved from. -/
abbrev KeyValues (n : Nat) := Nat → Option (Key n)

/-- The same call on values: a move is a copy, and nothing is wiped. A key that has no value
cannot be read. -/
def KeyCall.value (v : KeyValues n) : KeyCall n → Option (KeyValues n)
  | construct a | kill a => some (Function.update v a (some Key.zero))
  | copyConstruct a other | copyAssign a other =>
    (v other).map fun k => Function.update v a (some k)
  | moveConstruct a other =>
    (v other).map fun k => Function.update (Function.update v a (some k)) other none
  | moveAssign a other =>
    if a = other then some v
    else (v other).map fun k => Function.update (Function.update v a (some k)) other none
  | write a k => some (Function.update v a (some k))
  | destroy a => some (Function.update v a none)

/-- The calls of a program on values, with no result from the first that has none. -/
def runValues : List (KeyCall n) → KeyValues n → Option (KeyValues n)
  | [], v => some v
  | c :: calls, v => (c.value v).bind (runValues calls)

/-- Every value is in its object. -/
structure Represents (m : KeyMemory n) (v : KeyValues n) : Prop where
  holds : ∀ {a k}, v a = some k → (m a).alive = true ∧ (m a).implStorage = k

section Values

variable {m m' : KeyMemory n} {v v' : KeyValues n} {a b : Nat} {k : Key n}

theorem Represents.put (h : Represents m v) (a : Nat) (k : Key n) :
    Represents (m.set a ⟨true, k⟩) (Function.update v a (some k)) := by
  constructor
  intro b k' hb
  by_cases hne : b = a
  · rw [hne, Function.update_self, Option.some.injEq] at hb
    rw [hne, KeyMemory.set_self, hb]
    exact ⟨rfl, rfl⟩
  · rw [Function.update_of_ne hne] at hb
    rw [KeyMemory.set_ne m _ hne]
    exact h.holds hb

theorem Represents.forget (h : Represents m v) (a : Nat) (o : KeyObject n) :
    Represents (m.set a o) (Function.update v a none) := by
  constructor
  intro b k' hb
  by_cases hne : b = a
  · rw [hne, Function.update_self] at hb
    cases hb
  · rw [Function.update_of_ne hne] at hb
    rw [KeyMemory.set_ne m _ hne]
    exact h.holds hb

theorem readStorage_eq_ok :
    readStorage a m = .ok k m' ↔ (m a).alive = true ∧ (m a).implStorage = k ∧ m = m' := by
  unfold readStorage
  cases (m a).alive <;> simp

theorem writeStorage_eq_ok :
    writeStorage a k m = .ok () m' ↔ (m a).alive = true ∧ m.set a ⟨true, k⟩ = m' := by
  unfold writeStorage
  cases (m a).alive <;> simp

theorem beginLifetime_eq_ok :
    beginLifetime a k m = .ok () m' ↔ (m a).alive = false ∧ m.set a ⟨true, k⟩ = m' := by
  unfold beginLifetime
  cases (m a).alive <;> simp

/-- What is read has the value. -/
theorem Represents.read (h : Represents m v) (hv : v a = some k) {k' : Key n}
    (hread : readStorage a m = .ok k' m') : k' = k ∧ m' = m := by
  obtain ⟨-, rfl, rfl⟩ := readStorage_eq_ok.mp hread
  exact ⟨(h.holds hv).2, rfl⟩

/-- **Step.** A call that returns on memory and has a value on values leaves the values in
their objects. -/
theorem Represents.step (h : Represents m v) {c : KeyCall n} (hrun : c.run m = .ok () m')
    (hvalue : c.value v = some v') : Represents m' v' := by
  cases c with
  | construct a =>
    obtain ⟨-, rfl⟩ := beginLifetime_eq_ok.mp hrun
    cases hvalue
    exact h.put a _
  | copyConstruct a other =>
    obtain ⟨k, hk, rfl⟩ := Option.map_eq_some_iff.mp hvalue
    obtain ⟨k', m₁, hread, hbegin⟩ := bind_eq_ok.mp hrun
    obtain ⟨rfl, rfl⟩ := h.read hk hread
    obtain ⟨-, rfl⟩ := beginLifetime_eq_ok.mp hbegin
    exact h.put a _
  | moveConstruct a other =>
    obtain ⟨k, hk, rfl⟩ := Option.map_eq_some_iff.mp hvalue
    obtain ⟨k', m₁, hread, hrest⟩ := bind_eq_ok.mp hrun
    obtain ⟨rfl, rfl⟩ := h.read hk hread
    obtain ⟨⟨⟩, m₂, hbegin, hkill⟩ := bind_eq_ok.mp hrest
    obtain ⟨-, rfl⟩ := beginLifetime_eq_ok.mp hbegin
    obtain ⟨-, rfl⟩ := writeStorage_eq_ok.mp hkill
    exact (h.put a _).forget other _
  | copyAssign a other =>
    obtain ⟨k, hk, rfl⟩ := Option.map_eq_some_iff.mp hvalue
    by_cases hself : a = other
    · -- The value is already there.
      rw [KeyCall.run, Gcrypt.copyAssign, if_pos hself] at hrun
      obtain ⟨k', m₁, hread, hret⟩ := bind_eq_ok.mp hrun
      cases hret
      obtain ⟨-, -, rfl⟩ := readStorage_eq_ok.mp hread
      rwa [hself, ← hk, Function.update_eq_self]
    · rw [KeyCall.run, Gcrypt.copyAssign, if_neg hself] at hrun
      obtain ⟨⟨⟩, m₁, hkill, hrest⟩ := bind_eq_ok.mp hrun
      obtain ⟨-, rfl⟩ := writeStorage_eq_ok.mp hkill
      have hkilled := h.put a Key.zero
      have hk' : Function.update v a (some Key.zero) other = some k := by
        rwa [Function.update_of_ne (Ne.symm hself)]
      obtain ⟨k', m₂, hread, hwrite⟩ := bind_eq_ok.mp hrest
      obtain ⟨rfl, rfl⟩ := hkilled.read hk' hread
      obtain ⟨-, rfl⟩ := writeStorage_eq_ok.mp hwrite
      have hput := hkilled.put a k'
      rwa [Function.update_idem] at hput
  | moveAssign a other =>
    by_cases hself : a = other
    · rw [KeyCall.run, Gcrypt.moveAssign, if_pos hself] at hrun
      obtain ⟨k', m₁, hread, hret⟩ := bind_eq_ok.mp hrun
      cases hret
      obtain ⟨-, -, rfl⟩ := readStorage_eq_ok.mp hread
      rw [KeyCall.value, if_pos hself] at hvalue
      cases hvalue
      exact h
    · rw [KeyCall.value, if_neg hself] at hvalue
      obtain ⟨k, hk, rfl⟩ := Option.map_eq_some_iff.mp hvalue
      rw [KeyCall.run, Gcrypt.moveAssign, if_neg hself] at hrun
      obtain ⟨⟨⟩, m₁, hkill, hrest⟩ := bind_eq_ok.mp hrun
      obtain ⟨-, rfl⟩ := writeStorage_eq_ok.mp hkill
      have hkilled := h.put a Key.zero
      have hk' : Function.update v a (some Key.zero) other = some k := by
        rwa [Function.update_of_ne (Ne.symm hself)]
      obtain ⟨k', m₂, hread, hrest⟩ := bind_eq_ok.mp hrest
      obtain ⟨rfl, rfl⟩ := hkilled.read hk' hread
      obtain ⟨⟨⟩, m₃, hwrite, hwipe⟩ := bind_eq_ok.mp hrest
      obtain ⟨-, rfl⟩ := writeStorage_eq_ok.mp hwrite
      obtain ⟨-, rfl⟩ := writeStorage_eq_ok.mp hwipe
      have hput := hkilled.put a k'
      rw [Function.update_idem] at hput
      exact hput.forget other _
  | kill a =>
    obtain ⟨-, rfl⟩ := writeStorage_eq_ok.mp hrun
    cases hvalue
    exact h.put a _
  | write a k =>
    obtain ⟨-, rfl⟩ := writeStorage_eq_ok.mp hrun
    cases hvalue
    exact h.put a k
  | destroy a =>
    obtain ⟨⟨⟩, m₁, hkill, hend⟩ := bind_eq_ok.mp hrun
    obtain ⟨hlive, rfl⟩ := writeStorage_eq_ok.mp hkill
    simp only [endLifetime, KeyMemory.set_self, if_true, EStateM.Result.ok.injEq,
      true_and] at hend
    cases hvalue
    rw [← hend]
    have hforgotten := (h.forget a ⟨true, Key.zero⟩).forget a ⟨false, Key.zero⟩
    rwa [Function.update_idem] at hforgotten

/-- **Keys are values.** A program over keys that returns, and reads no key that was moved
from, leaves in its objects what the same program leaves on values. -/
theorem values_represented (h : Represents m v) {calls : List (KeyCall n)}
    (hrun : runKeys calls m = .ok () m') (hvalues : runValues calls v = some v') :
    Represents m' v' := by
  induction calls generalizing m v with
  | nil =>
    cases hrun
    cases hvalues
    exact h
  | cons c calls ih =>
    obtain ⟨⟨⟩, m₁, hc, hrun⟩ := bind_eq_ok.mp hrun
    obtain ⟨v₁, hv₁, hvalues⟩ := Option.bind_eq_some_iff.mp hvalues
    exact ih (h.step hc hv₁) hrun hvalues

theorem values_represented_movedTwice : ∃ m' v', runKeys movedTwice noKeys = .ok () m' ∧
    runValues movedTwice (fun _ => none) = some v' ∧ Represents m' v' := by
  have hnone : Represents noKeys fun _ => none := ⟨fun h => by cases h⟩
  obtain ⟨m', hrun⟩ : ∃ m', runKeys movedTwice noKeys = .ok () m' := ⟨_, rfl⟩
  obtain ⟨v', hvalues⟩ : ∃ v', runValues movedTwice (fun _ => none) = some v' := ⟨_, rfl⟩
  exact ⟨m', v', hrun, hvalues, values_represented hnone hrun hvalues⟩

end Values

end KeyObjects

/-! ### The registered manager -/

/-- The managers that were allocated and not deleted, by their addresses, the one that
`GCRYPT_ISTORE` owns, and the rest of the world. -/
structure Process where
  heap : Nat → Option StorageManager
  registered : Option Nat
  entropy : Nat → UInt8
  trace : List Event

namespace Process

/-- What the library sees. -/
def world (p : Process) : World := ⟨p.registered.bind p.heap, p.entropy, p.trace⟩

/-- The world that a call of the library leaves. -/
def setWorld (p : Process) (w : World) : Process where
  heap a := if p.registered = some a then w.manager else p.heap a
  registered := p.registered
  entropy := w.entropy
  trace := w.trace

/-- The manager at `a` is deleted. -/
def delete (p : Process) (a : Nat) : Process := { p with heap := Function.update p.heap a none }

/-- `GCRYPT_ISTORE` gets another pointer, or none. -/
def register (p : Process) (managerInstance : Option Nat) : Process :=
  { p with registered := managerInstance }

@[simp] theorem delete_self (p : Process) (a : Nat) : (p.delete a).heap a = none := by
  simp only [delete, Function.update_self]

theorem delete_ne (p : Process) {a b : Nat} (h : b ≠ a) : (p.delete a).heap b = p.heap b := by
  simp only [delete, Function.update_of_ne h]

@[simp] theorem heap_register (p : Process) (q : Option Nat) : (p.register q).heap = p.heap := rfl

/-- `GCRYPT_ISTORE` gives up its manager, which is deleted. A manager that is not there cannot
be deleted. -/
def release (p : Process) : Option Process :=
  match p.registered with
  | none => some p
  | some a => if (p.heap a).isSome then some (p.delete a) else none

/-- `Init`: a new shared pointer is assigned, even if the manager has one already. -/
def init (managerInstance : Option Nat) (p : Process) : Option Process :=
  p.release.map fun p => p.register managerInstance

end Process

/-- What a process does with the library: it registers a storage manager, which may be the null
pointer, or makes a call. -/
inductive ProcessCall
  | init (managerInstance : Option Nat)
  | library (c : LibraryCall)

/-- What a call leaves, with no result where it asks for a manager that is not there. A call may
throw before it gets to the manager, but then the process cannot end well either. -/
def ProcessCall.step (P : Primitives) (p : Process) : ProcessCall → Option Process
  | init managerInstance => p.init managerInstance
  | library c =>
    if c.usesStore && (p.registered.isSome && p.world.manager.isNone) then none
    else some (p.setWorld (finalState (c.run P p.world)))

/-- The calls of a process, and its end, when `GCRYPT_ISTORE` is destroyed. -/
def Process.run (P : Primitives) : List ProcessCall → Process → Option Process
  | [], p => p.release
  | c :: calls, p => (c.step P p).bind (Process.run P calls)

/-- The managers that are passed to `Init`. -/
def ProcessCall.passes : ProcessCall → Option Nat
  | init managerInstance => managerInstance
  | library _ => none

section Manager

variable {P : Primitives}

/-- A call of the library neither gains nor loses the manager. -/
def SameManager (w w' : World) : Prop := w'.manager.isSome = w.manager.isSome

theorem sameManager_publishFrame : PublishFrame SameManager where
  frame := ⟨fun _ => rfl, fun h h' => h'.trans h⟩
  skip _ _ := rfl
  log _ _ := rfl
  storeIdentityKeyPair keys w := by
    cases hm : w.manager with
    | none =>
      rw [storeIdentityKeyPair_of_none hm]
      rfl
    | some m =>
      rw [storeIdentityKeyPair_apply hm, finalState_ok, SameManager, hm]
      rfl
  storeOneTimePrekey id type keys w := by
    cases hm : w.manager with
    | none =>
      rw [storeOneTimePrekey_of_none hm]
      rfl
    | some m =>
      rw [storeOneTimePrekey_apply hm, finalState_ok, SameManager, hm]
      rfl

/-- The managers that a process is responsible for: the one it has, and those to come. -/
def Process.toDelete (p : Process) (calls : List ProcessCall) : List Nat :=
  p.registered.toList ++ calls.filterMap ProcessCall.passes

/-- They are there, each once. -/
structure Process.OwnsOnce (p : Process) (calls : List ProcessCall) : Prop where
  nodup : (p.toDelete calls).Nodup
  present : ∀ a ∈ p.toDelete calls, (p.heap a).isSome

/-- At the end. -/
theorem Process.ownsOnce_nil (p : Process) : p.release.isSome ↔ p.OwnsOnce [] := by
  have hlist : p.toDelete [] = p.registered.toList := List.append_nil _
  constructor
  · intro h
    refine ⟨?_, ?_⟩
    · rw [hlist]
      cases p.registered <;> simp
    · rw [hlist]
      intro a ha
      have ha' : p.registered = some a := Option.mem_toList.mp ha
      by_contra hgone
      simp only [Process.release, ha', hgone] at h
      cases h
  · intro h
    cases hr : p.registered with
    | none =>
      simp only [Process.release, hr]
      rfl
    | some a =>
      have hpresent : (p.heap a).isSome = true := h.present a (by simp [hlist, hr])
      simp only [Process.release, hr, hpresent, if_true]
      rfl

theorem Process.toDelete_init (p : Process) (q : Option Nat) (calls : List ProcessCall) :
    p.toDelete (.init q :: calls) = p.registered.toList ++ (p.register q).toDelete calls := by
  unfold Process.toDelete
  cases q with
  | none =>
    rw [List.filterMap_cons_none rfl]
    rfl
  | some a =>
    have hpasses : (ProcessCall.init (some a)).passes = some a := rfl
    rw [List.filterMap_cons_some hpasses]
    rfl

/-- `Init` deletes the manager there was, which must not be passed again. -/
theorem Process.ownsOnce_init {p : Process} {q : Option Nat} {calls : List ProcessCall} :
    p.OwnsOnce (.init q :: calls) ↔ ∃ p', p.init q = some p' ∧ p'.OwnsOnce calls := by
  have hlist := p.toDelete_init q calls
  cases hr : p.registered with
  | none =>
    have hinit : p.init q = some (p.register q) := by
      simp only [Process.init, Process.release, hr, Option.map_some]
    rw [hr, Option.toList_none, List.nil_append] at hlist
    constructor
    · rintro ⟨hnodup, hpresent⟩
      rw [hlist] at hnodup hpresent
      exact ⟨_, hinit, hnodup, hpresent⟩
    · rintro ⟨p', hp', hnodup, hpresent⟩
      cases hinit.symm.trans hp'
      exact ⟨by rwa [hlist], by rwa [hlist]⟩
  | some a =>
    have hinit : p.init q
        = (if (p.heap a).isSome then some (p.delete a) else none).map (·.register q) := by
      simp only [Process.init, Process.release, hr]
    have hrest : ((p.delete a).register q).toDelete calls = (p.register q).toDelete calls := rfl
    rw [hr, Option.toList_some, List.singleton_append] at hlist
    constructor
    · rintro ⟨hnodup, hpresent⟩
      rw [hlist, List.nodup_cons] at hnodup
      rw [hlist, List.forall_mem_cons] at hpresent
      rw [if_pos hpresent.1, Option.map_some] at hinit
      refine ⟨_, hinit, hnodup.2, ?_⟩
      intro b hb
      have hne : b ≠ a := fun heq => hnodup.1 (heq ▸ hb)
      rw [heap_register, delete_ne p hne]
      exact hpresent.2 b hb
    · rintro ⟨p', hp', hnodup, hpresent⟩
      by_cases hlive : (p.heap a).isSome
      · rw [if_pos hlive, Option.map_some] at hinit
        cases hinit.symm.trans hp'
        rw [hrest] at hnodup
        refine ⟨?_, ?_⟩
        · rw [hlist, List.nodup_cons]
          refine ⟨fun hmem => ?_, hnodup⟩
          have hdeleted := hpresent a hmem
          rw [heap_register, delete_self] at hdeleted
          cases hdeleted
        · rw [hlist, List.forall_mem_cons]
          refine ⟨hlive, fun b hb => ?_⟩
          have hb' := hpresent b hb
          by_cases hne : b = a
          · rw [hne]
            exact hlive
          · rwa [heap_register, delete_ne p hne] at hb'
      · rw [if_neg hlive, Option.map_none] at hinit
        rw [hinit] at hp'
        cases hp'

/-- A call of the library leaves every manager where it is. -/
theorem Process.heap_setWorld (p : Process) (c : LibraryCall) (a : Nat) :
    ((p.setWorld (finalState (c.run P p.world))).heap a).isSome = (p.heap a).isSome := by
  have hsame : (finalState (c.run P p.world)).manager.isSome = p.world.manager.isSome :=
    PublishFrame.run sameManager_publishFrame c p.world
  unfold Process.setWorld
  dsimp only
  by_cases ha : p.registered = some a
  · rw [if_pos ha, hsame, Process.world, ha]
    rfl
  · rw [if_neg ha]

theorem Process.ownsOnce_library {p : Process} {c : LibraryCall} {calls : List ProcessCall} :
    p.OwnsOnce (.library c :: calls) ↔
      ∃ p', ProcessCall.step P p (.library c) = some p' ∧ p'.OwnsOnce calls := by
  have hlist (p : Process) : p.toDelete (.library c :: calls) = p.toDelete calls := by
    unfold Process.toDelete
    rw [List.filterMap_cons_none rfl]
  have hset (w : World) : (p.setWorld w).toDelete calls = p.toDelete calls := rfl
  by_cases hgone : (c.usesStore && (p.registered.isSome && p.world.manager.isNone)) = true
  · have hstep : ProcessCall.step P p (.library c) = none := by
      simp only [ProcessCall.step, hgone, if_true]
    rw [hstep]
    constructor
    · intro h
      obtain ⟨-, hdangling⟩ := Bool.and_eq_true_iff.mp hgone
      obtain ⟨hsome, hnone⟩ := Bool.and_eq_true_iff.mp hdangling
      obtain ⟨a, ha⟩ := Option.isSome_iff_exists.mp hsome
      have hpresent := h.present a (by simp [toDelete, ha])
      have hworld : p.world.manager = p.heap a := by
        rw [Process.world, ha]
        rfl
      rw [hworld, Option.isNone_iff_eq_none] at hnone
      rw [hnone] at hpresent
      cases hpresent
    · rintro ⟨p', hp', -⟩
      cases hp'
  · have hstep : ProcessCall.step P p (.library c)
        = some (p.setWorld (finalState (c.run P p.world))) := by
      simp only [ProcessCall.step, hgone, Bool.false_eq_true, if_false]
    rw [hstep]
    constructor
    · rintro ⟨hnodup, hpresent⟩
      rw [hlist] at hnodup hpresent
      refine ⟨_, rfl, by rwa [hset], ?_⟩
      intro a ha
      rw [Process.heap_setWorld]
      exact hpresent a ha
    · rintro ⟨p', hp', hnodup, hpresent⟩
      cases hp'
      refine ⟨by rwa [hlist], ?_⟩
      intro a ha
      rw [hlist] at ha
      have h := hpresent a ha
      rwa [Process.heap_setWorld] at h

/-- **Ownership.** A process comes to its end without a use of a manager that is gone if and
only if the manager registered at the start and every manager passed to `Init` are there, all
of them different, whatever calls of the library are made in between. -/
theorem ends_safely_iff (P : Primitives) (calls : List ProcessCall) (p : Process) :
    (Process.run P calls p).isSome ↔ p.OwnsOnce calls := by
  induction calls generalizing p with
  | nil => exact p.ownsOnce_nil
  | cons c calls ih =>
    have hrun : (Process.run P (c :: calls) p).isSome ↔
        ∃ p', c.step P p = some p' ∧ p'.OwnsOnce calls := by
      rw [Process.run]
      cases hstep : c.step P p with
      | none => simp
      | some p' => simp [ih]
    rw [hrun]
    cases c with
    | init q => exact Process.ownsOnce_init.symm
    | library c => exact Process.ownsOnce_library.symm

end Manager

end Gcrypt
