/-!
# Gcrypt.Library.Agreement

Key agreement from several Diffie-Hellman secrets, for any Diffie-Hellman function
`dh : Priv → Pub → Option Sec` that may fail.

A party computes a list of secrets from a list of **queries**, pairs of a private
and a public key. Two parties that work off one **agenda** of key pair couples,
each with its own private halves and the other's public halves, end with the same
list (`initiator_eq_responder`), provided `dh` agrees on every couple.

Nothing here knows about any particular program.
-/

namespace Agreement

variable {Priv Pub Sec : Type}

/-- A key pair. -/
structure Pair (Priv Pub : Type) where
  priv : Priv
  pub : Pub

section Secrets

variable (dh : Priv → Pub → Option Sec)

/-- The secrets of a list of queries, in order; none if one of them fails. -/
def secrets : List (Priv × Pub) → Option (List Sec)
  | [] => some []
  | q :: qs => (dh q.1 q.2).bind fun k => (secrets qs).map (k :: ·)

@[simp] theorem secrets_nil : secrets dh [] = some [] := rfl

theorem secrets_cons_eq_some {q : Priv × Pub} {qs : List (Priv × Pub)} {ks : List Sec} :
    secrets dh (q :: qs) = some ks ↔
      ∃ k ks', dh q.1 q.2 = some k ∧ secrets dh qs = some ks' ∧ ks = k :: ks' := by
  simp only [secrets, Option.bind_eq_some_iff, Option.map_eq_some_iff]
  constructor
  · rintro ⟨k, hk, ks', hks, rfl⟩
    exact ⟨k, ks', hk, hks, rfl⟩
  · rintro ⟨k, ks', hk, hks, rfl⟩
    exact ⟨k, hk, ks', hks, rfl⟩

/-- A list of queries fails exactly when one of them does. -/
theorem secrets_eq_none {qs : List (Priv × Pub)} :
    secrets dh qs = none ↔ ∃ q ∈ qs, dh q.1 q.2 = none := by
  induction qs with
  | nil => simp
  | cons q qs ih =>
    cases hk : dh q.1 q.2 with
    | none => simp [secrets, hk]
    | some k => simp [secrets, hk, ih]

end Secrets

variable {dh : Priv → Pub → Option Sec}

/-- `dh` agrees on a couple of pairs, where both sides deliver a secret. -/
def Agree (dh : Priv → Pub → Option Sec) (a b : Pair Priv Pub) : Prop :=
  ∀ k k', dh a.priv b.pub = some k → dh b.priv a.pub = some k' → k = k'

/-- The queries of the party that holds the first pair of each couple. -/
def initiator (agenda : List (Pair Priv Pub × Pair Priv Pub)) : List (Priv × Pub) :=
  agenda.map fun c => (c.1.priv, c.2.pub)

/-- The queries of the party that holds the second pair of each couple. -/
def responder (agenda : List (Pair Priv Pub × Pair Priv Pub)) : List (Priv × Pub) :=
  agenda.map fun c => (c.2.priv, c.1.pub)

/-- **Agreement.** Both parties of an agenda end with the same secrets. -/
theorem initiator_eq_responder {agenda : List (Pair Priv Pub × Pair Priv Pub)}
    (h : ∀ c ∈ agenda, Agree dh c.1 c.2) {ks ks' : List Sec}
    (hi : secrets dh (initiator agenda) = some ks)
    (hr : secrets dh (responder agenda) = some ks') : ks = ks' := by
  induction agenda generalizing ks ks' with
  | nil =>
    simp only [initiator, responder, List.map_nil, secrets_nil, Option.some.injEq] at hi hr
    exact hi.symm.trans hr
  | cons c agenda ih =>
    obtain ⟨k, rest, hk, hrest, rfl⟩ := (secrets_cons_eq_some dh).mp hi
    obtain ⟨k', rest', hk', hrest', rfl⟩ := (secrets_cons_eq_some dh).mp hr
    have hhead : k = k' := h c List.mem_cons_self k k' hk hk'
    have htail : rest = rest' :=
      ih (fun c' hc' => h c' (List.mem_cons_of_mem _ hc')) hrest hrest'
    rw [hhead, htail]

end Agreement
