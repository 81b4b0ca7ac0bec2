import Mathlib.Logic.Relation
import Ipms.Lib.Throwing

/-
  Ipms.Lib.Transaction

  Transactions over a state.  A transaction returns a value and the state it
  commits, or fails and commits nothing.  The rules speak of partial
  correctness: what holds of the value and the state if the transaction commits.
-/

namespace Ipms.Lib

/-- A transaction over the state `σ` that returns an `α` or fails with an `ε`. -/
abbrev Txn (σ ε α : Type) := StateT σ (Except ε) α

namespace Txn

variable {σ ε α β : Type}

/-- Run a transaction: the value and the state it commits, or its failure. -/
def exec (t : Txn σ ε α) (s : σ) : Except ε (α × σ) := t s

/-- Lift a fallible value into a transaction that leaves the state alone. -/
def ofExcept (x : Except ε α) : Txn σ ε α := fun s => x.map (·, s)

/-- What the value and the state meet if the transaction commits from `s`. -/
def Yields (t : Txn σ ε α) (Q : α → σ → Prop) (s : σ) : Prop :=
  ∀ a s', t.exec s = .ok (a, s') → Q a s'

/-! ## Running the constructors -/

@[simp] theorem exec_pure (a : α) (s : σ) : exec (pure a : Txn σ ε α) s = .ok (a, s) := rfl

@[simp] theorem exec_throw (e : ε) (s : σ) : exec (throw e : Txn σ ε α) s = .error e := rfl

@[simp] theorem exec_get (s : σ) : exec (get : Txn σ ε σ) s = .ok (s, s) := rfl

@[simp] theorem exec_set (s s' : σ) : exec (set s' : Txn σ ε PUnit) s = .ok (⟨⟩, s') := rfl

@[simp] theorem exec_modify (f : σ → σ) (s : σ) :
    exec (modify f : Txn σ ε PUnit) s = .ok (⟨⟩, f s) := rfl

@[simp] theorem exec_ofExcept (x : Except ε α) (s : σ) :
    exec (ofExcept x : Txn σ ε α) s = x.map (·, s) := rfl

/-- A bind runs the second transaction where the first one ended. -/
theorem exec_bind (t : Txn σ ε α) (f : α → Txn σ ε β) (s : σ) :
    exec (t >>= f) s = match t.exec s with
      | .ok (a, s') => (f a).exec s'
      | .error e => .error e := by
  simp only [exec, bind, StateT.bind, Except.bind]
  rcases t s with e | ⟨a, s'⟩
  · rfl
  · rfl

variable {f : α → Txn σ ε β} {t : Txn σ ε α}

/-- A bind commits exactly when both parts do. -/
theorem exec_bind_ok {s s'' : σ} {b : β} : exec (t >>= f) s = .ok (b, s'') ↔
      ∃ a s', t.exec s = .ok (a, s') ∧ (f a).exec s' = .ok (b, s'') := by
  rw [exec_bind]
  rcases t.exec s with e | ⟨a, s'⟩
  · simp
  · simp only [Except.ok.injEq, Prod.mk.injEq]
    constructor
    · intro h
      exact ⟨a, s', ⟨rfl, rfl⟩, h⟩
    · rintro ⟨_, _, ⟨rfl, rfl⟩, h⟩
      exact h

theorem exec_ofExcept_ok {x : Except ε α} {s s' : σ} {a : α} :
    exec (ofExcept x : Txn σ ε α) s = .ok (a, s') ↔ x = .ok a ∧ s' = s := by
  rw [exec_ofExcept]
  cases x with
  | error e => simp [Except.map]
  | ok b => simp [Except.map, eq_comm]

/-! ## Partial correctness -/

variable {Q Q' : α → σ → Prop} {s : σ}

@[simp] theorem yields_pure (a : α) : Yields (pure a : Txn σ ε α) Q s ↔ Q a s := by
  simp [Yields]

@[simp] theorem yields_throw (e : ε) : Yields (throw e : Txn σ ε α) Q s ↔ True := by
  simp [Yields]

@[simp] theorem yields_get {Q : σ → σ → Prop} : Yields (get : Txn σ ε σ) Q s ↔ Q s s := by
  simp [Yields]

@[simp] theorem yields_set {Q : PUnit → σ → Prop} (s' : σ) :
    Yields (set s' : Txn σ ε PUnit) Q s ↔ Q ⟨⟩ s' := by
  simp only [Yields, exec_set, Except.ok.injEq, Prod.mk.injEq]
  exact ⟨fun h => h ⟨⟩ s' ⟨trivial, rfl⟩, fun h _ _ hs => hs.2 ▸ h⟩

@[simp] theorem yields_modify {Q : PUnit → σ → Prop} (f : σ → σ) :
    Yields (modify f : Txn σ ε PUnit) Q s ↔ Q ⟨⟩ (f s) := by
  simp only [Yields, exec_modify, Except.ok.injEq, Prod.mk.injEq]
  exact ⟨fun h => h ⟨⟩ (f s) ⟨trivial, rfl⟩, fun h _ _ hs => hs.2 ▸ h⟩

theorem yields_ofExcept (x : Except ε α) :
    Yields (ofExcept x : Txn σ ε α) Q s ↔ ∀ a, x = .ok a → Q a s := by
  simp only [Yields, exec_ofExcept_ok]
  constructor
  · intro h a ha
    exact h a s ⟨ha, rfl⟩
  · rintro h a _ ⟨ha, rfl⟩
    exact h a ha

@[simp] theorem yields_bind (t : Txn σ ε α) (f : α → Txn σ ε β) {Q : β → σ → Prop} :
    Yields (t >>= f) Q s ↔ Yields t (fun a => Yields (f a) Q) s := by
  simp only [Yields, exec_bind_ok]
  constructor
  · intro h a s' ha b s'' hb
    exact h b s'' ⟨a, s', ha, hb⟩
  · rintro h b s'' ⟨a, s', ha, hb⟩
    exact h a s' ha b s'' hb

variable {c : Prop}

theorem yields_ite [Decidable c] (t u : Txn σ ε α) :
    Yields (if c then t else u) Q s ↔ (c → Yields t Q s) ∧ (¬c → Yields u Q s) := by
  by_cases hc : c <;> simp [hc]

/-- A condition that throws commits only when it does not hold. -/
@[simp] theorem yields_throwIf [Decidable c] (e : ε) {Q : Unit → σ → Prop} :
    Yields (throwIf c e : Txn σ ε Unit) Q s ↔ (¬c → Q () s) := by
  unfold throwIf
  rw [yields_ite, yields_throw, yields_pure]
  exact ⟨fun h => h.2, fun h => ⟨fun _ => trivial, h⟩⟩

/-- Consequence: weaken the postcondition. -/
theorem Yields.mono (h : Yields t Q s) (hq : ∀ a s', Q a s' → Q' a s') : Yields t Q' s :=
  fun a s' ha => hq a s' (h a s' ha)

/-! ## Chains of small moves -/

open Relation (ReflTransGen)

/-- Every commit of `t` from `s` takes a chain of moves of `R`. -/
def Chains (R : σ → σ → Prop) (t : Txn σ ε α) (s : σ) : Prop :=
  Yields t (fun _ s' => ReflTransGen R s s') s

namespace Chains

variable {R : σ → σ → Prop} {s : σ}

theorem pure (a : α) : Chains R (Pure.pure a : Txn σ ε α) s := by
  unfold Chains
  rw [yields_pure]

theorem throw (e : ε) : Chains R (MonadExcept.throw e : Txn σ ε α) s := by
  unfold Chains
  rw [yields_throw]
  trivial

theorem throwIf {c : Prop} [Decidable c] (e : ε) : Chains R (Lib.throwIf c e : Txn σ ε Unit) s := by
  unfold Chains
  rw [yields_throwIf]
  exact fun _ => .refl

/-- One move. -/
theorem modify {f : σ → σ} (h : R s (f s)) : Chains R (MonadState.modifyGet (fun s => (⟨⟩, f s)) :
    Txn σ ε PUnit) s := by
  intro a s' h'
  cases h'
  exact .single h

/-- A second transaction goes on where the first one ended. -/
theorem bind {P : α → σ → Prop} {t : Txn σ ε α} {f : α → Txn σ ε β}
    (ht : Yields t (fun a m => ReflTransGen R s m ∧ P a m) s)
    (hf : ∀ a m, ReflTransGen R s m → P a m → Chains R (f a) m) : Chains R (t >>= f) s := by
  unfold Chains
  rw [yields_bind]
  refine ht.mono fun a m hm => ?_
  exact (hf a m hm.1 hm.2).mono fun _ _ h => hm.1.trans h

/-- A second transaction that needs nothing of the first one. -/
theorem andThen (ht : Chains R t s) (hf : ∀ a m, ReflTransGen R s m → Chains R (f a) m) :
    Chains R (t >>= f) s :=
  bind (P := fun _ _ => True) (ht.mono fun _ _ h => ⟨h, trivial⟩) fun a m hm _ => hf a m hm

theorem getBind {f : σ → Txn σ ε β} (hf : Chains R (f s) s) :
    Chains R (MonadState.get >>= f) s := by
  unfold Chains
  rw [yields_bind, yields_get]
  exact hf

theorem throwIfBind [Decidable c] {e : ε} {f : Unit → Txn σ ε β} (hf : ¬c → Chains R (f ()) s) :
    Chains R (Lib.throwIf c e >>= f) s := by
  unfold Chains
  rw [yields_bind, yields_throwIf]
  exact hf

theorem ofExceptBind {x : Except ε α} (hf : ∀ a, x = .ok a → Chains R (f a) s) :
    Chains R (Txn.ofExcept x >>= f) s := by
  unfold Chains
  rw [yields_bind, yields_ofExcept]
  exact hf

end Chains

end Txn

end Ipms.Lib
