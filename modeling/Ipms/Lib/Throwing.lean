import Mathlib

/-
  Ipms.Lib.Throwing

  Programs that read and write a state and may throw.  A throw keeps the
  state reached so far, so a handler sees every effect made before it.
  The rules are stated as weakest preconditions with one postcondition for a
  normal return and one for a throw.
-/

namespace Ipms.Lib

/-- Throw when a condition holds, otherwise go on. -/
def throwIf {ε : Type} {m : Type → Type} [Monad m] [MonadExcept ε m]
    (c : Prop) [Decidable c] (e : ε) : m Unit :=
  if c then throw e else pure ()

/-- A program over the state `σ` that returns an `α` or throws an `ε`. -/
abbrev Prog (σ ε α : Type) := ExceptT ε (StateM σ) α

namespace Prog

variable {σ ε α β : Type}

/-- Run a program: what it returned or threw, and the state it left. -/
def exec (p : Prog σ ε α) (s : σ) : Except ε α × σ := p s

/-- The state a run leaves, whether it returned or threw. -/
def after (p : Prog σ ε α) (s : σ) : σ := (p.exec s).2

/-- An outcome meets `Q` if it is a return and `E` if it is a throw. -/
def Meets (Q : α → σ → Prop) (E : ε → σ → Prop) : Except ε α × σ → Prop
  | (.ok a, s) => Q a s
  | (.error e, s) => E e s

/-- Weakest precondition: from `s` the program returns into `Q` or throws into `E`. -/
def wp (p : Prog σ ε α) (Q : α → σ → Prop) (E : ε → σ → Prop) (s : σ) : Prop :=
  Meets Q E (p.exec s)

/-- Run a step that touches the state and returns or throws. -/
def ofFun (f : σ → Except ε α × σ) : Prog σ ε α := f

/-- Lift a pure fallible value into a program that leaves the state alone. -/
def ofExcept (x : Except ε α) : Prog σ ε α := fun s => (x, s)

/-! ## Running the constructors -/

@[simp] theorem exec_pure (a : α) (s : σ) : exec (pure a : Prog σ ε α) s = (.ok a, s) := rfl

@[simp] theorem exec_throw (e : ε) (s : σ) :
    exec (throw e : Prog σ ε α) s = (.error e, s) := rfl

@[simp] theorem exec_get (s : σ) : exec (get : Prog σ ε σ) s = (.ok s, s) := rfl

@[simp] theorem exec_modify (f : σ → σ) (s : σ) :
    exec (modify f : Prog σ ε PUnit) s = (.ok ⟨⟩, f s) := rfl

@[simp] theorem exec_ofFun (f : σ → Except ε α × σ) (s : σ) : exec (ofFun f) s = f s := rfl

@[simp] theorem exec_ofExcept (x : Except ε α) (s : σ) :
    exec (ofExcept x : Prog σ ε α) s = (x, s) := rfl

/-- A bind runs the second program from where the first returned. -/
theorem exec_bind (p : Prog σ ε α) (f : α → Prog σ ε β) (s : σ) :
    exec (p >>= f) s = match p.exec s with
      | (.ok a, s') => (f a).exec s'
      | (.error e, s') => (.error e, s') := by
  simp only [exec, bind, ExceptT.bind, ExceptT.mk, StateT.bind]
  rcases p s with ⟨r, s'⟩
  cases r with
  | ok a => rfl
  | error e => rfl

/-- A handler runs from the state at the throw. -/
theorem exec_tryCatch (p : Prog σ ε α) (h : ε → Prog σ ε α) (s : σ) :
    exec (tryCatch p h) s = match p.exec s with
      | (.ok a, s') => (.ok a, s')
      | (.error e, s') => (h e).exec s' := by
  simp only [exec, tryCatch, tryCatchThe, MonadExceptOf.tryCatch, ExceptT.tryCatch, ExceptT.mk,
    bind, StateT.bind]
  rcases p s with ⟨r, s'⟩
  cases r with
  | ok a => rfl
  | error e => rfl

/-! ## Weakest preconditions -/

variable {Q Q' : α → σ → Prop} {E E' : ε → σ → Prop} {s : σ}

@[simp] theorem wp_pure (a : α) : wp (pure a : Prog σ ε α) Q E s ↔ Q a s := Iff.rfl

@[simp] theorem wp_throw (e : ε) : wp (throw e : Prog σ ε α) Q E s ↔ E e s := Iff.rfl

@[simp] theorem wp_get {Q : σ → σ → Prop} : wp (get : Prog σ ε σ) Q E s ↔ Q s s := Iff.rfl

@[simp] theorem wp_modify {Q : PUnit → σ → Prop} (f : σ → σ) :
    wp (modify f : Prog σ ε PUnit) Q E s ↔ Q ⟨⟩ (f s) := Iff.rfl

theorem wp_ofFun (f : σ → Except ε α × σ) : wp (ofFun f) Q E s ↔ Meets Q E (f s) := Iff.rfl

@[simp] theorem wp_ofExcept_ok (a : α) :
    wp (ofExcept (.ok a) : Prog σ ε α) Q E s ↔ Q a s := Iff.rfl

@[simp] theorem wp_ofExcept_error (e : ε) :
    wp (ofExcept (.error e) : Prog σ ε α) Q E s ↔ E e s := Iff.rfl

/-- A lifted value is checked against whichever postcondition it is in. -/
theorem wp_ofExcept (x : Except ε α) :
    wp (ofExcept x : Prog σ ε α) Q E s ↔ (∀ a, x = .ok a → Q a s) ∧ (∀ e, x = .error e → E e s) := by
  cases x with
  | ok a => simp
  | error e => simp

@[simp] theorem wp_bind (p : Prog σ ε α) (f : α → Prog σ ε β) {Q : β → σ → Prop} :
    wp (p >>= f) Q E s ↔ wp p (fun a => wp (f a) Q E) E s := by
  simp only [wp, exec_bind]
  rcases p.exec s with ⟨r, s'⟩
  cases r with
  | ok a => rfl
  | error e => rfl

@[simp] theorem wp_tryCatch (p : Prog σ ε α) (h : ε → Prog σ ε α) :
    wp (tryCatch p h) Q E s ↔ wp p Q (fun e => wp (h e) Q E) s := by
  simp only [wp, exec_tryCatch]
  rcases p.exec s with ⟨r, s'⟩
  cases r with
  | ok a => rfl
  | error e => rfl

variable {c : Prop}

theorem wp_ite [Decidable c] (p q : Prog σ ε α) :
    wp (if c then p else q) Q E s ↔ (c → wp p Q E s) ∧ (¬c → wp q Q E s) := by
  by_cases hc : c <;> simp [hc]

@[simp] theorem wp_throwIf [Decidable c] {Q : Unit → σ → Prop} (e : ε) :
    wp (throwIf c e : Prog σ ε Unit) Q E s ↔ (c → E e s) ∧ (¬c → Q () s) := by
  simp only [throwIf, wp_ite, wp_throw, wp_pure]

variable {p : Prog σ ε α}

/-- Consequence: weaken both postconditions. -/
theorem wp_mono (h : wp p Q E s) (hq : ∀ a s', Q a s' → Q' a s') (he : ∀ e s', E e s' → E' e s') :
    wp p Q' E' s := by
  unfold wp at h ⊢
  revert h
  rcases p.exec s with ⟨r, s'⟩
  intro h
  cases r with
  | ok a => exact hq a s' h
  | error e => exact he e s' h

/-- Two facts about one program hold together. -/
theorem wp_and (h : wp p Q E s) (h' : wp p Q' E' s) :
    wp p (fun a s' => Q a s' ∧ Q' a s') (fun e s' => E e s' ∧ E' e s') s := by
  unfold wp at h h' ⊢
  revert h h'
  rcases p.exec s with ⟨r, s'⟩
  intro h h'
  cases r with
  | ok a | error e => exact ⟨h, h'⟩

variable {s' : σ} {a : α}

/-- A program that returns meets exactly its normal postcondition. -/
theorem wp_of_exec_ok (h : p.exec s = (.ok a, s')) : wp p Q E s ↔ Q a s' := by
  unfold wp
  rw [h]
  rfl

/-- A program that throws meets exactly its exceptional postcondition. -/
theorem wp_of_exec_error {e : ε} (h : p.exec s = (.error e, s')) : wp p Q E s ↔ E e s' := by
  unfold wp
  rw [h]
  rfl

/-- A program meets what all its outcomes meet. -/
theorem wp_of_exec (hq : ∀ a t, p.exec s = (.ok a, t) → Q a t)
    (he : ∀ e t, p.exec s = (.error e, t) → E e t) : wp p Q E s := by
  unfold wp
  rcases hp : p.exec s with ⟨r, t⟩
  cases r with
  | ok a => exact hq a t hp
  | error e => exact he e t hp

/-- One postcondition for returns and throws speaks of the state left behind. -/
theorem wp_iff_after {p : Prog σ ε α} {I : σ → Prop} :
    wp p (fun _ => I) (fun _ => I) s ↔ I (p.after s) := by
  unfold wp after
  rcases p.exec s with ⟨r, s'⟩
  cases r with
  | ok a => rfl
  | error e => rfl

/-! ## Invariants -/

/-- A program keeps `I`: from a state in `I` it returns or throws in a state in `I`. -/
def Keeps (I : σ → Prop) (p : Prog σ ε α) : Prop :=
  ∀ s, I s → p.wp (fun _ => I) (fun _ => I) s

section
variable {I : σ → Prop}

theorem keeps_pure (a : α) : Keeps I (pure a : Prog σ ε α) := fun _ h => h

theorem keeps_throw (e : ε) : Keeps I (throw e : Prog σ ε α) := fun _ h => h

theorem keeps_get : Keeps I (get : Prog σ ε σ) := fun _ h => h

theorem keeps_ofExcept (x : Except ε α) : Keeps I (ofExcept x : Prog σ ε α) := by
  intro s h
  cases x <;> exact h

theorem keeps_modify {f : σ → σ} (hf : ∀ s, I s → I (f s)) :
    Keeps I (modify f : Prog σ ε PUnit) := hf

theorem keeps_throwIf [Decidable c] (e : ε) : Keeps I (throwIf c e : Prog σ ε Unit) := by
  intro s h
  simp only [wp_throwIf]
  exact ⟨fun _ => h, fun _ => h⟩

theorem Keeps.bind {p : Prog σ ε α} {f : α → Prog σ ε β} (hp : Keeps I p)
    (hf : ∀ a, Keeps I (f a)) : Keeps I (p >>= f) := by
  intro s h
  rw [wp_bind]
  exact wp_mono (hp s h) (fun a s' h' => hf a s' h') (fun _ _ h' => h')

theorem Keeps.ite [Decidable c] {q : Prog σ ε α} (hp : Keeps I p) (hq : Keeps I q) :
    Keeps I (if c then p else q) := by
  by_cases hc : c
  · rwa [if_pos hc]
  · rwa [if_neg hc]

theorem Keeps.tryCatch {p : Prog σ ε α} {h : ε → Prog σ ε α} (hp : Keeps I p)
    (hh : ∀ e, Keeps I (h e)) : Keeps I (tryCatch p h) := by
  intro s hs
  rw [wp_tryCatch]
  exact wp_mono (hp s hs) (fun _ _ h' => h') (fun e s' h' => hh e s' h')

end

/-! ## Partial correctness -/

/-- If the program returns from `s`, it returns into `Q`. -/
def Returns (Q : α → σ → Prop) (p : Prog σ ε α) (s : σ) : Prop := p.wp Q (fun _ _ => True) s

theorem Returns.pure {a : α} (h : Q a s) : Returns Q (pure a : Prog σ ε α) s := h

theorem returns_throw (e : ε) : Returns Q (throw e : Prog σ ε α) s := trivial

/-- To return, a bind has to return from wherever its first program returned. -/
theorem Returns.bind {p : Prog σ ε α} {f : α → Prog σ ε β} {Q : β → σ → Prop}
    (h : ∀ a t, p.exec s = (.ok a, t) → Returns Q (f a) t) : Returns Q (p >>= f) s := by
  unfold Returns
  rw [wp_bind]
  unfold wp
  rcases hp : p.exec s with ⟨r, t⟩
  cases r with
  | ok a => exact h a t hp
  | error e => trivial

/-- A handler returns from the state at the throw. -/
theorem Returns.tryCatch {p : Prog σ ε α} {f : ε → Prog σ ε α} (hp : Returns Q p s)
    (hf : ∀ e t, p.exec s = (.error e, t) → Returns Q (f e) t) : Returns Q (tryCatch p f) s := by
  unfold Returns at hp ⊢
  rw [wp_tryCatch]
  unfold wp at hp ⊢
  rcases he : p.exec s with ⟨r, t⟩
  rw [he] at hp
  cases r with
  | ok a => exact hp
  | error e => exact hf e t he

/-- What a program that keeps `I` leaves, whether it returned or threw. -/
theorem Keeps.after {I : σ → Prop} (h : Keeps I p) (hs : I s) {r : Except ε α}
    (hp : p.exec s = (r, s')) : I s' := by
  have hk := h s hs
  unfold wp at hk
  rw [hp] at hk
  cases r with
  | ok a | error e => exact hk

/-- A bind returns exactly when its first program returns and its second does from there. -/
theorem exec_bind_eq_ok {f : α → Prog σ ε β} {b : β} :
    exec (p >>= f) s = (.ok b, s') ↔ ∃ a t, p.exec s = (.ok a, t) ∧ (f a).exec t = (.ok b, s') := by
  rw [exec_bind]
  rcases hp : p.exec s with ⟨r, t⟩
  cases r with
  | ok a =>
    constructor
    · exact fun h => ⟨a, t, rfl, h⟩
    · rintro ⟨_, _, heq, h⟩
      cases heq
      exact h
  | error e => simp

/-- A condition that throws returns exactly when it does not hold. -/
theorem exec_throwIf_eq_ok [Decidable c] {e : ε} {u : Unit} :
    exec (throwIf c e : Prog σ ε Unit) s = (.ok u, s') ↔ ¬c ∧ s = s' := by
  unfold throwIf
  by_cases hc : c
  · simp [hc]
  · simp [hc]

theorem exec_ofExcept_eq_ok {x : Except ε α} :
    exec (ofExcept x : Prog σ ε α) s = (.ok a, s') ↔ x = .ok a ∧ s = s' := by
  simp [exec_ofExcept, Prod.ext_iff]

end Prog

end Ipms.Lib
