import Ipms.Lib.Throwing
import Ipms.Agent.Hgs.Journal

/-
  Ipms.Agent.Hgs.Host

  What a run of the agent's HGS code calls: the provider, the journal store,
  the claim, the authority check and the clock.  Every call may change the
  world behind it, return anything of its type, or throw anything.
-/

namespace Ipms.Agent.Hgs

open Ipms.Lib Ipms.ManagementJson Prog

/-- A call into the world `W`. -/
abbrev Call (W α : Type) := W → Except Exn α × W

structure Provider (W : Type) where
  inspect : Job → Call W Object
  apply : Job → Call W Unit

/-- The provider with the callbacks of one execution and the clock. -/
structure Host (W : Type) extends Provider W where
  save : Journal → Call W Unit
  claim : Call W Bool
  authority : Call W Bool
  now : W → Int

/-- The state of an execution: the journal in memory, the world, whether the provider's
write was invoked, the journals passed to `save`, and those of them whose save returned
since the write. -/
structure Run (W : Type) where
  journal : Journal
  world : W
  applied : Bool := false
  saved : List Journal := []
  recorded : List Journal := []

/-- The state in which an execution of a journal starts. -/
def Run.start {W : Type} (journal : Journal) (world : W) : Run W := { journal, world }

/-- Code of the agent over a world. -/
abbrev Exec (W α : Type) := Prog (Run W) Exn α

namespace Exec

variable {W α : Type}

/-- Call into the world. -/
def call (f : Call W α) : Exec W α :=
  Prog.ofFun fun r => ((f r.world).1, { r with world := (f r.world).2 })

/-- Change the journal in memory. -/
def update (f : Journal → Journal) : Exec W Unit :=
  modify fun r => { r with journal := f r.journal }

/-- The journal in memory. -/
def journal : Exec W Journal := do pure (← get).journal

/-- The time. -/
def now (h : Host W) : Exec W Int := do pure (h.now (← get).world)

/-- Pass the journal to `save`. -/
def save (h : Host W) : Exec W Unit := do
  modify fun r => { r with saved := r.saved ++ [r.journal] }
  call (h.save (← get).journal)
  modify fun r => { r with recorded := r.recorded ++ [r.journal] }

/-- Invoke the provider's write. -/
def apply (h : Host W) (assignment : Job) : Exec W Unit := do
  modify fun r => { r with applied := true, recorded := [] }
  call (h.apply assignment)

/-! ## Preconditions of the calls -/

variable {Q : α → Run W → Prop} {E : Exn → Run W → Prop} {s : Run W}

theorem wp_call (f : Call W α) :
    wp (call f) Q E s ↔
      Meets Q E ((f s.world).1, { s with world := (f s.world).2 }) := Iff.rfl

theorem wp_call_of (f : Call W α) (hq : ∀ a w, Q a { s with world := w })
    (he : ∀ e w, E e { s with world := w }) : wp (call f) Q E s := by
  rw [wp_call]
  rcases f s.world with ⟨r, w⟩
  cases r with
  | ok a => exact hq a w
  | error e => exact he e w

theorem wp_call_answer (f : Call W α)
    (hq : ∀ a w, f s.world = (.ok a, w) → Q a { s with world := w })
    (he : ∀ e w, f s.world = (.error e, w) → E e { s with world := w }) :
    wp (call f) Q E s := by
  rw [wp_call]
  rcases hf : f s.world with ⟨r, w⟩
  cases r with
  | ok a => exact hq a w hf
  | error e => exact he e w hf

@[simp] theorem wp_update {Q : PUnit → Run W → Prop} (f : Journal → Journal) :
    wp (update f : Exec W Unit) Q E s ↔ Q ⟨⟩ { s with journal := f s.journal } := Iff.rfl

@[simp] theorem wp_journal {Q : Journal → Run W → Prop} :
    wp (journal : Exec W Journal) Q E s ↔ Q s.journal s := Iff.rfl

@[simp] theorem wp_now {Q : Int → Run W → Prop} (h : Host W) :
    wp (now h) Q E s ↔ Q (h.now s.world) s := Iff.rfl

/-! ## Running the calls -/

theorem exec_call_ok {f : Call W α} {a : α} {w : W} (hf : f s.world = (.ok a, w)) :
    exec (call f) s = (.ok a, { s with world := w }) := by
  show ((f s.world).1, { s with world := (f s.world).2 }) = _
  rw [hf]

theorem exec_call_error {f : Call W α} {e : Exn} {w : W} (hf : f s.world = (.error e, w)) :
    exec (call f) s = (.error e, { s with world := w }) := by
  show ((f s.world).1, { s with world := (f s.world).2 }) = _
  rw [hf]

@[simp] theorem exec_update (f : Journal → Journal) :
    exec (update f : Exec W Unit) s = (.ok ⟨⟩, { s with journal := f s.journal }) := rfl

@[simp] theorem exec_journal : exec (journal : Exec W Journal) s = (.ok s.journal, s) := rfl

@[simp] theorem exec_now (h : Host W) : exec (now h) s = (.ok (h.now s.world), s) := rfl

theorem exec_save_ok {h : Host W} {w : W} (hsave : h.save s.journal s.world = (.ok (), w)) :
    exec (save h) s = (.ok ⟨⟩, { s with
      world := w, saved := s.saved ++ [s.journal], recorded := s.recorded ++ [s.journal] }) := by
  unfold save
  simp only [exec_bind, exec_modify, exec_get]
  rw [exec_call_ok (s := { s with saved := s.saved ++ [s.journal] }) hsave]

theorem exec_save_error {h : Host W} {e : Exn} {w : W}
    (hsave : h.save s.journal s.world = (.error e, w)) :
    exec (save h) s = (.error e, { s with world := w, saved := s.saved ++ [s.journal] }) := by
  unfold save
  simp only [exec_bind, exec_modify, exec_get]
  rw [exec_call_error (s := { s with saved := s.saved ++ [s.journal] }) hsave]

end Exec

end Ipms.Agent.Hgs
