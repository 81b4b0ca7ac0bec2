import Mathlib

/-
  Ipms.Lib.Transducer

  Machines that read a stream piece by piece, put out what they complete and may
  fail.  A machine over chunks that does on each chunk what a machine over
  symbols does, and only groups its output, depends on the stream alone.
-/

namespace Ipms.Lib.Transducer

variable {σ ε α β γ : Type}

/-- Read a stream: the state it leaves and everything put out, or the failure. -/
def run (step : σ → α → Except ε (σ × List β)) : σ → List α → Except ε (σ × List β)
  | s, [] => .ok (s, [])
  | s, a :: as =>
    match step s a with
    | .error e => .error e
    | .ok (s, out) =>
      match run step s as with
      | .error e => .error e
      | .ok (s, rest) => .ok (s, out ++ rest)

section
variable (step : σ → α → Except ε (σ × List β))

@[simp] theorem run_nil (s : σ) : run step s [] = .ok (s, []) := rfl

theorem run_cons_ok {s s' : σ} {a : α} {out : List β} (as : List α) (h : step s a = .ok (s', out)) :
    run step s (a :: as) = (run step s' as).map fun r => (r.1, out ++ r.2) := by
  simp only [run, h]
  cases run step s' as <;> rfl

theorem run_cons_error {s : σ} {a : α} {e : ε} (as : List α) (h : step s a = .error e) :
    run step s (a :: as) = .error e := by
  simp only [run, h]

theorem run_singleton (s : σ) (a : α) : run step s [a] = step s a := by
  cases h : step s a with
  | error e => exact run_cons_error step [] h
  | ok r =>
    rw [run_cons_ok step [] h]
    simp [Except.map]

/-- A run that succeeds on a stream succeeds on its first part and then on the rest. -/
theorem run_append_eq_ok {s s' : σ} {as bs : List α} {outs : List β} :
    run step s (as ++ bs) = .ok (s', outs) ↔
      ∃ mid first rest, run step s as = .ok (mid, first) ∧ run step mid bs = .ok (s', rest) ∧
        outs = first ++ rest := by
  induction as generalizing s outs with
  | nil =>
    simp only [List.nil_append, run_nil, Except.ok.injEq, Prod.mk.injEq]
    constructor
    · intro h
      exact ⟨s, [], outs, ⟨rfl, rfl⟩, h, rfl⟩
    · rintro ⟨mid, first, rest, ⟨rfl, rfl⟩, h, rfl⟩
      exact h
  | cons a as ih =>
    rw [List.cons_append]
    cases hstep : step s a with
    | error e =>
      rw [run_cons_error step _ hstep, run_cons_error step _ hstep]
      simp
    | ok r =>
      obtain ⟨t, out⟩ := r
      rw [run_cons_ok step _ hstep, run_cons_ok step _ hstep]
      constructor
      · intro h
        cases hrun : run step t (as ++ bs) with
        | error e => rw [hrun] at h; cases h
        | ok r =>
          rw [hrun] at h
          obtain ⟨rfl, rfl⟩ := Prod.mk.inj (Except.ok.inj h)
          obtain ⟨mid, first, rest, hfirst, hrest, hout⟩ := ih.mp hrun
          exact ⟨mid, out ++ first, rest, by rw [hfirst]; rfl, hrest, by
            simp only [hout, List.append_assoc]⟩
      · rintro ⟨mid, first, rest, hfirst, hrest, rfl⟩
        cases hrun : run step t as with
        | error e => rw [hrun] at hfirst; cases hfirst
        | ok r =>
          rw [hrun] at hfirst
          obtain ⟨rfl, rfl⟩ := Prod.mk.inj (Except.ok.inj hfirst)
          rw [ih.mpr ⟨r.1, r.2, rest, hrun, hrest, rfl⟩]
          simp [Except.map]

/-- A failure on the first part of a stream is the failure on the stream. -/
theorem run_append_error {s : σ} {as : List α} {e : ε} (bs : List α)
    (h : run step s as = .error e) : run step s (as ++ bs) = .error e := by
  induction as generalizing s with
  | nil => cases h
  | cons a as ih =>
    rw [List.cons_append]
    cases hstep : step s a with
    | error e' =>
      rw [run_cons_error step _ hstep] at h ⊢
      exact h
    | ok r =>
      rw [run_cons_ok step _ hstep] at h ⊢
      cases hrun : run step r.1 as with
      | error e' =>
        rw [hrun] at h
        obtain rfl := Except.error.inj h
        rw [ih hrun]
        rfl
      | ok r' => rw [hrun] at h; cases h

theorem run_append_ok {s mid : σ} {as : List α} {first : List β} (bs : List α)
    (h : run step s as = .ok (mid, first)) :
    run step s (as ++ bs) = (run step mid bs).map fun r => (r.1, first ++ r.2) := by
  cases hrest : run step mid bs with
  | ok r => exact (run_append_eq_ok step).mpr ⟨mid, first, r.2, h, hrest, rfl⟩
  | error e =>
    induction as generalizing s first with
    | nil =>
      obtain ⟨rfl, rfl⟩ := Prod.mk.inj (Except.ok.inj h)
      exact hrest
    | cons a as ih =>
      rw [List.cons_append]
      cases hstep : step s a with
      | error e' => rw [run_cons_error step _ hstep] at h; cases h
      | ok r =>
        rw [run_cons_ok step _ hstep] at h ⊢
        cases hrun : run step r.1 as with
        | error e' => rw [hrun] at h; cases h
        | ok r' =>
          rw [hrun] at h
          obtain ⟨rfl, rfl⟩ := Prod.mk.inj (Except.ok.inj h)
          rw [ih hrun]
          rfl

end

/-! ## Chunks -/

section
variable {step : σ → α → Except ε (σ × List β)} {feed : σ → List α → Except ε (σ × List γ)}
  {group : List β → List γ}

/-- A machine over chunks that groups, chunk by chunk, what the machine over symbols puts out. -/
def Groups (step : σ → α → Except ε (σ × List β)) (feed : σ → List α → Except ε (σ × List γ))
    (group : List β → List γ) : Prop :=
  ∀ s chunk, feed s chunk = (run step s chunk).map fun r => (r.1, group r.2)

/-- Chunks end as their concatenation does; only the grouping of the output tells them apart. -/
theorem run_chunks (h : Groups step feed group) (s : σ) (chunks : List (List α)) :
    (∃ (s' : σ) (parts : List (List β)), run step s chunks.flatten = .ok (s', parts.flatten) ∧
      run feed s chunks = .ok (s', parts.flatMap group)) ∨
    ∃ e, run step s chunks.flatten = .error e ∧ run feed s chunks = .error e := by
  induction chunks generalizing s with
  | nil => exact .inl ⟨s, [], rfl, rfl⟩
  | cons chunk chunks ih =>
    rw [List.flatten_cons]
    have hfeed := h s chunk
    cases hrun : run step s chunk with
    | error e =>
      rw [hrun] at hfeed
      exact .inr ⟨e, run_append_error step _ hrun, run_cons_error feed _ hfeed⟩
    | ok r =>
      rw [hrun] at hfeed
      rw [run_append_ok step _ hrun, run_cons_ok feed _ hfeed]
      rcases ih r.1 with ⟨s', parts, hstep, hrest⟩ | ⟨e, hstep, hrest⟩
      · rw [hstep, hrest]
        exact .inl ⟨s', r.2 :: parts, rfl, rfl⟩
      · rw [hstep, hrest]
        exact .inr ⟨e, rfl, rfl⟩

end

end Ipms.Lib.Transducer
