import Ipms.Agent.Console.LeaseText

/-
  Ipms.Agent.Console.LeaseRuns

  The lease over any sequence of controls.  It authorizes a time only when every
  control so far renewed it in time and the last one reaches beyond that time.
-/

namespace Ipms.Agent.Console

open Ipms.ManagementJson

/-! ## Renewals -/

/-- A sequence of controls that each renew a lease: every one is valid, not earlier than the one
before it and made before the deadline of that one.  From the time of the last renewal and its
deadline to those after the sequence. -/
inductive Renewed (generation : Bytes) : Int → Int → List (Bytes × Int) → Int → Int → Prop
  | done {last deadline : Int} : Renewed generation last deadline [] last deadline
  | renew {last deadline now last' deadline' : Int} {control : Bytes} {n : Nat}
      {calls : List (Bytes × Int)} : nativeLeaseSeconds control generation = some n → last ≤ now →
      now < deadline → Renewed generation now (now + chronoSeconds n) calls last' deadline' →
      Renewed generation last deadline ((control, now) :: calls) last' deadline'

theorem nativeLeaseSeconds_bounds {control generation : Bytes} {n : Nat}
    (h : nativeLeaseSeconds control generation = some n) : 1 ≤ n ∧ n ≤ 15 := by
  obtain ⟨-, -, -, hpos, hmax, -⟩ := nativeLeaseSeconds_iff.mp h
  exact ⟨hpos, hmax⟩

theorem Renewed.last {generation : Bytes} {last deadline last' deadline' : Int}
    {calls : List (Bytes × Int)} (h : Renewed generation last deadline calls last' deadline')
    (hne : calls ≠ []) : ∃ init control n, calls = init ++ [(control, last')] ∧
      nativeLeaseSeconds control generation = some n ∧ deadline' = last' + chronoSeconds n := by
  induction h with
  | done => exact absurd rfl hne
  | @renew _ _ now _ _ control n calls hcontrol _ _ hrest ih =>
    by_cases hcalls : calls = []
    · subst hcalls
      cases hrest
      exact ⟨[], control, n, rfl, hcontrol, rfl⟩
    · obtain ⟨init, final, m, rfl, hfinal, hdeadline⟩ := ih hcalls
      exact ⟨(control, now) :: init, final, m, rfl, hfinal, hdeadline⟩

namespace Lease

/-- The lease after some calls of `refresh`. -/
def refreshes (l : Lease) (calls : List (Bytes × Int)) : Lease :=
  calls.foldl (fun l call => (l.refresh call.1 call.2).1) l

variable {l : Lease} {control : Bytes} {now : Int} {n : Nat}

theorem refresh_renews (hfailed : l.failed = false)
    (hcontrol : nativeLeaseSeconds control l.generation = some n) (hlast : l.last ≤ now)
    (hdeadline : now < l.deadline) :
    l.refresh control now =
      ({ l with received := true, last := now, deadline := now + chronoSeconds n }, true) := by
  unfold refresh
  rw [hcontrol, hfailed]
  refine if_neg ?_
  rw [not_or, not_or, not_lt, not_le]
  exact ⟨hlast, hdeadline, Bool.false_ne_true⟩

theorem refresh_cases (l : Lease) (control : Bytes) (now : Int) :
    (∃ n, nativeLeaseSeconds control l.generation = some n ∧ l.last ≤ now ∧ now < l.deadline ∧
      l.failed = false) ∨
    l.refresh control now = ({ l with failed := true }, false) := by
  unfold refresh
  cases hcontrol : nativeLeaseSeconds control l.generation with
  | none => exact Or.inr rfl
  | some n =>
    by_cases hbad : now < l.last ∨ l.deadline ≤ now ∨ l.failed
    · exact Or.inr (if_pos hbad)
    · rw [not_or, not_or, not_lt, not_le, Bool.not_eq_true] at hbad
      exact Or.inl ⟨n, rfl, hbad.1, hbad.2.1, hbad.2.2⟩

theorem refreshes_cons (l : Lease) (control : Bytes) (now : Int) (calls : List (Bytes × Int)) :
    l.refreshes ((control, now) :: calls) = (l.refresh control now).1.refreshes calls := rfl

theorem refreshes_failed (calls : List (Bytes × Int)) (h : l.failed = true) :
    (l.refreshes calls).failed = true := by
  induction calls generalizing l with
  | nil => exact h
  | cons call calls ih =>
    obtain ⟨control, now⟩ := call
    rw [refreshes_cons]
    apply ih
    obtain ⟨n, -, -, -, hfailed⟩ | hrefused := l.refresh_cases control now
    · rw [h] at hfailed
      cases hfailed
    · rw [hrefused]

theorem refreshes_renewed {calls : List (Bytes × Int)} {last deadline : Int}
    (h : Renewed l.generation l.last l.deadline calls last deadline) (hfailed : l.failed = false) :
    l.refreshes calls =
      { l with last, deadline, received := l.received || !calls.isEmpty } := by
  generalize hlast : l.last = last₀ at h
  generalize hdeadline : l.deadline = deadline₀ at h
  generalize hgeneration : l.generation = generation at h
  induction h generalizing l with
  | done =>
    subst hlast hdeadline hgeneration
    show l = { l with received := l.received || false }
    rw [Bool.or_false]
  | @renew _ _ now _ _ control n calls hcontrol hle hlt _ ih =>
    subst hlast hdeadline hgeneration
    have hstep := refresh_renews hfailed hcontrol hle hlt
    have hrest := ih (l := { l with
      received := true, last := now, deadline := now + chronoSeconds n }) hfailed rfl rfl rfl
    rw [refreshes_cons, hstep, hrest]
    show Lease.mk _ _ _ (true || _) _ = Lease.mk _ _ _ (l.received || true) _
    rw [Bool.true_or, Bool.or_true]

theorem renewed_of_refreshes (calls : List (Bytes × Int))
    (h : (l.refreshes calls).failed = false) :
    ∃ last deadline, Renewed l.generation l.last l.deadline calls last deadline := by
  induction calls generalizing l with
  | nil => exact ⟨_, _, .done⟩
  | cons call calls ih =>
    obtain ⟨control, now⟩ := call
    rw [refreshes_cons] at h
    obtain ⟨n, hcontrol, hle, hlt, hfailed⟩ | hrefused := l.refresh_cases control now
    · rw [refresh_renews hfailed hcontrol hle hlt] at h
      obtain ⟨last, deadline, hrenewed⟩ := ih h
      exact ⟨last, deadline, .renew hcontrol hle hlt hrenewed⟩
    · rw [hrefused, refreshes_failed calls rfl] at h
      cases h

/-- What an authorized time says about the calls. -/
theorem authorized_iff (generation : Bytes) (start : Int) (calls : List (Bytes × Int)) (now : Int) :
    ((Lease.new generation start).refreshes calls).authorized now = true ↔
      ∃ init control last n, calls = init ++ [(control, last)] ∧
        nativeLeaseSeconds control generation = some n ∧
        Renewed generation start (start + chronoSeconds 15) calls last
          (last + chronoSeconds n) ∧
        last ≤ now ∧ now < last + chronoSeconds n := by
  unfold authorized live
  constructor
  · intro h
    simp only [Bool.and_eq_true, Bool.not_eq_true', decide_eq_true_eq] at h
    obtain ⟨hreceived, ⟨hfailed, hlast⟩, hdeadline⟩ := h
    obtain ⟨last, deadline, hrenewed⟩ := renewed_of_refreshes calls hfailed
    rw [refreshes_renewed hrenewed rfl] at hreceived hlast hdeadline
    have hne : calls ≠ [] := by
      rintro rfl
      cases hreceived
    obtain ⟨init, control, n, hcalls, hcontrol, rfl⟩ := hrenewed.last hne
    exact ⟨init, control, last, n, hcalls, hcontrol, hrenewed, hlast, hdeadline⟩
  · rintro ⟨init, control, last, n, hcalls, hcontrol, hrenewed, hlast, hdeadline⟩
    have hstate := refreshes_renewed (l := Lease.new generation start) hrenewed rfl
    have hnonempty : calls.isEmpty = false := by
      rw [hcalls]
      cases init <;> rfl
    rw [hstate, hnonempty]
    show (true && (true && decide (last ≤ now) && decide (now < last + chronoSeconds n))) = true
    rw [decide_eq_true hlast, decide_eq_true hdeadline]
    rfl

end Lease

/-- The scanner accepts exactly the documents of a lease without an escape, and after any sequence
of controls a time is authorized exactly when there was one, all of them renewed the lease and the
time lies before the end of the last, which is at most fifteen seconds after it. -/
theorem console_lease_sound :
    (∀ (json generation : Bytes) (n : Nat), nativeLeaseSeconds json generation = some n ↔
      json.length ≤ 256 ∧ nativeConsoleUuid generation = true ∧ (0x5c : UInt8) ∉ json ∧ 1 ≤ n ∧
        n ≤ 15 ∧ ∃ id, utf8 id = generation ∧ Document json (leaseDocument id n)) ∧
    ∀ (generation : Bytes) (start : Int) (calls : List (Bytes × Int)) (now : Int),
      ((Lease.new generation start).refreshes calls).authorized now = true ↔
        ∃ init control last n, calls = init ++ [(control, last)] ∧
          nativeLeaseSeconds control generation = some n ∧ n ≤ 15 ∧
          Renewed generation start (start + chronoSeconds 15) calls last
            (last + chronoSeconds n) ∧
          last ≤ now ∧ now < last + chronoSeconds n := by
  constructor
  · intro json generation n
    exact nativeLeaseSeconds_iff
  · intro generation start calls now
    rw [Lease.authorized_iff]
    constructor
    · rintro ⟨init, control, last, n, hcalls, hcontrol, hrest⟩
      exact ⟨init, control, last, n, hcalls, hcontrol, (nativeLeaseSeconds_bounds hcontrol).2,
        hrest⟩
    · rintro ⟨init, control, last, n, hcalls, hcontrol, -, hrest⟩
      exact ⟨init, control, last, n, hcalls, hcontrol, hrest⟩

/-- A lease whose first key is spelled with an escape. -/
def escapedLease : Bytes :=
  0x7b :: 0x22 :: 0x74 :: 0x79 :: 0x70 :: 0x5c :: 0x75 :: 0x30 :: 0x30 :: 0x36 :: 0x35 :: 0x22 ::
    0x3a :: (0x22 :: utf8 "lease" ++ 0x22 :: 0x2c :: (0x22 :: utf8 "stream_generation" ++ 0x22 ::
      0x3a :: (0x22 :: utf8 "00000000-0000-4000-8000-000000000001" ++ 0x22 :: 0x2c ::
        (0x22 :: utf8 "seconds" ++ 0x22 :: 0x3a :: 0x39 :: 0x7d :: []))))

theorem escapedKey_at (rest : Bytes) : StringAt
    (0x22 :: 0x74 :: 0x79 :: 0x70 :: 0x5c :: 0x75 :: 0x30 :: 0x30 :: 0x36 :: 0x35 :: 0x22 :: rest)
    "type" rest := by
  have hletter : ∀ {c : Char} {b : UInt8} {s : Bytes}, String.utf8EncodeChar c = [b] →
      0x20 ≤ c.toNat ∧ c ≠ '"' ∧ c ≠ '\\' → CharAt (b :: s) c s := by
    intro c b s hbyte hplain
    have hchar := @CharAt.unescaped c s hplain.1 hplain.2.1 hplain.2.2
    rwa [hbyte] at hchar
  have hunit : CodeUnit (0x30 :: 0x30 :: 0x36 :: 0x35 :: 0x22 :: rest) 0x65 (0x22 :: rest) :=
    .digits (.decimal (k := 0) (by decide)) (.decimal (k := 0) (by decide))
      (.decimal (k := 6) (by decide)) (.decimal (k := 5) (by decide))
  refine .quoted ?_
  show CharsAt _ ['t', 'y', 'p', 'e'] _
  exact .char (hletter (by decide) (by decide)) (.char (hletter (by decide) (by decide))
    (.char (hletter (by decide) (by decide)) (.char (.unit hunit (by unfold Surrogate; decide))
      .close)))

theorem console_lease_escaped :
    escapedLease.length ≤ 256 ∧
      nativeConsoleUuid (utf8 "00000000-0000-4000-8000-000000000001") = true ∧
      Document escapedLease (leaseDocument "00000000-0000-4000-8000-000000000001" 9) ∧
      nativeLeaseSeconds escapedLease (utf8 "00000000-0000-4000-8000-000000000001") = none := by
  have huuid : nativeConsoleUuid (utf8 "00000000-0000-4000-8000-000000000001") = true := by decide
  refine ⟨by decide, huuid, ?_, ?_⟩
  · have hperm : leaseFields.Perm [.kind, .generation, .seconds] := by decide
    refine ⟨_, _, .done, .object ?_ (hperm.map _) (leaseDocument_sorted _ _), .done⟩
    have hnine : NatAt [0x39, 0x7d] 9 [0x7d] :=
      @NatAt.digits 0x39 [] [0x7d] (by decide) (by decide) (by simp)
    have hnumber : ValueAt [0x39, 0x7d] (.int 9) [0x7d] :=
      .number (.plain hnine) (by omega) (by omega)
    exact .more .done (escapedKey_at _) .done .done (.string (stringAt_plain lease_plain)) .done
      (.more .done (stringAt_plain (Field.key_plain .generation)) .done .done
        (.string (stringAt_plain (uuid_plain huuid))) .done
        (.last .done (stringAt_plain (Field.key_plain .seconds)) .done .done hnumber .done))
  · cases hread : nativeLeaseSeconds escapedLease
        (utf8 "00000000-0000-4000-8000-000000000001") with
    | none => rfl
    | some n =>
      obtain ⟨-, -, hslash, -⟩ := nativeLeaseSeconds_iff.mp hread
      exact absurd (by decide) hslash

end Ipms.Agent.Console
