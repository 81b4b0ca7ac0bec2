import Ipms.Agent.Hgs.Contract

/-
  Ipms.Agent.Hgs.Journal

  The durable record of a step: its phase, the observation made before it and
  its outcome; and what a fence allows and what releases it.
-/

namespace Ipms.Agent.Hgs

open Ipms.Lib Ipms.ManagementJson

inductive Phase where
  | prepared | claiming | intent | rebootWait | terminal
  deriving DecidableEq

/-- The contract name of a phase. -/
def Phase.text : Phase → String
  | prepared => "prepared"
  | claiming => "claiming"
  | intent => "intent"
  | rebootWait => "reboot_wait"
  | terminal => "terminal"

/-- The phase of a contract name. -/
def Phase.ofText? (s : String) : Option Phase :=
  [prepared, claiming, intent, rebootWait, terminal].find? (·.text == s)

theorem Phase.ofText_text (phase : Phase) : ofText? phase.text = some phase := by
  cases phase <;> decide

/-- `journal`.  A step without an outcome has the empty object in its place. -/
structure Journal where
  assignment : Job
  state : Phase := .prepared
  before : Object := []
  outcome : Option Receipt := none
  deriving DecidableEq

def outcomeMembers : Option Receipt → Object
  | none => []
  | some r => r.members

def journalDocument (j : Journal) : Value :=
  .obj [("assignment", j.assignment.toJson), ("before", .obj j.before),
    ("outcome", .obj (outcomeMembers j.outcome)), ("schema_version", .int 1),
    ("state", .str j.state.text)]

def readOutcome (members : Object) : Except Exn (Option Receipt) :=
  if members = [] then .ok none else (validateResult (.obj members)).map some

/-- The members of a journal document, before they are checked. -/
structure JournalFields where
  assignment : Value
  before : Object
  outcome : Object
  state : Phase

/-- The document of the members. -/
def JournalFields.toJson (f : JournalFields) : Value :=
  .obj [("assignment", f.assignment), ("before", .obj f.before), ("outcome", .obj f.outcome),
    ("schema_version", .int 1), ("state", .str f.state.text)]

/-- Read the members of a journal document. -/
def JournalFields.read (v : Value) : Option JournalFields := do
  match ← v.get? "before", ← v.get? "outcome" with
  | .obj before, .obj outcome =>
    return {
      assignment := ← v.get? "assignment"
      before := before
      outcome := outcome
      state := ← Phase.ofText? (← v.str? "state") }
  | _, _ => none

theorem JournalFields.read_toJson (f : JournalFields) : read f.toJson = some f := by
  simp [read, toJson, Value.str?, Value.get?, List.lookup, Phase.ofText_text]

def parseJournal (v : Value) : Except Exn Journal :=
  match Value.exactly JournalFields.toJson JournalFields.read v with
  | none => .error contractInvalid
  | some fields => do
    let assignment ← parseJob fields.assignment
    throwIf (fields.before ≠ [] ∧ validObservation fields.before = false) observationInvalid
    let outcome ← readOutcome fields.outcome
    throwIf (fields.state ≠ .prepared ∧ fields.before = [] ∧ fields.state ≠ .terminal)
      contractInvalid
    throwIf (fields.state = .terminal ∧ outcome = none) contractInvalid
    return { assignment, state := fields.state, before := fields.before, outcome }

/-! ## The journals that are read back -/

/-- A journal is read back from its document. -/
def Journal.Closed (j : Journal) : Prop := parseJournal (journalDocument j) = .ok j

/-- What a journal needs to be read back. -/
structure Journal.Sound (j : Journal) : Prop where
  assignment : j.assignment.valid = true
  before : j.before = [] ∨ validObservation j.before = true
  outcome : ∀ r, j.outcome = some r → r.valid = true
  observed : j.state = .prepared ∨ j.before ≠ [] ∨ j.state = .terminal
  settled : j.state = .terminal → j.outcome ≠ none

theorem journalDocument_fields (j : Journal) :
    journalDocument j =
      JournalFields.toJson ⟨j.assignment.toJson, j.before, outcomeMembers j.outcome, j.state⟩ := rfl

theorem outcomeMembers_eq_nil {o : Option Receipt} : outcomeMembers o = [] ↔ o = none := by
  cases o <;> simp [outcomeMembers, Receipt.members]

theorem validateResult_toJson (r : Receipt) :
    validateResult r.toJson = if r.valid then .ok r else .error contractInvalid := by
  unfold validateResult
  rw [(Value.exactly_eq_some Receipt.read_toJson).mpr rfl]
  by_cases hvalid : r.valid = true
  · rw [if_pos hvalid, Option.filter_some, if_pos hvalid]
  · rw [if_neg hvalid, Option.filter_some, if_neg hvalid]

theorem readOutcome_members {o o' : Option Receipt} :
    readOutcome (outcomeMembers o) = .ok o' ↔ o' = o ∧ ∀ r, o = some r → r.valid = true := by
  unfold readOutcome
  cases o with
  | none =>
    rw [if_pos (outcomeMembers_eq_nil.mpr rfl), Except.ok.injEq]
    exact ⟨fun h => ⟨h.symm, fun r hr => nomatch hr⟩, fun h => h.1.symm⟩
  | some r =>
    rw [if_neg (outcomeMembers_eq_nil.not.mpr (Option.some_ne_none r))]
    rw [show validateResult (.obj (outcomeMembers (some r))) = _ from validateResult_toJson r]
    by_cases hvalid : r.valid = true
    · rw [if_pos hvalid, Except.map, Except.ok.injEq]
      constructor
      · rintro rfl
        exact ⟨rfl, fun r' hr' => Option.some.inj hr' ▸ hvalid⟩
      · exact fun h => h.1.symm
    · rw [if_neg hvalid]
      constructor
      · exact fun h => nomatch h
      · exact fun h => absurd (h.2 r rfl) hvalid

/-- A journal is read back exactly when it is sound. -/
theorem Journal.closed_iff {j : Journal} : j.Closed ↔ j.Sound := by
  unfold Journal.Closed parseJournal
  rw [journalDocument_fields,
    (Value.exactly_eq_some JournalFields.read_toJson).mpr rfl]
  simp only [bind_eq_ok, throwIf_eq_ok, pure_eq_ok, parseJob_eq_ok, readOutcome_members]
  constructor
  · rintro ⟨job, ⟨hjob, hvalid⟩, _, hbefore, outcome, ⟨rfl, houtcome⟩, _, hobserved, _, hsettled, heq⟩
    have hsame : job = j.assignment := by
      have hback := Job.read_toJson job
      rw [← hjob, Job.read_toJson] at hback
      exact (Option.some.inj hback).symm
    subst hsame
    refine ⟨hvalid, ?_, houtcome, ?_, fun hstate hnone => hsettled ⟨hstate, hnone⟩⟩
    · by_contra hno
      rw [not_or, Bool.not_eq_true] at hno
      exact hbefore hno
    · by_contra hno
      rw [not_or, not_or, Classical.not_not] at hno
      exact hobserved hno
  · rintro ⟨hvalid, hbefore, houtcome, hobserved, hsettled⟩
    refine ⟨j.assignment, ⟨rfl, hvalid⟩, (), ?_, j.outcome, ⟨rfl, houtcome⟩, (), ?_, (), ?_, rfl⟩
    · rintro ⟨hne, hbad⟩
      rcases hbefore with h | h
      · exact hne h
      · rw [hbad] at h
        exact Bool.noConfusion h
    · rintro ⟨hprepared, hempty, hterminal⟩
      rcases hobserved with h | h | h
      · exact hprepared h
      · exact h hempty
      · exact hterminal h
    · exact fun h => hsettled h.1 h.2

/-- Whatever is parsed as a journal is the document of the journal it yields. -/
theorem parseJournal_eq_ok {v : Value} {j : Journal} :
    parseJournal v = .ok j ↔ v = journalDocument j ∧ j.Sound := by
  constructor
  · intro hparse
    have hdocument : v = journalDocument j := by
      unfold parseJournal at hparse
      split at hparse
      · cases hparse
      · rename_i fields hfields
        rw [(Value.exactly_eq_some JournalFields.read_toJson).mp hfields]
        simp only [bind_eq_ok, throwIf_eq_ok, pure_eq_ok, parseJob_eq_ok] at hparse
        obtain ⟨job, ⟨hjob, _⟩, _, _, outcome, houtcome, _, _, _, _, rfl⟩ := hparse
        have hmembers : fields.outcome = outcomeMembers outcome := by
          unfold readOutcome at houtcome
          by_cases hempty : fields.outcome = []
          · rw [if_pos hempty] at houtcome
            cases houtcome
            exact hempty
          · rw [if_neg hempty] at houtcome
            cases hresult : validateResult (.obj fields.outcome) with
            | error e =>
              rw [hresult] at houtcome
              cases houtcome
            | ok r =>
              rw [hresult] at houtcome
              cases houtcome
              exact Value.obj.inj (validateResult_eq_ok.mp hresult).1
        rw [journalDocument_fields, ← hmembers, ← hjob]
    refine ⟨hdocument, Journal.closed_iff.mp ?_⟩
    unfold Journal.Closed
    rw [← hdocument, hparse]
  · rintro ⟨rfl, hsound⟩
    exact Journal.closed_iff.mpr hsound

/-- Two journals of one document are the same. -/
theorem journalDocument_inj {j k : Journal} (h : journalDocument j = journalDocument k) : j = k := by
  have hfields := JournalFields.read_toJson ⟨j.assignment.toJson, j.before, outcomeMembers j.outcome,
    j.state⟩
  rw [← journalDocument_fields, h, journalDocument_fields, JournalFields.read_toJson] at hfields
  simp only [Option.some.injEq, JournalFields.mk.injEq] at hfields
  obtain ⟨hassignment, hbefore, houtcome, hstate⟩ := hfields
  have hjob : j.assignment = k.assignment := by
    have hread := Job.read_toJson j.assignment
    rw [← hassignment, Job.read_toJson] at hread
    exact (Option.some.inj hread).symm
  have hreceipt : j.outcome = k.outcome := by
    cases hj : j.outcome with
    | none =>
      rw [hj] at houtcome
      exact (outcomeMembers_eq_nil.mp houtcome).symm
    | some r =>
      cases hk : k.outcome with
      | none =>
        rw [hj, hk] at houtcome
        exact absurd (outcomeMembers_eq_nil.mp houtcome.symm) (Option.some_ne_none r)
      | some r' =>
        rw [hj, hk] at houtcome
        have hread := Receipt.read_toJson r
        rw [show r.toJson = r'.toJson from congrArg Value.obj houtcome.symm,
          Receipt.read_toJson] at hread
        rw [Option.some.inj hread]
  cases j
  cases k
  simp_all

theorem Journal.sound_of_parse {j k : Journal} (h : parseJournal (journalDocument k) = .ok j) :
    k.Sound := by
  obtain ⟨hdocument, hsound⟩ := parseJournal_eq_ok.mp h
  rw [journalDocument_inj hdocument]
  exact hsound

def releaseMembers (jobId planDigest : String) : Object :=
  [("job_id", .str jobId), ("plan_digest", .str planDigest)]

/-- A terminal journal whose outcome asks for reconciliation. -/
def Journal.uncertain (j : Journal) : Bool :=
  j.state == .terminal && j.outcome.any fun r => r.status == .reconciliationRequired

def releaseMatches (fenced : Journal) (release : Object) : Bool :=
  fenced.uncertain && release == releaseMembers fenced.assignment.jobId fenced.assignment.planDigest

def permittedWhileFenced (fenced : Journal) (offered : Job) : Bool :=
  offered.operation == .inspect && offered.tenantId == fenced.assignment.tenantId &&
    offered.enrollmentId == fenced.assignment.enrollmentId &&
    offered.deviceUri == fenced.assignment.deviceUri

end Ipms.Agent.Hgs
