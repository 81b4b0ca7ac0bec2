import Ipms.Agent.Console.GuardPacket

/-
  Ipms.Agent.Console.GuardRuns

  The gate over a run of appends.  A run never leaves the buffer; its verdict and
  the number of bytes it takes are those of the stream, however it was cut, and
  nothing is taken once there is a verdict.
-/

namespace Ipms.Agent.Console

open Ipms.Lib
open Ipms.ManagementJson (Bytes)

/-! ## Runs -/

/-- The appends of a run, with what each of them answered. -/
def Guard.appends (g : Guard) : List Bytes → Option (Guard × List Taken)
  | [] => some (g, [])
  | chunk :: chunks => do
    let (g, taken) ← g.append chunk
    let (g, rest) ← g.appends chunks
    return (g, taken :: rest)

/-- The verdict of a gate after some answers: the first that is not pending. -/
def verdictOf (start : Verdict) : List Taken → Verdict
  | [] => start
  | t :: rest => if start = .pending then verdictOf t.state rest else start

/-- The bytes that a run took. -/
def consumedOf (taken : List Taken) : Nat := (taken.map Taken.consumed).sum

/-- What is decided about the stream up to a decision. -/
def judged (vmId packet : Bytes) : Verdict :=
  if BadLength (lengthField packet) then .rejected
  else if (Guard.after vmId packet).validate = some true then .accepted else .rejected

/-- The verdict about a stream. -/
def verdictAfter (vmId stream : Bytes) : Verdict :=
  match decidedAt stream with
  | none => .pending
  | some n => judged vmId (stream.take n)

theorem judged_ne_pending (vmId packet : Bytes) : judged vmId packet ≠ .pending := by
  unfold judged
  split
  · decide
  · split <;> decide

theorem verdictOf_stopped {start : Verdict} (taken : List Taken) (h : start ≠ .pending) :
    verdictOf start taken = start := by
  cases taken with
  | nil => rfl
  | cons t rest => exact if_neg h

theorem lengthField_take {stream : Bytes} {n : Nat} (h : decidedAt stream = some n)
    (hgood : ¬ BadLength (lengthField (stream.take n))) :
    lengthField (stream.take n) = (stream.take n).length := by
  have htake := decidedAt_take h
  obtain ⟨hn, hfour⟩ := decidedAt_le h
  rw [List.length_take_of_le hn]
  unfold decidedAt at htake
  split at htake
  · cases htake
  · split at htake
    · cases htake
    · exact Option.some.inj htake

namespace Guard

variable {vmId seen : Bytes}

/-! ## One append -/

theorem append_stopped (g : Guard) (input : Bytes) (h : g.state ≠ .pending) :
    g.append input = some ({ g with state := .rejected }, ⟨.rejected, 0⟩) := if_pos h

theorem append_fill {g g' : Guard} {input : Bytes} {n : Nat} (hstate : g.state = .pending)
    (hfill : g.fill input 0 = some (g', n)) :
    g.append input =
      if g'.state = .rejected then some (g', ⟨.rejected, n⟩)
      else if g'.size = g'.expected then
        g'.validate >>= fun valid =>
          some ({ g' with state := if valid then .accepted else .rejected },
            ⟨if valid then .accepted else .rejected, n⟩)
      else some (g', ⟨g'.state, n⟩) := by
  unfold append
  rw [if_neg (by rw [hstate]; exact fun h => h rfl), hfill]
  rfl

theorem append_undecided {input : Bytes} (h : decidedAt seen = none)
    (hall : decidedAt (seen ++ input) = none) :
    (after vmId seen).append input =
      some (after vmId (seen ++ input), ⟨.pending, input.length⟩) := by
  have hfill := fill_after vmId input 0 h
  rw [hall] at hfill
  replace hfill : (after vmId seen).fill input 0 =
      some (after vmId (seen ++ input), input.length) := by
    rw [hfill]
    exact congrArg (fun n => some (_, n)) (Nat.zero_add _)
  have hroom := (room_of_undecided vmId hall).1
  have hpending : (after vmId (seen ++ input)).state ≠ .rejected := by
    show Verdict.pending ≠ .rejected
    decide
  rw [append_fill rfl hfill, if_neg hpending, if_neg (Nat.ne_of_lt hroom)]
  rfl

/-- The gate when it has decided about a packet. -/
def settled (vmId packet : Bytes) : Guard :=
  { after vmId packet with state := judged vmId packet }

theorem append_decided {input : Bytes} {n : Nat} (hid : nativeConsoleUuid vmId = true)
    (h : decidedAt seen = none) (hall : decidedAt (seen ++ input) = some n) :
    (after vmId seen).append input =
      some (settled vmId ((seen ++ input).take n),
        ⟨judged vmId ((seen ++ input).take n), n - seen.length⟩) := by
  have hfill := fill_after vmId input 0 h
  rw [hall] at hfill
  generalize hpacket : (seen ++ input).take n = packet at hfill ⊢
  replace hfill : (after vmId seen).fill input 0 =
      some (stopped vmId packet, n - seen.length) := by
    rw [hfill, ← hpacket]
    exact congrArg (fun n => some (_, n)) (Nat.zero_add _)
  rw [append_fill rfl hfill]
  by_cases hbad : BadLength (lengthField packet)
  · have hjudged : judged vmId packet = .rejected := if_pos hbad
    have hstopped : stopped vmId packet = refused vmId packet := if_pos hbad
    rw [hstopped, settled, hjudged]
    rfl
  · have hstopped : stopped vmId packet = after vmId packet := if_neg hbad
    have hfield : lengthField packet = packet.length := by
      rw [← hpacket] at hbad ⊢
      exact lengthField_take hall hbad
    have hexpected : (after vmId packet).size = (after vmId packet).expected := by
      show packet.length = if packet.length < 4 then 4 else lengthField packet
      rw [hfield] at hbad ⊢
      unfold BadLength at hbad
      rw [if_neg (by omega)]
    obtain ⟨b, hvalid, -⟩ := validate_after hfield (by rwa [← hfield]) hid
    have hjudged : judged vmId packet = if b then .accepted else .rejected := by
      unfold judged
      rw [if_neg hbad, hvalid]
      cases b <;> rfl
    have hpending : (after vmId packet).state ≠ .rejected := by
      show Verdict.pending ≠ .rejected
      decide
    rw [hstopped, if_neg hpending, if_pos hexpected, hvalid, settled, hjudged]
    rfl

theorem appends_stopped (g : Guard) (chunks : List Bytes) (h : g.state ≠ .pending) :
    ∃ g', g.appends chunks = some (g', List.replicate chunks.length ⟨.rejected, 0⟩) ∧
      (g'.state = .accepted → g' = g) ∧ g'.state ≠ .pending := by
  induction chunks generalizing g with
  | nil => exact ⟨g, rfl, fun _ => rfl, h⟩
  | cons chunk chunks ih =>
    obtain ⟨g', hrun, hsame, hstate⟩ := ih { g with state := .rejected } (by simp)
    refine ⟨g', ?_, fun haccepted => ?_, hstate⟩
    · rw [appends, append_stopped g chunk h]
      show (Guard.appends _ chunks >>= fun _ => _) = _
      rw [hrun]
      rfl
    · rw [hsame haccepted] at haccepted
      cases haccepted

/-- What a run answers. -/
structure Answered (vmId seen stream : Bytes) (g : Guard) (taken : List Taken) : Prop where
  verdict : verdictOf .pending taken = verdictAfter vmId stream
  consumed : consumedOf taken = (decidedAt stream).getD stream.length - seen.length
  undecided : decidedAt stream = none → g = after vmId stream
  kept : ∀ n, decidedAt stream = some n → g.state = .accepted → g = settled vmId (stream.take n)
  decided : ∀ n, decidedAt stream = some n → g.state ≠ .pending

theorem appends_after (chunks : List Bytes) (hid : nativeConsoleUuid vmId = true)
    (h : decidedAt seen = none) : ∃ g taken, (after vmId seen).appends chunks = some (g, taken) ∧
      taken.length = chunks.length ∧ Answered vmId seen (seen ++ chunks.flatten) g taken := by
  induction chunks generalizing seen with
  | nil =>
    rw [List.flatten_nil, List.append_nil]
    refine ⟨after vmId seen, [], rfl, rfl, ?_⟩
    constructor
    · rw [verdictAfter, h]
      rfl
    · rw [h]
      exact (Nat.sub_self _).symm
    · exact fun _ => rfl
    · intro n hn
      rw [h] at hn
      cases hn
    · intro n hn
      rw [h] at hn
      cases hn
  | cons chunk chunks ih =>
    rw [List.flatten_cons, ← List.append_assoc]
    cases hall : decidedAt (seen ++ chunk) with
    | none =>
      obtain ⟨g, taken, hrun, hlength, hanswered⟩ := ih hall
      refine ⟨g, ⟨.pending, chunk.length⟩ :: taken, ?_, congrArg Nat.succ hlength, ?_⟩
      · rw [appends, append_undecided h hall]
        show (Guard.appends _ chunks >>= fun _ => _) = _
        rw [hrun]
        rfl
      · refine ⟨hanswered.verdict, ?_, hanswered.undecided, hanswered.kept, hanswered.decided⟩
        have hconsumed := hanswered.consumed
        have hpiece : (seen ++ chunk).length = seen.length + chunk.length :=
          List.length_append
        have hle : (seen ++ chunk).length ≤
            (decidedAt (seen ++ chunk ++ chunks.flatten)).getD
              (seen ++ chunk ++ chunks.flatten).length := by
          cases hlater : decidedAt (seen ++ chunk ++ chunks.flatten) with
          | none =>
            rw [Option.getD_none, @List.length_append _ (seen ++ chunk)]
            exact Nat.le_add_right ..
          | some n => exact Nat.le_of_lt (lt_decidedAt hall hlater)
        show chunk.length + consumedOf taken = _
        omega
    | some n =>
      have hlater := decidedAt_append chunks.flatten hall
      have htake : (seen ++ chunk ++ chunks.flatten).take n = (seen ++ chunk).take n :=
        List.take_append_of_le_length (decidedAt_le hall).1
      have hjudged := judged_ne_pending vmId ((seen ++ chunk).take n)
      obtain ⟨g, hrun, hsame, hstate⟩ :=
        appends_stopped (settled vmId ((seen ++ chunk).take n)) chunks hjudged
      refine ⟨g, ⟨judged vmId ((seen ++ chunk).take n), n - seen.length⟩ ::
        List.replicate chunks.length ⟨.rejected, 0⟩, ?_, ?_, ?_⟩
      · rw [appends, append_decided hid h hall]
        show (Guard.appends _ chunks >>= fun _ => _) = _
        rw [hrun]
        rfl
      · rw [List.length_cons, List.length_replicate, List.length_cons]
      · constructor
        · rw [verdictAfter, hlater, verdictOf, if_pos rfl, verdictOf_stopped _ hjudged]
          show _ = judged vmId (List.take n _)
          rw [htake]
        · rw [hlater, consumedOf, List.map_cons, List.map_replicate, List.sum_cons,
            List.sum_replicate_nat]
          simp
        · intro hnone
          rw [hlater] at hnone
          cases hnone
        · intro m hm haccepted
          rw [hlater] at hm
          cases hm
          rw [htake]
          exact hsame haccepted
        · exact fun _ _ => hstate

theorem packet_settled {packet : Bytes} (h : (settled vmId packet).state = .accepted) :
    (settled vmId packet).packet = packet := by
  rw [Guard.packet, if_pos h]
  exact List.take_left

end Guard

variable {vmId packet stream : Bytes}

theorem Names.length (h : Names vmId packet) (hid : nativeConsoleUuid vmId = true) :
    lengthField packet = packet.length ∧ ¬ BadLength packet.length := by
  have hsuffix : enhancedModeSuffix.length = 15 := by decide
  obtain ⟨payload, rfl, hpayload⟩ : ∃ payload, packet = preconnection payload ∧
      payload.length ≤ 51 := by
    obtain ⟨id, hsame, rfl | rfl⟩ := h
    · have hlength := nativeConsoleUuid_length (hsame.nativeConsoleUuid hid)
      exact ⟨id, rfl, by omega⟩
    · have hlength := nativeConsoleUuid_length (hsame.nativeConsoleUuid hid)
      exact ⟨_, rfl, by rw [List.length_append]; omega⟩
  have hlength := length_preconnection payload
  have hfield := (Guard.eq_preconnection_iff hlength (by omega)).mp rfl
  refine ⟨hfield.1, ?_⟩
  unfold BadLength
  omega

theorem judged_eq_accepted_iff {n : Nat} (hid : nativeConsoleUuid vmId = true)
    (h : decidedAt stream = some n) :
    judged vmId (stream.take n) = .accepted ↔ Names vmId (stream.take n) := by
  unfold judged
  by_cases hbad : BadLength (lengthField (stream.take n))
  · rw [if_pos hbad]
    constructor
    · intro heq
      cases heq
    · intro hnames
      obtain ⟨hfield, hgood⟩ := hnames.length hid
      rw [hfield] at hbad
      exact absurd hbad hgood
  · have hfield := lengthField_take h hbad
    rw [if_neg hbad]
    rw [hfield] at hbad
    obtain ⟨b, hvalid, hiff⟩ := Guard.validate_after hfield hbad hid
    rw [hvalid, ← hiff]
    cases b <;> decide

theorem decidedAt_of_names (hid : nativeConsoleUuid vmId = true) (h : Names vmId packet)
    (hbegins : packet <+: stream) : decidedAt stream = some packet.length := by
  obtain ⟨hfield, hgood⟩ := h.length hid
  obtain ⟨more, rfl⟩ := hbegins
  apply decidedAt_append
  have hfour : ¬ packet.length < 4 := by
    unfold BadLength at hgood
    omega
  rw [decidedAt, if_neg hfour, hfield, if_neg hgood, if_neg (Nat.lt_irrefl _)]

theorem verdictAfter_eq_accepted_iff (hid : nativeConsoleUuid vmId = true) :
    verdictAfter vmId stream = .accepted ↔ ∃ packet, Names vmId packet ∧ packet <+: stream := by
  unfold verdictAfter
  constructor
  · intro h
    cases hdecided : decidedAt stream with
    | none =>
      rw [hdecided] at h
      cases h
    | some n =>
      rw [hdecided] at h
      exact ⟨_, (judged_eq_accepted_iff hid hdecided).mp h, List.take_prefix ..⟩
  · rintro ⟨packet, hnames, hbegins⟩
    have hdecided := decidedAt_of_names hid hnames hbegins
    rw [hdecided]
    apply (judged_eq_accepted_iff hid hdecided).mpr
    rwa [← List.prefix_iff_eq_take.mp hbegins]

end Ipms.Agent.Console
