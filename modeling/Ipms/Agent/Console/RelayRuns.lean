import Ipms.Agent.Console.GuardRuns
import Ipms.Agent.Console.Relay

/-
  Ipms.Agent.Console.RelayRuns

  What holds in every state of a relay.  The bytes sent, the bytes that wait in
  the local buffer and the bytes that the gate has taken are, in this order, the
  payloads of the binary messages; a half of a pass that ends the relay has at
  most left out what it was to send next.
-/

namespace Ipms.Agent.Console

open Ipms.Lib Prog
open Ipms.ManagementJson (Bytes)
open List (append_assoc append_nil length_append prefix_append prefix_refl take_length)

/-! ## Messages of fragments -/

theorem messages_append (pending : Bytes) (fs : List Fragment) (f : Fragment) :
    messages pending (fs ++ [f]) = messages pending fs ++
      if f.type.final then [(f.type.text, unfinished pending fs ++ f.bytes)] else [] := by
  induction fs generalizing pending with
  | nil =>
    show (if f.type.final then _ else _) = _
    split <;> rfl
  | cons g fs ih =>
    rw [List.cons_append, messages, messages, unfinished]
    by_cases hg : g.type.final = true
    · rw [if_pos hg, if_pos hg, if_pos hg, ih]
      rfl
    · rw [if_neg hg, if_neg hg, if_neg hg, ih]

theorem unfinished_append (pending : Bytes) (fs : List Fragment) (f : Fragment) :
    unfinished pending (fs ++ [f]) =
      if f.type.final then [] else unfinished pending fs ++ f.bytes := by
  induction fs generalizing pending with
  | nil =>
    show (if f.type.final then _ else _) = _
    split <;> rfl
  | cons g fs ih =>
    rw [List.cons_append, unfinished, unfinished]
    by_cases hg : g.type.final = true
    · rw [if_pos hg, if_pos hg, ih]
    · rw [if_neg hg, if_neg hg, ih]

/-- The payloads of the binary messages of some fragments. -/
def binaryOf (fs : List Fragment) : Bytes :=
  ((messages [] fs).filter fun m => !m.1).flatMap Prod.snd

theorem binaryOf_append (fs : List Fragment) (f : Fragment) :
    binaryOf (fs ++ [f]) = binaryOf fs ++
      if f.type.final ∧ f.type.text = false then unfinished [] fs ++ f.bytes else [] := by
  unfold binaryOf
  rw [messages_append, List.filter_append, List.flatMap_append]
  congr 1
  by_cases hfinal : f.type.final = true
  · rw [if_pos hfinal]
    cases htext : f.type.text with
    | false =>
      rw [if_pos ⟨hfinal, rfl⟩]
      exact append_nil _
    | true =>
      rw [if_neg (by simp)]
      rfl
  · rw [if_neg hfinal, if_neg (fun h => hfinal h.1)]
    rfl

theorem binaryOf_begins (fs : List Fragment) (f : Fragment) :
    binaryOf fs <+: binaryOf (fs ++ [f]) := by
  rw [binaryOf_append]
  exact prefix_append ..

/-! ## Invariants -/

/-- Where the bytes of the binary messages are: with the gate, or sent and in the local buffer. -/
structure Stream (vmId : Bytes) (guard : Guard) (valid isOpen : Bool) (output : Bytes)
    (offset : Nat) (sent binary : Bytes) : Prop where
  offset_le : offset ≤ output.length
  bound : output.length ≤ maximumMessage + 256
  waiting : valid = false → isOpen = false ∧ output = [] ∧ sent = [] ∧
    guard = Guard.after vmId binary ∧ decidedAt binary = none
  passing : valid = true → sent ++ output.drop offset = binary ∧
    ∃ packet, Names vmId packet ∧ packet <+: binary

/-- The chunks for the gateway: those that have gone out and the one under way are those handed
on. -/
structure Gateway (writing : Nat) (pending ready : Bool) (out : List Bytes) (buffer : Bytes)
    (handed : List Bytes) : Prop where
  one : writing ≤ 1
  busy : 0 < writing → pending = true ∧ ready = false
  arrived : out ++ (if 0 < writing then [buffer] else []) = handed

/-- The fragments that were received: those taken up and the one that waits. -/
structure Reading (busy pending ready : Bool) (size : Nat) (type : BufferType) (buffer : Bytes)
    (delivered received : List Fragment) : Prop where
  size_eq : size = buffer.length
  busy : busy = true → pending = true ∧ ready = false
  waits : ready = true → pending = true
  completed : received = delivered ++ if ready then [⟨type, buffer⟩] else []

/-- The bytes sent, in a relay that may have ended. -/
structure Sound (vmId : Bytes) (sends : List Sending) (output binary : Bytes) : Prop where
  bound : output.length ≤ maximumMessage + 256
  authorized : ∀ e ∈ sends, e.lease.authorized e.now = true
  begins : (sends.map Sending.bytes).flatten <+: binary
  names : sends ≠ [] → ∃ packet, Names vmId packet ∧ packet <+: binary

/-- A relay between two halves. -/
structure Live (vmId : Bytes) (s : Relay) : Prop where
  stream : Stream vmId s.guard s.preconnectionValid s.isOpen s.localOutput s.localOffset s.sent
    s.binary
  authorized : ∀ e ∈ s.sends, e.lease.authorized e.now = true
  silent : s.preconnectionValid = false → s.sends = []
  message : s.incoming.state = .pending ∧ s.incoming.data = unfinished [] s.delivered
  gateway : Gateway s.writing s.writePending s.writeReady s.arrived s.writeBuffer s.handed
  handed : s.handed = s.received
  reading : Reading s.reading s.readPending s.readReady s.readSize s.readType s.readBuffer
    s.delivered s.completed

/-- Any relay. -/
structure Safe (vmId : Bytes) (s : Relay) : Prop where
  sound : Sound vmId s.sends s.localOutput s.binary
  gateway : Gateway s.writing s.writePending s.writeReady s.arrived s.writeBuffer s.handed
  handed : s.handed <+: s.received
  delivered : s.delivered <+: s.completed

/-- What a half that ends a relay leaves. -/
def Ends (vmId : Bytes) (ending : Ending) (s : Relay) : Prop :=
  Safe vmId s ∧ ending ≠ .outOfBounds

variable {vmId : Bytes} {s : Relay}

theorem Stream.sound {guard : Guard} {valid isOpen : Bool} {output : Bytes} {offset : Nat}
    {sends : List Sending} {binary : Bytes}
    (h : Stream vmId guard valid isOpen output offset (sends.map Sending.bytes).flatten binary)
    (hauthorized : ∀ e ∈ sends, e.lease.authorized e.now = true)
    (hsilent : valid = false → sends = []) : Sound vmId sends output binary := by
  refine ⟨h.bound, hauthorized, ?_, ?_⟩
  · cases hvalid : valid with
    | false =>
      rw [hsilent hvalid]
      exact List.nil_prefix
    | true => exact ⟨_, (h.passing hvalid).1⟩
  · intro hsends
    cases hvalid : valid with
    | false => exact absurd (hsilent hvalid) hsends
    | true => exact (h.passing hvalid).2

theorem Sound.more {sends : List Sending} {output binary binary' : Bytes}
    (h : Sound vmId sends output binary) (hmore : binary <+: binary') :
    Sound vmId sends output binary' := by
  refine ⟨h.bound, h.authorized, h.begins.trans hmore, fun hsends => ?_⟩
  obtain ⟨packet, hnames, hbegins⟩ := h.names hsends
  exact ⟨packet, hnames, hbegins.trans hmore⟩

theorem Reading.delivered {busy pending ready : Bool} {size : Nat} {type : BufferType}
    {buffer : Bytes} {delivered received : List Fragment}
    (h : Reading busy pending ready size type buffer delivered received) :
    delivered <+: received := by
  rw [h.completed]
  exact prefix_append ..

theorem Live.safe (h : Live vmId s) : Safe vmId s where
  sound := h.stream.sound h.authorized h.silent
  gateway := h.gateway
  handed := by rw [h.handed]
  delivered := h.reading.delivered

theorem Safe.fails (h : Safe vmId s) (message : String) : Ends vmId (.failed message) s :=
  ⟨h, fun heq => by cases heq⟩

/-! ## The parts of a pass -/

variable {Q : Unit → Relay → Prop} {E : Ending → Relay → Prop}

@[simp] theorem wp_require {result : Bool} {message : String} :
    (require result message).wp Q E s ↔
      (result = false → E (.failed message) s) ∧ (result = true → Q () s) := by
  unfold require
  rw [wp_throwIf, Bool.not_eq_false]

theorem wp_check {i : Check} (hQ : Q () { s with error := s.error || i.failing })
    (hE : ∀ m, E (.failed m) { s with error := s.error || i.failing }) :
    (check i).wp Q E s := by
  unfold check
  simp only [wp_bind, wp_modify, wp_get, wp_require]
  exact ⟨fun _ => hE _, fun _ => ⟨fun _ => hE _, fun _ => hQ⟩⟩

theorem wp_pollLocal {i : FirstAnswers}
    (hQ : ∀ connecting progressed deadline,
      Q () { s with connecting, progressed, localWriteDeadline := deadline })
    (hE : ∀ m, E (.failed m) s) : (pollLocal i).wp Q E s := by
  unfold pollLocal
  rw [wp_bind, wp_get, wp_ite]
  refine ⟨fun _ => ?_, fun _ => hQ s.connecting s.progressed s.localWriteDeadline⟩
  rw [wp_bind, wp_require]
  refine ⟨fun _ => hE _, fun _ => ?_⟩
  cases i.poll with
  | failed => exact hE _
  | waiting => exact hQ s.connecting s.progressed s.localWriteDeadline
  | writable connected =>
    rw [wp_bind, wp_require]
    exact ⟨fun _ => hE _, fun _ => hQ _ _ _⟩

theorem Stream.send {guard : Guard} {isOpen : Bool} {output : Bytes} {offset count : Nat}
    {sent binary : Bytes} (h : Stream vmId guard true isOpen output offset sent binary)
    (hcount : count ≤ output.length - offset) :
    Stream vmId guard true isOpen output (offset + count)
      (sent ++ (output.drop offset).take count) binary := by
  have hle := h.offset_le
  refine ⟨by omega, h.bound, fun hfalse => (by cases hfalse), fun _ => ?_⟩
  obtain ⟨hbytes, hnames⟩ := h.passing rfl
  refine ⟨?_, hnames⟩
  rw [append_assoc, ← List.drop_drop, List.take_append_drop]
  exact hbytes

theorem Stream.clear {guard : Guard} {valid isOpen : Bool} {output : Bytes} {offset : Nat}
    {sent binary : Bytes} (h : Stream vmId guard valid isOpen output offset sent binary)
    (hall : offset = output.length) : Stream vmId guard valid isOpen [] 0 sent binary := by
  refine ⟨Nat.le_refl _, Nat.zero_le _, fun hvalid => ?_, fun hvalid => ?_⟩
  · obtain ⟨hopen, -, hrest⟩ := h.waiting hvalid
    exact ⟨hopen, rfl, hrest⟩
  · obtain ⟨hbytes, hnames⟩ := h.passing hvalid
    rw [hall, List.drop_length] at hbytes
    exact ⟨hbytes, hnames⟩

theorem Live.valid (h : Live vmId s) (hopen : s.isOpen = true) : s.preconnectionValid = true := by
  by_contra hvalid
  rw [Bool.not_eq_true] at hvalid
  rw [(h.stream.waiting hvalid).1] at hopen
  cases hopen

theorem live_sendLocal {i : FirstAnswers} (h : Live vmId s) (hopen : s.isOpen = true)
    (hlease : s.lease.authorized i.now = true) (hpossible : i.Possible s) :
    (sendLocal i).wp (fun _ => Live vmId) (Ends vmId) s := by
  have hvalid := h.valid hopen
  unfold sendLocal
  rw [wp_bind, wp_get, wp_ite]
  refine ⟨fun _ => ?_, fun _ => h⟩
  rw [wp_bind, wp_require]
  refine ⟨fun _ => h.safe.fails _, fun _ => ?_⟩
  -- the buffer is cleared when all of it is sent
  have hclear : ∀ t, Live vmId t → Live vmId (if t.localOffset = t.localOutput.length then
      { t with localOutput := [], localOffset := 0 } else t) := by
    intro t ht
    split
    · next hall =>
        exact ⟨ht.stream.clear hall, ht.authorized, ht.silent, ht.message, ht.gateway, ht.handed,
          ht.reading⟩
    · exact ht
  cases hsend : i.send with
  | failed => exact h.safe.fails _
  | wouldBlock => exact hclear s h
  | sent count =>
    refine hclear _ ⟨?_, ?_, ?_, h.message, h.gateway, h.handed, h.reading⟩
    · have hstream := h.stream
      have hsent : ((s.sends ++ [(⟨s.lease, i.now, s.unsent.take count⟩ : Sending)]).map
          Sending.bytes).flatten = s.sent ++ s.unsent.take count := by
        rw [List.map_append, List.flatten_append]
        show _ ++ (s.unsent.take count ++ []) = _
        rw [append_nil]
        rfl
      show Stream vmId s.guard s.preconnectionValid s.isOpen s.localOutput
        (s.localOffset + count) ((s.sends ++ [(⟨s.lease, i.now, s.unsent.take count⟩ :
          Sending)]).map Sending.bytes).flatten s.binary
      rw [hsent]
      rw [hvalid] at hstream ⊢
      exact hstream.send (hpossible count hsend).2
    · intro e he
      obtain he | he := List.mem_append.mp he
      · exact h.authorized e he
      · rw [List.mem_singleton.mp he]
        exact hlease
    · intro hnot
      rw [show s.preconnectionValid = false from hnot] at hvalid
      cases hvalid

theorem Live.frame (h : Live vmId s) (error progressed connecting : Bool) (now connect write : Int)
    (half : Half) : Live vmId { s with
      error, progressed, connecting, now, half
      connectDeadline := connect
      localWriteDeadline := write } :=
  ⟨h.stream, h.authorized, h.silent, h.message, h.gateway, h.handed, h.reading⟩

theorem live_serveLocal {i : FirstAnswers} (h : Live vmId s) (hpossible : i.Possible s) :
    (serveLocal i).wp (fun _ => Live vmId) (Ends vmId) s := by
  unfold serveLocal
  rw [wp_bind, wp_get, wp_ite]
  refine ⟨fun hopen => ?_, fun _ => h⟩
  rw [wp_bind, wp_require]
  refine ⟨fun _ => h.safe.fails _, fun _ => ?_⟩
  rw [wp_bind, wp_require]
  refine ⟨fun _ => h.safe.fails _, fun hlease => ?_⟩
  rw [wp_bind]
  exact wp_pollLocal (fun _ _ _ => live_sendLocal (h.frame ..) hopen hlease hpossible)
    fun m => h.safe.fails m

theorem live_firstHalf {i : FirstAnswers} (h : Live vmId s) (hpossible : i.Possible s) :
    (firstHalf i).wp (fun _ => Live vmId) (Ends vmId) s := by
  unfold firstHalf
  rw [wp_bind]
  refine wp_check ?_ fun m => (h.frame ..).safe.fails m
  rw [wp_bind, wp_modify, wp_bind, wp_get, wp_bind, wp_require]
  refine ⟨fun _ => (h.frame ..).safe.fails _, fun _ => ?_⟩
  rw [wp_bind]
  refine wp_mono (live_serveLocal (h.frame ..) hpossible) ?_ fun _ _ he => he
  intro _ t ht
  exact ht.frame ..

/-! ## A message -/

/-- A relay in a message: the gate and the local buffer have got some of the bytes. -/
structure Carrying (vmId seen total : Bytes) (s : Relay) : Prop where
  stream : Stream vmId s.guard s.preconnectionValid s.isOpen s.localOutput s.localOffset s.sent
    seen
  seen_begins : seen <+: total
  total_eq : s.binary = total
  closed : unfinished [] s.delivered = []
  authorized : ∀ e ∈ s.sends, e.lease.authorized e.now = true
  silent : s.preconnectionValid = false → s.sends = []
  gateway : Gateway s.writing s.writePending s.writeReady s.arrived s.writeBuffer s.handed
  handed : s.handed = s.received
  reading : Reading s.reading s.readPending s.readReady s.readSize s.readType s.readBuffer
    s.delivered s.completed

variable {seen : Bytes}

theorem Carrying.safe {total : Bytes} (h : Carrying vmId seen total s) : Safe vmId s where
  sound := by
    rw [h.total_eq]
    exact (h.stream.sound h.authorized h.silent).more h.seen_begins
  gateway := h.gateway
  handed := by rw [h.handed]
  delivered := h.reading.delivered

theorem Carrying.frame {total : Bytes} (h : Carrying vmId seen total s)
    (hvalid : s.preconnectionValid = true) (error isOpen connecting : Bool) (connect : Int) :
    Carrying vmId seen total { s with error, isOpen, connecting, connectDeadline := connect } := by
  refine ⟨⟨h.stream.offset_le, h.stream.bound, fun hnot => ?_, h.stream.passing⟩, h.seen_begins,
    h.total_eq, h.closed, h.authorized, h.silent, h.gateway, h.handed, h.reading⟩
  rw [show s.preconnectionValid = false from hnot] at hvalid
  cases hvalid

theorem carrying_startLocal {i : LocalAnswers} {seen total : Bytes}
    (h : Carrying vmId seen total s) (hvalid : s.preconnectionValid = true) :
    (startLocal i).wp (fun _ t => Carrying vmId seen total t ∧ t.preconnectionValid = true)
      (Ends vmId) s := by
  have hframe := h.frame hvalid
  unfold startLocal
  rw [wp_bind]
  refine wp_check ?_ fun m => (hframe ..).safe.fails m
  rw [wp_bind, wp_require]
  refine ⟨fun _ => (hframe ..).safe.fails _, fun _ => ?_⟩
  rw [wp_bind, wp_modify, wp_bind, wp_require]
  refine ⟨fun _ => (hframe ..).safe.fails _, fun _ => ?_⟩
  rw [wp_bind, wp_require]
  refine ⟨fun _ => (hframe ..).safe.fails _, fun _ => ?_⟩
  rw [wp_bind]
  cases i.connect with
  | connected | inProgress => exact ⟨hframe .., hvalid⟩
  | failed => exact (hframe ..).safe.fails _

/-- The gate takes a message, or its beginning. -/
def Took (vmId seen message total : Bytes) (count : Nat) (s : Relay) : Prop :=
  ∃ n, seen.length ≤ n ∧ n ≤ (seen ++ message).length ∧ count = n - seen.length ∧
    Carrying vmId ((seen ++ message).take n) total s ∧
    (s.preconnectionValid = false → n = (seen ++ message).length)

theorem took_passGuard {i : LocalAnswers} {seen message : Bytes}
    (hid : nativeConsoleUuid vmId = true) (h : Carrying vmId seen (seen ++ message) s)
    (hvalid : s.preconnectionValid = false) :
    (passGuard i message).wp (Took vmId seen message (seen ++ message)) (Ends vmId) s := by
  obtain ⟨hopen, houtput, hsent, hguard, hdecided⟩ := h.stream.waiting hvalid
  have hoffset : s.localOffset = 0 := by
    have hle := h.stream.offset_le
    rw [houtput] at hle
    exact Nat.le_zero.mp hle
  -- a guard that refuses leaves the buffer as it is
  have hguarded : ∀ guard, Safe vmId { s with guard } := fun guard =>
    ⟨h.safe.sound, h.safe.gateway, h.safe.handed, h.safe.delivered⟩
  unfold passGuard
  rw [wp_bind, wp_get, hguard]
  cases hall : decidedAt (seen ++ message) with
  | none =>
    rw [Guard.append_undecided hdecided hall]
    show (wp (_ >>= _) _ _ _)
    rw [wp_bind, wp_modify, wp_bind, wp_require]
    refine ⟨fun _ => (hguarded _).fails _, fun _ => ?_⟩
    refine ⟨(seen ++ message).length, ?_, Nat.le_refl _, ?_, ?_, fun _ => rfl⟩
    · rw [length_append]
      exact Nat.le_add_right ..
    · rw [length_append]
      exact (Nat.add_sub_cancel_left ..).symm
    · rw [take_length]
      refine ⟨⟨h.stream.offset_le, h.stream.bound, fun _ => ⟨hopen, houtput, hsent, rfl, hall⟩,
        fun hnot => ?_⟩, prefix_refl _, h.total_eq, h.closed, h.authorized, h.silent,
        h.gateway, h.handed, h.reading⟩
      rw [show s.preconnectionValid = true from hnot] at hvalid
      cases hvalid
  | some n =>
    have hn := lt_decidedAt hdecided hall
    have hlength := (decidedAt_le hall).1
    rw [Guard.append_decided hid hdecided hall]
    show (wp (_ >>= _) _ _ _)
    rw [wp_bind, wp_modify, wp_bind, wp_require]
    refine ⟨fun _ => (hguarded _).fails _, fun hnot => ?_⟩
    have haccepted : judged vmId ((seen ++ message).take n) = .accepted := by
      cases hjudged : judged vmId ((seen ++ message).take n) with
      | pending => exact absurd hjudged (judged_ne_pending _ _)
      | accepted => rfl
      | rejected =>
        rw [show judged vmId ((seen ++ message).take n) = .rejected from hjudged] at hnot
        cases hnot
    have hnames := (judged_eq_accepted_iff hid hall).mp haccepted
    have hstate : (Guard.settled vmId ((seen ++ message).take n)).state = .accepted := haccepted
    have hpacket := Guard.packet_settled hstate
    have hsize := (hnames.length hid).2
    unfold openStream
    rw [wp_bind, haccepted]
    show (wp (_ >>= _) _ _ _)
    rw [wp_bind, wp_modify]
    have hcarrying : Carrying vmId ((seen ++ message).take n) (seen ++ message) { s with
        guard := Guard.settled vmId ((seen ++ message).take n)
        preconnectionValid := true
        localOutput := s.localOutput ++
          (Guard.settled vmId ((seen ++ message).take n)).packet } := by
      rw [hpacket, houtput, List.nil_append]
      refine ⟨⟨?_, ?_, fun hfalse => (by cases hfalse), fun _ => ⟨?_, _, hnames,
        prefix_refl _⟩⟩, List.take_prefix .., h.total_eq, h.closed, h.authorized,
        fun hfalse => (by cases hfalse), h.gateway, h.handed, h.reading⟩
      · show s.localOffset ≤ _
        rw [hoffset]
        exact Nat.zero_le _
      · show ((seen ++ message).take n).length ≤ _
        unfold BadLength at hsize
        unfold maximumMessage
        omega
      · show s.sent ++ ((seen ++ message).take n).drop s.localOffset = _
        rw [hsent, hoffset]
        rfl
    refine wp_mono (carrying_startLocal hcarrying rfl) ?_ fun _ _ he => he
    rintro _ t ⟨ht, hopened⟩
    refine ⟨n, Nat.le_of_lt hn, hlength, rfl, ht, fun hfalse => ?_⟩
    rw [hopened] at hfalse
    cases hfalse

variable {i : LocalAnswers} {message : Bytes}

theorem took_consumed (hid : nativeConsoleUuid vmId = true)
    (h : Carrying vmId seen (seen ++ message) s) :
    (consumed i message).wp (Took vmId seen message (seen ++ message)) (Ends vmId) s := by
  unfold consumed
  rw [wp_bind, wp_get, wp_ite]
  refine ⟨fun hvalid => ?_, fun hvalid => took_passGuard hid h (Bool.eq_false_iff.mpr hvalid)⟩
  refine ⟨seen.length, Nat.le_refl _, ?_, (Nat.sub_self _).symm, ?_, fun hnot => ?_⟩
  · rw [length_append]
    exact Nat.le_add_right ..
  · rw [List.take_left]
    exact h
  · rw [hnot] at hvalid
    cases hvalid

theorem carrying_appendOutput {count : Nat} (h : Took vmId seen message (seen ++ message) count s) :
    (appendOutput message count).wp
      (fun _ => Carrying vmId (seen ++ message) (seen ++ message)) (Ends vmId) s := by
  obtain ⟨n, hlow, hhigh, rfl, hcarrying, hwaiting⟩ := h
  unfold appendOutput
  rw [wp_bind, wp_get, wp_ite]
  refine ⟨fun hvalid => ?_, fun hvalid => ?_⟩
  · rw [wp_bind, wp_require]
    refine ⟨fun _ => hcarrying.safe.fails _, fun hbound => ?_⟩
    rw [decide_eq_true_eq] at hbound
    obtain ⟨hbytes, packet, hnames, hbegins⟩ := hcarrying.stream.passing hvalid
    have hoffset := hcarrying.stream.offset_le
    have htake : (seen ++ message).take n = seen ++ message.take (n - seen.length) := by
      rw [List.take_append, List.take_of_length_le hlow]
    rw [length_append] at hhigh
    refine ⟨⟨?_, ?_, fun hnot => ?_, fun _ => ⟨?_, packet, hnames, ?_⟩⟩, prefix_refl _,
      hcarrying.total_eq, hcarrying.closed, hcarrying.authorized, hcarrying.silent,
      hcarrying.gateway, hcarrying.handed, hcarrying.reading⟩
    · show s.localOffset ≤ (s.localOutput ++ message.drop (n - seen.length)).length
      rw [length_append]
      omega
    · show (s.localOutput ++ message.drop (n - seen.length)).length ≤ _
      rw [length_append, List.length_drop]
      omega
    · rw [show s.preconnectionValid = false from hnot] at hvalid
      cases hvalid
    · show s.sent ++ (s.localOutput ++ message.drop (n - seen.length)).drop s.localOffset = _
      rw [List.drop_append_of_le_length hoffset, ← append_assoc, hbytes, htake,
        append_assoc, List.take_append_drop]
    · exact hbegins.trans (List.take_prefix ..)
  · rw [Bool.not_eq_true] at hvalid
    rw [hwaiting hvalid, take_length] at hcarrying
    exact hcarrying

theorem carrying_takeMessage {text : Bool} (hid : nativeConsoleUuid vmId = true)
    (h : Carrying vmId seen (seen ++ if text then [] else message) s) :
    (takeMessage i text message).wp
      (fun _ => Carrying vmId (seen ++ if text then [] else message)
        (seen ++ if text then [] else message)) (Ends vmId) s := by
  unfold takeMessage
  cases text with
  | true =>
    rw [if_pos rfl, if_pos rfl, append_nil] at *
    unfold refreshLease
    rw [wp_bind, wp_get, wp_bind, wp_modify, wp_require]
    have hframe : ∀ lease, Carrying vmId seen seen { s with lease } := fun lease =>
      ⟨h.stream, h.seen_begins, h.total_eq, h.closed, h.authorized, h.silent, h.gateway, h.handed,
        h.reading⟩
    exact ⟨fun _ => (hframe _).safe.fails _, fun _ => hframe _⟩
  | false =>
    rw [if_neg Bool.false_ne_true, if_neg Bool.false_ne_true] at *
    unfold forwardMessage
    rw [wp_bind, wp_get, wp_bind, wp_require]
    refine ⟨fun _ => h.safe.fails _, fun _ => ?_⟩
    rw [wp_bind]
    exact wp_mono (took_consumed hid h) (fun _ _ ht => carrying_appendOutput ht)
      fun _ _ he => he

/-! ## The second half of a pass -/

/-- A relay whose state of the callbacks has been read: it is live with the flag put back. -/
def Noticed (vmId : Bytes) (ready : Bool) (s : Relay) : Prop :=
  s.readReady = false ∧ Live vmId { s with readReady := ready }

variable {ready : Bool}

theorem Noticed.safe (h : Noticed vmId ready s) : Safe vmId s :=
  ⟨h.2.safe.sound, h.2.safe.gateway, h.2.safe.handed, h.2.safe.delivered⟩

theorem append_part {m : Message} {bytes : Bytes} {text final : Bool}
    (h : (m.append bytes text final).state ≠ .rejected) :
    (m.append bytes text final).data = m.data ++ bytes ∧
      (m.append bytes text final).state = if final then .complete else .pending := by
  unfold Message.append at h ⊢
  generalize hbad : (m.state != .pending || m.started && m.text != text ||
    decide ((if text then 256 else 65536) - m.data.length < bytes.length)) = bad at h ⊢
  cases bad with
  | true => exact absurd rfl h
  | false => exact ⟨rfl, rfl⟩

theorem live_finishMessage (before : Bytes) (f : Fragment) (hid : nativeConsoleUuid vmId = true)
    (htype : f.type = s.readType)
    (hstate : s.incoming.state = if f.type.final then .complete else .pending)
    (hunfinished : unfinished [] s.delivered = if f.type.final then [] else s.incoming.data)
    (hbinary : s.binary = before ++
      if f.type.final ∧ f.type.text = false then s.incoming.data else [])
    (hstream : Stream vmId s.guard s.preconnectionValid s.isOpen s.localOutput s.localOffset s.sent
      before) (hauthorized : ∀ e ∈ s.sends, e.lease.authorized e.now = true)
    (hsilent : s.preconnectionValid = false → s.sends = [])
    (hgateway : Gateway s.writing s.writePending s.writeReady s.arrived s.writeBuffer s.handed)
    (hhanded : s.handed = s.received)
    (hreading : Reading s.reading s.readPending s.readReady s.readSize s.readType s.readBuffer
      s.delivered s.completed) : (finishMessage i).wp (fun _ => Live vmId) (Ends vmId) s := by
  unfold finishMessage
  rw [wp_bind, wp_get, wp_ite]
  cases hfinal : f.type.final with
  | false =>
    rw [hfinal, if_neg Bool.false_ne_true] at hstate hunfinished
    rw [hfinal, if_neg (by simp), append_nil] at hbinary
    refine ⟨fun hcomplete => ?_, fun _ => ?_⟩
    · rw [hstate] at hcomplete
      cases hcomplete
    · refine ⟨?_, hauthorized, hsilent, ⟨hstate, hunfinished.symm⟩, hgateway, hhanded, hreading⟩
      rw [hbinary]
      exact hstream
  | true =>
    rw [hfinal, if_pos rfl] at hstate hunfinished
    refine ⟨fun _ => ?_, fun hnot => absurd hstate hnot⟩
    have hadded : (if f.type.final ∧ f.type.text = false then s.incoming.data else []) =
        if s.readType.text then [] else s.incoming.data := by
      rw [hfinal, ← htype]
      cases f.type.text <;> rfl
    rw [hadded] at hbinary
    have hcarrying : Carrying vmId before
        (before ++ if s.readType.text then [] else s.incoming.data) s :=
      ⟨hstream, prefix_append .., hbinary, hunfinished, hauthorized, hsilent, hgateway,
        hhanded, hreading⟩
    rw [wp_bind]
    refine wp_mono (carrying_takeMessage hid hcarrying) ?_ fun _ _ he => he
    intro _ t ht
    refine ⟨?_, ht.authorized, ht.silent, ⟨rfl, ht.closed.symm⟩, ht.gateway, ht.handed,
      ht.reading⟩
    have htotal := ht.stream
    rw [← ht.total_eq] at htotal
    exact htotal

theorem live_receiveFragment (hid : nativeConsoleUuid vmId = true) (h : Noticed vmId true s) :
    (receiveFragment i).wp (fun _ => Live vmId) (Ends vmId) s := by
  obtain ⟨hready, hlive⟩ := h
  have hsize : s.readSize = s.readBuffer.length := hlive.reading.size_eq
  have htake : s.readBuffer.take s.readSize = s.readBuffer := by
    rw [hsize, take_length]
  have hidle : s.reading = false := by
    by_contra hbusy
    rw [Bool.not_eq_false] at hbusy
    have hfalse : true = false := (hlive.reading.busy hbusy).2
    cases hfalse
  have hcompleted : s.completed = s.delivered ++ [⟨s.readType, s.readBuffer⟩] :=
    hlive.reading.completed
  have hsafe : ∀ progressed pending,
      Safe vmId { s with progressed, readPending := pending } := fun _ _ =>
    ⟨hlive.safe.sound, hlive.safe.gateway, hlive.safe.handed, hlive.safe.delivered⟩
  unfold receiveFragment
  rw [wp_bind, wp_modify, wp_bind, wp_get, wp_bind, wp_require]
  refine ⟨fun _ => (hsafe ..).fails _, fun _ => ?_⟩
  rw [wp_ite]
  refine ⟨fun _ => ⟨hsafe .., by decide⟩, fun _ => ?_⟩
  rw [wp_bind, wp_require]
  refine ⟨fun _ => (hsafe ..).fails _, fun _ => ?_⟩
  rw [wp_bind, wp_modify, wp_bind, wp_get, wp_bind, wp_require]
  dsimp only
  rw [htake]
  have hsound : Sound vmId s.sends s.localOutput s.binary := hlive.safe.sound
  have hmore := hsound.more (binaryOf_begins s.delivered ⟨s.readType, s.readBuffer⟩)
  refine ⟨fun _ => ⟨⟨hmore, hlive.safe.gateway, hlive.safe.handed, ?_⟩,
    fun heq => (by cases heq)⟩, fun hgood => ?_⟩
  · show s.delivered ++ [_] <+: s.completed
    rw [hcompleted]
  · have hpart := append_part (by simpa using hgood)
    have hdata : s.incoming.data = unfinished [] s.delivered := hlive.message.2
    refine live_finishMessage s.binary ⟨s.readType, s.readBuffer⟩ hid rfl hpart.2 ?_ ?_ hlive.stream hlive.authorized hlive.silent hlive.gateway hlive.handed
      ⟨hsize, fun hbusy => ?_, fun hwaits => ?_, ?_⟩
    · show unfinished [] (s.delivered ++ [_]) = _
      rw [unfinished_append, ← hdata]
      dsimp only
      rw [hpart.1]
    · show binaryOf (s.delivered ++ [_]) = binaryOf s.delivered ++ _
      rw [binaryOf_append, ← hdata]
      dsimp only
      rw [hpart.1]
    · rw [show s.reading = true from hbusy] at hidle
      cases hidle
    · rw [show s.readReady = true from hwaits] at hready
      cases hready
    · show s.completed = s.delivered ++ [_] ++ if s.readReady then _ else _
      rw [hready, if_neg Bool.false_ne_true, append_nil, hcompleted]

theorem noticed_awaitWrite {writeReady : Bool} (h : Noticed vmId ready s)
    (hwrite : writeReady = s.writeReady) :
    (awaitWrite writeReady).wp (fun _ => Noticed vmId ready) (Ends vmId) s := by
  obtain ⟨hread, hlive⟩ := h
  have hsafe : Safe vmId s := Noticed.safe ⟨hread, hlive⟩
  unfold awaitWrite
  rw [wp_bind, wp_get, wp_ite]
  refine ⟨fun _ => ?_, fun _ => ⟨hread, hlive⟩⟩
  rw [wp_ite, wp_require]
  refine ⟨fun hready => ?_, fun _ => ⟨fun _ => hsafe.fails _, fun _ => ⟨hread, hlive⟩⟩⟩
  -- no write is under way when the last one has completed
  have hidle : ¬ 0 < s.writing := by
    intro hbusy
    have hfalse : s.writeReady = false := (hlive.gateway.busy hbusy).2
    rw [← hwrite, hready] at hfalse
    cases hfalse
  exact ⟨hread, hlive.stream, hlive.authorized, hlive.silent, hlive.message,
    ⟨hlive.gateway.one, fun hbusy => absurd hbusy hidle, hlive.gateway.arrived⟩, hlive.handed,
    hlive.reading⟩

theorem live_receiveReady (hid : nativeConsoleUuid vmId = true) (h : Noticed vmId ready s) :
    (receiveReady i ready).wp (fun _ => Live vmId) (Ends vmId) s := by
  unfold receiveReady
  cases ready with
  | true => exact live_receiveFragment hid h
  | false =>
    obtain ⟨hread, hlive⟩ := h
    have hreading := hlive.reading
    rw [← hread] at hreading
    exact ⟨hlive.stream, hlive.authorized, hlive.silent, hlive.message, hlive.gateway,
      hlive.handed, hreading⟩

theorem live_startReceive {started : Bool} (h : Live vmId s) :
    (startReceive started).wp (fun _ => Live vmId) (Ends vmId) s := by
  unfold startReceive
  rw [wp_bind, wp_get, wp_ite]
  refine ⟨fun hidle => ?_, fun _ => h⟩
  rw [wp_bind, wp_require]
  refine ⟨fun _ => h.safe.fails _, fun _ => ?_⟩
  have hready : s.readReady = false := by
    by_contra hready
    rw [Bool.not_eq_false] at hready
    have hpending := h.reading.waits hready
    rw [hidle.1] at hpending
    cases hpending
  exact ⟨h.stream, h.authorized, h.silent, h.message, h.gateway, h.handed, h.reading.size_eq,
    fun _ => ⟨rfl, hready⟩, fun _ => rfl, h.reading.completed⟩

/-- A chunk is handed on when no write is under way. -/
theorem live_sendGateway {bytes : Bytes} {started : Bool} (h : Live vmId s)
    (hidle : s.writePending = false) :
    (sendGateway bytes started).wp (fun _ => Live vmId) (Ends vmId) s := by
  have hnone : s.writing = 0 := by
    by_contra hbusy
    have hpending := (h.gateway.busy (Nat.pos_of_ne_zero hbusy)).1
    rw [hidle] at hpending
    cases hpending
  have harrived : s.arrived = s.handed := by
    have hsplit := h.gateway.arrived
    rw [hnone, if_neg (Nat.lt_irrefl 0), append_nil] at hsplit
    exact hsplit
  unfold sendGateway
  rw [wp_bind, wp_modify, wp_bind, wp_require]
  refine ⟨fun _ => ⟨⟨h.safe.sound, ⟨h.gateway.one, fun hbusy => ?_, ?_⟩, ?_, h.safe.delivered⟩,
    fun heq => (by cases heq)⟩, fun _ => ?_⟩
  · rw [show s.writing = 0 from hnone] at hbusy
    exact absurd hbusy (Nat.lt_irrefl 0)
  · show s.arrived ++ (if 0 < s.writing then [bytes] else []) = s.handed
    rw [hnone, if_neg (Nat.lt_irrefl 0), append_nil, harrived]
  · show s.handed <+: s.received ++ [bytes]
    rw [h.handed]
    exact prefix_append ..
  · refine ⟨h.stream, h.authorized, h.silent, h.message, ⟨?_, fun _ => ⟨rfl, rfl⟩, ?_⟩, ?_,
      h.reading⟩
    · show s.writing + 1 ≤ 1
      omega
    · show s.arrived ++ (if 0 < s.writing + 1 then [bytes] else []) = s.handed ++ [bytes]
      rw [if_pos (Nat.succ_pos _), harrived]
    · show s.handed ++ [bytes] = s.received ++ [bytes]
      rw [h.handed]

theorem live_receiveLocal {i : SecondAnswers} (h : Live vmId s) :
    (receiveLocal i).wp (fun _ => Live vmId) (Ends vmId) s := by
  unfold receiveLocal
  rw [wp_bind, wp_get, wp_ite]
  refine ⟨fun hidle => ?_, fun _ => h⟩
  cases i.recv with
  | closed => exact ⟨h.safe, by decide⟩
  | failed => exact h.safe.fails _
  | wouldBlock => exact h
  | data bytes => exact live_sendGateway h hidle.2.2

theorem live_secondHalf {i : SecondAnswers} (hid : nativeConsoleUuid vmId = true)
    (h : Live vmId s) : (secondHalf i).wp (fun _ => Live vmId) (Ends vmId) s := by
  have hnoticed : Noticed vmId s.readReady { s with readReady := false } :=
    ⟨rfl, h.stream, h.authorized, h.silent, h.message, h.gateway, h.handed, h.reading⟩
  unfold secondHalf
  rw [wp_bind, wp_get, wp_bind, wp_modify, wp_bind]
  refine wp_mono (noticed_awaitWrite hnoticed rfl) ?_ fun _ _ he => he
  intro _ t ht
  rw [wp_bind]
  refine wp_mono (live_receiveReady hid ht) ?_ fun _ _ he => he
  intro _ u hu
  rw [wp_bind]
  refine wp_mono (live_startReceive hu) ?_ fun _ _ he => he
  intro _ v hv
  rw [wp_bind]
  refine wp_mono (live_receiveLocal hv) ?_ fun _ _ he => he
  intro _ w hw
  rw [wp_bind, wp_get, wp_bind, wp_require]
  exact ⟨fun _ => hw.safe.fails _, fun _ => hw.frame ..⟩

/-! ## Runs -/

/-- What holds in every state of a relay. -/
structure Holds (vmId : Bytes) (s : Relay) : Prop where
  safe : Safe vmId s
  live : s.ended = none → Live vmId s
  inside : s.ended ≠ some .outOfBounds

theorem holds_after {half : Looping Unit} (h : half.wp (fun _ => Live vmId) (Ends vmId) s) :
    Holds vmId (s.after half) := by
  unfold wp at h
  unfold Relay.after
  rcases hexec : half.exec s with ⟨result, t⟩
  rw [hexec] at h
  cases result with
  | ok u =>
    have hlive : Live vmId { t with ended := none } := ⟨h.stream, h.authorized, h.silent,
      h.message, h.gateway, h.handed, h.reading⟩
    exact ⟨hlive.safe, fun _ => hlive, fun heq => (by cases heq)⟩
  | error ending =>
    obtain ⟨hsafe, hinside⟩ : Ends vmId ending t := h
    refine ⟨⟨hsafe.sound, hsafe.gateway, hsafe.handed, hsafe.delivered⟩, fun hnone => ?_, ?_⟩
    · cases hnone
    · intro heq
      exact hinside (Option.some.inj heq)

theorem Gateway.complete {writing : Nat} {pending : Bool} {out : List Bytes} {buffer : Bytes}
    {handed : List Bytes} (h : Gateway writing pending ready out buffer handed)
    (hbusy : 0 < writing) : Gateway (writing - 1) pending true (out ++ [buffer]) buffer handed := by
  have hone := h.one
  have hnone : ¬ 0 < writing - 1 := by omega
  refine ⟨by omega, fun hagain => absurd hagain hnone, ?_⟩
  rw [if_neg hnone, append_nil, ← h.arrived, if_pos hbusy]

theorem holds_readComplete (h : Holds vmId s) (hbusy : s.reading = true) (type : BufferType)
    (bytes : Bytes) : Holds vmId (s.readComplete type bytes) := by
  refine ⟨⟨h.safe.sound, h.safe.gateway, h.safe.handed, ?_⟩, fun hnone => ?_, h.inside⟩
  · exact h.safe.delivered.trans (prefix_append ..)
  · have hlive := h.live hnone
    obtain ⟨hpending, hready⟩ := hlive.reading.busy hbusy
    refine ⟨hlive.stream, hlive.authorized, hlive.silent, hlive.message, hlive.gateway,
      hlive.handed, rfl, fun hfalse => (by cases hfalse), fun _ => hpending, ?_⟩
    have hcompleted := hlive.reading.completed
    rw [hready, if_neg Bool.false_ne_true, append_nil] at hcompleted
    show s.completed ++ [_] = s.delivered ++ [_]
    rw [hcompleted]
    rfl

theorem holds_writeComplete (h : Holds vmId s) (hbusy : 0 < s.writing)
    (transferred : Option Nat) : Holds vmId (s.writeComplete transferred) := by
  have hgateway := h.safe.gateway.complete hbusy
  refine ⟨⟨h.safe.sound, hgateway, h.safe.handed, h.safe.delivered⟩, fun hnone => ?_, h.inside⟩
  have hlive := h.live hnone
  exact ⟨hlive.stream, hlive.authorized, hlive.silent, hlive.message, hgateway, hlive.handed,
    hlive.reading⟩

theorem holds_step (hid : nativeConsoleUuid vmId = true) {e : Event} {t : Relay}
    (hstep : Relay.Step s e t) (h : Holds vmId s) : Holds vmId t := by
  cases hstep with
  | readComplete hbusy => exact holds_readComplete h hbusy _ _
  | writeComplete hbusy => exact holds_writeComplete h hbusy _
  | failure =>
    refine ⟨⟨h.safe.sound, h.safe.gateway, h.safe.handed, h.safe.delivered⟩, fun hnone => ?_,
      h.inside⟩
    exact (h.live hnone).frame true s.progressed s.connecting s.now s.connectDeadline
      s.localWriteDeadline s.half
  | first hended _ hpossible => exact holds_after (live_firstHalf (h.live hended) hpossible)
  | second hended _ => exact holds_after (live_secondHalf hid (h.live hended))

theorem holds_attach {sessionId generation : Bytes} {created now : Int}
    (h : Relay.attach sessionId generation vmId created now = some s) :
    nativeConsoleUuid vmId = true ∧ Holds vmId s := by
  unfold Relay.attach at h
  split at h
  · next hvalid =>
      rw [Bool.and_eq_true] at hvalid
      cases h
      have hlive : Live vmId {
          lease := Lease.new generation created
          guard := Guard.new vmId
          connectDeadline := now
          localWriteDeadline := now
          websocketWriteDeadline := now
          preconnectionDeadline := now + chronoSeconds 10
          now } := by
        refine ⟨⟨Nat.le_refl _, Nat.zero_le _, fun _ => ⟨rfl, rfl, rfl, ?_, rfl⟩,
          fun hfalse => (by cases hfalse)⟩, fun e he => (by cases he), fun _ => rfl, ⟨rfl, rfl⟩,
          ⟨Nat.zero_le _, fun hbusy => (by cases hbusy), rfl⟩, rfl,
          ⟨rfl, fun hfalse => (by cases hfalse), fun hfalse => (by cases hfalse), rfl⟩⟩
        exact Guard.new_eq_after hvalid.2
      exact ⟨hvalid.2, hlive.safe, fun _ => hlive, fun heq => (by cases heq)⟩
  · cases h

/-- In every state of every run of a relay: the bytes sent to the local socket begin the payloads of
the binary messages completed so far, which begin with a packet that names the machine if anything
was sent; every send was made while the lease was authorized; the local buffer stays in its bound;
while the relay goes on, what was sent and what waits are all of these payloads; and the chunks of
the local socket are handed on in their order, one at a time. -/
theorem relay_integrity {sessionId generation : Bytes} {created now : Int} {start : Relay}
    {events : List Event} (hattach : Relay.attach sessionId generation vmId created now = some start)
    (hrun : Run Relay.Step start events s) :
    s.sent <+: s.binary ∧
      (s.sends ≠ [] → ∃ packet, Names vmId packet ∧ packet <+: s.binary) ∧
      (∀ e ∈ s.sends, e.lease.authorized e.now = true) ∧
      s.localOutput.length ≤ 65536 + 256 ∧
      s.delivered <+: s.completed ∧
      (s.ended = none → s.completed = s.delivered ++
        if s.readReady then [⟨s.readType, s.readBuffer⟩] else []) ∧
      (s.ended = none → s.preconnectionValid = true → s.sent ++ s.unsent = s.binary) ∧
      (s.ended = none → s.preconnectionValid = false →
        s.sends = [] ∧ s.guard = Guard.after vmId s.binary) ∧
      s.handed <+: s.received ∧ (s.ended = none → s.handed = s.received) ∧
      s.writing ≤ 1 ∧
      s.arrived ++ (if 0 < s.writing then [s.writeBuffer] else []) = s.handed ∧
      s.ended ≠ some .outOfBounds := by
  obtain ⟨hid, hstart⟩ := holds_attach hattach
  have h : Holds vmId s := hrun.preserves (fun _ _ _ hstep ht => holds_step hid hstep ht) hstart
  refine ⟨h.safe.sound.begins, h.safe.sound.names, h.safe.sound.authorized, h.safe.sound.bound,
    h.safe.delivered, fun hnone => (h.live hnone).reading.completed,
    fun hnone hvalid => ((h.live hnone).stream.passing hvalid).1, fun hnone hvalid => ?_,
    h.safe.handed, fun hnone => (h.live hnone).handed, h.safe.gateway.one, h.safe.gateway.arrived,
    h.inside⟩
  exact ⟨(h.live hnone).silent hvalid, ((h.live hnone).stream.waiting hvalid).2.2.2.1⟩

/-- The answers to a pass in which nothing goes wrong and nothing arrives. -/
def quietCheck (now : Int) : Check := { cancelled := false, failing := false, now }

def quietFirst (now : Int) : FirstAnswers where
  check := quietCheck now
  now
  networkFailed := false
  poll := .waiting
  send := .wouldBlock

def quietSecond (now : Int) : SecondAnswers where
  start :=
    { check := quietCheck now, opened := true, watched := true, configured := true
      connect := .connected, now }
  receiveStarted := true
  recv := .wouldBlock
  sendStarted := true
  waited := true

/-- An identifier of the sample. -/
def sampleId : Bytes := Ipms.ManagementJson.utf8 "00000000-0000-4000-8000-000000000001"

/-- A relay that was just attached. -/
def sampleRelay : Relay where
  lease := Lease.new sampleId 0
  guard := Guard.new sampleId
  connectDeadline := 0
  localWriteDeadline := 0
  websocketWriteDeadline := 0
  preconnectionDeadline := 0 + chronoSeconds 10
  now := 0

theorem relay_integrity_sample :
    ∃ s, Relay.attach sampleId sampleId sampleId 0 0 = some sampleRelay ∧
      Run Relay.Step sampleRelay
        [.first (quietFirst 1), .second (quietSecond 2), .readComplete .utf8Fragment [0x7b]] s ∧
      s.sent <+: s.binary ∧ s.writing ≤ 1 := by
  have hattach : Relay.attach sampleId sampleId sampleId 0 0 = some sampleRelay :=
    if_pos (by decide)
  have hfirst : Relay.Step sampleRelay (.first (quietFirst 1))
      (sampleRelay.after (firstHalf (quietFirst 1))) :=
    .first rfl rfl fun count hsend => by cases hsend
  have hsecond : Relay.Step (sampleRelay.after (firstHalf (quietFirst 1)))
      (.second (quietSecond 2))
      ((sampleRelay.after (firstHalf (quietFirst 1))).after (secondHalf (quietSecond 2))) :=
    .second rfl rfl
  have hrun : Run Relay.Step sampleRelay
      [.first (quietFirst 1), .second (quietSecond 2), .readComplete .utf8Fragment [0x7b]]
      (((sampleRelay.after (firstHalf (quietFirst 1))).after
        (secondHalf (quietSecond 2))).readComplete .utf8Fragment [0x7b]) :=
    .cons hfirst (.cons hsecond (.cons (.readComplete rfl) (.nil _)))
  exact ⟨_, hattach, hrun, (relay_integrity hattach hrun).1,
    (relay_integrity hattach hrun).2.2.2.2.2.2.2.2.2.2.1⟩

end Ipms.Agent.Console
