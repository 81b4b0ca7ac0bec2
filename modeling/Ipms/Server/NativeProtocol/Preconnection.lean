import Ipms.Agent.Console.GuardRuns
import Ipms.ManagementJson.Tokens
import Ipms.Server.Text

/-
  Ipms.Server.NativeProtocol.Preconnection

  The first packet of a native console, as the broker writes it, and the gate of
  the agent that reads it.  What the broker writes for a machine is one of the
  packets that the gate of that machine accepts, and the gate accepts no other
  beginning of a stream.
-/

namespace Ipms.Server.NativeProtocol

open Ipms.Lib
open Ipms.ManagementJson (Bytes utf8)
open Ipms.Agent.Console

/-! ## The broker -/

/-- `encode("utf-16-le")`. -/
def utf16le (cs : List Char) : Bytes := cs.flatMap fun c =>
  if c.toNat < 0x10000 then LittleEndian.bytes 2 c.toNat
  else LittleEndian.bytes 2 (0xd800 + (c.toNat - 0x10000) / 0x400) ++
    LittleEndian.bytes 2 (0xdc00 + (c.toNat - 0x10000) % 0x400)

/-- `preconnection_pdu`; an identifier that is not in the canonical form is an error. -/
def preconnectionPdu (vmId : String) : Option Bytes :=
  if uuidText vmId then
    let blob := utf16le (vmId.toList ++ [Char.ofNat 0])
    some (LittleEndian.bytes 4 (18 + blob.length) ++ LittleEndian.bytes 4 0 ++
      LittleEndian.bytes 4 2 ++ LittleEndian.bytes 4 0 ++ LittleEndian.bytes 2 (blob.length / 2) ++
      blob)
  else none

/-- The byte of an ASCII character. -/
def asciiByte (c : Char) : UInt8 := UInt8.ofNat c.toNat

theorem utf8_ascii {cs : List Char} (h : ∀ c ∈ cs, c.toNat < 128) :
    cs.flatMap String.utf8EncodeChar = cs.map asciiByte := by
  induction cs with
  | nil => rfl
  | cons c cs ih =>
    have hc : String.utf8EncodeChar c = [asciiByte c] :=
      Ipms.ManagementJson.encode_ascii (h c (List.mem_cons_self ..))
    rw [List.flatMap_cons, hc, ih fun d hd => h d (List.mem_cons_of_mem _ hd)]
    rfl

theorem utf16le_ascii {cs : List Char} (h : ∀ c ∈ cs, c.toNat < 128) :
    utf16le cs = (cs.map asciiByte).flatMap fun c => [c, 0] := by
  induction cs with
  | nil => rfl
  | cons c cs ih =>
    have hlt := h c (List.mem_cons_self ..)
    have hzero : c.toNat / 256 = 0 := by omega
    have hc : LittleEndian.bytes 2 c.toNat = [asciiByte c, 0] := by
      show [asciiByte c, UInt8.ofNat (c.toNat / 256)] = _
      rw [hzero]
      rfl
    have hcs := ih fun d hd => h d (List.mem_cons_of_mem _ hd)
    rw [List.map_cons, List.flatMap_cons, ← hcs, ← hc]
    show (if c.toNat < 0x10000 then _ else _) ++ utf16le cs = _
    rw [if_pos (by omega)]

theorem uuidText_mem {vmId : String} (h : uuidText vmId = true) {c : Char}
    (hc : c ∈ vmId.toList) : c = '-' ∨ Agent.Gpo.lowerHex c = true := by
  unfold uuidText at h
  rw [Bool.and_eq_true, List.all_eq_true] at h
  obtain ⟨i, hi, rfl⟩ := List.getElem_of_mem hc
  have hat := h.2 (vmId.toList[i], i) (by
    rw [List.mem_zipIdx_iff_getElem?, List.getElem?_eq_getElem hi])
  dsimp only at hat
  split at hat
  · exact Or.inl (beq_iff_eq.mp hat)
  · exact Or.inr hat

theorem lowerHex_toNat {c : Char} (h : Agent.Gpo.lowerHex c = true) :
    48 ≤ c.toNat ∧ c.toNat ≤ 57 ∨ 97 ≤ c.toNat ∧ c.toNat ≤ 102 := by
  unfold Agent.Gpo.lowerHex at h
  simp only [Bool.or_eq_true, Bool.and_eq_true, decide_eq_true_eq] at h
  exact h

theorem uuidText_ascii {vmId : String} (h : uuidText vmId = true) :
    ∀ c ∈ vmId.toList, c.toNat < 128 := by
  intro c hc
  obtain rfl | hhex := uuidText_mem h hc
  · decide
  · have := lowerHex_toNat hhex
    omega

theorem nativeConsoleUuid_utf8 {vmId : String} (h : uuidText vmId = true) :
    nativeConsoleUuid (utf8 vmId) = true := by
  have hbytes : utf8 vmId = vmId.toList.map asciiByte := utf8_ascii (uuidText_ascii h)
  unfold uuidText at h
  rw [Bool.and_eq_true, List.all_eq_true] at h
  rw [hbytes]
  unfold nativeConsoleUuid
  rw [List.length_map, h.1, Bool.true_and, List.zipIdx_map, List.all_map, List.all_eq_true]
  rintro ⟨c, i⟩ hmem
  have hat := h.2 (c, i) hmem
  dsimp only at hat
  show (if Agent.Gpo.uuidSeparator i then asciiByte c == 45 else hexByte (asciiByte c)) = true
  split at hat
  · next hdash =>
      rw [if_pos hdash, beq_iff_eq.mp hat]
      decide
  · next hdash =>
      have hrange := lowerHex_toNat hat
      have hbyte : (asciiByte c).toNat = c.toNat := by
        show (UInt8.ofNat c.toNat).toNat = _
        rw [UInt8.toNat_ofNat']
        omega
      rw [if_neg hdash]
      simp only [hexByte, Bool.or_eq_true, Bool.and_eq_true, decide_eq_true_eq,
        UInt8.le_iff_toNat_le, UInt8.reduceToNat, hbyte]
      omega

theorem preconnectionPdu_names {vmId : String} (h : uuidText vmId = true) :
    ∃ pdu, preconnectionPdu vmId = some pdu ∧ Names (utf8 vmId) pdu := by
  have hbytes : utf8 vmId = vmId.toList.map asciiByte := utf8_ascii (uuidText_ascii h)
  have hascii : ∀ c ∈ vmId.toList ++ [Char.ofNat 0], c.toNat < 128 := by
    intro c hc
    obtain hc | hc := List.mem_append.mp hc
    · exact uuidText_ascii h c hc
    · rw [List.mem_singleton.mp hc]
      decide
  have hblob : utf16le (vmId.toList ++ [Char.ofNat 0]) =
      (utf8 vmId ++ [0]).flatMap fun c => [c, 0] := by
    rw [utf16le_ascii hascii, List.map_append, hbytes]
    rfl
  have hlength := length_flatMap_pair (utf8 vmId ++ [0])
  rw [List.length_append, List.length_singleton] at hlength
  have hhalf : 2 * ((utf8 vmId).length + 1) / 2 = (utf8 vmId).length + 1 := by omega
  refine ⟨preconnection (utf8 vmId), ?_, utf8 vmId, rfl, Or.inl rfl⟩
  rw [preconnectionPdu, if_pos h]
  show some _ = some _
  rw [hblob, hlength, hhalf]
  rfl

theorem appends_new_stopped {vmId : Bytes} (chunks : List Bytes)
    (h : ¬ nativeConsoleUuid vmId = true) : ∃ g, (Guard.new vmId).appends chunks =
      some (g, List.replicate chunks.length ⟨.rejected, 0⟩) ∧ g.state = .rejected := by
  have hstate : (Guard.new vmId).state = .rejected := if_neg h
  obtain ⟨g, hrun, hsame, hne⟩ := (Guard.new vmId).appends_stopped chunks (by rw [hstate]; decide)
  refine ⟨g, hrun, ?_⟩
  cases hg : g.state with
  | pending => exact absurd hg hne
  | accepted =>
    rw [hsame hg, hstate] at hg
    cases hg
  | rejected => rfl

/-- What a run answers is that of the stream. -/
theorem appends_new (vmId : Bytes) (chunks : List Bytes) :
    ∃ g taken, (Guard.new vmId).appends chunks = some (g, taken) ∧
      taken.length = chunks.length ∧
      verdictOf (Guard.new vmId).state taken =
        (if nativeConsoleUuid vmId then verdictAfter vmId chunks.flatten else .rejected) ∧
      consumedOf taken =
        (if nativeConsoleUuid vmId then
          (decidedAt chunks.flatten).getD chunks.flatten.length else 0) ∧
      (g.state = .pending ↔ verdictOf (Guard.new vmId).state taken = .pending) ∧
      (g.state = .accepted → nativeConsoleUuid vmId = true ∧
        ∃ n, decidedAt chunks.flatten = some n ∧
          g = Guard.settled vmId (chunks.flatten.take n)) := by
  by_cases hid : nativeConsoleUuid vmId = true
  · have hnone : decidedAt [] = none := rfl
    obtain ⟨g, taken, hrun, hlength, hanswered⟩ := Guard.appends_after chunks hid hnone
    have hstart : (Guard.new vmId).state = .pending := if_pos hid
    have hverdict := hanswered.verdict
    rw [List.nil_append] at hanswered hverdict
    rw [← Guard.new_eq_after hid] at hrun
    rw [hstart, if_pos hid, if_pos hid]
    refine ⟨g, taken, hrun, hlength, hverdict, hanswered.consumed, ?_, ?_⟩
    · rw [hverdict]
      cases hdecided : decidedAt chunks.flatten with
      | none =>
        rw [hanswered.undecided hdecided, verdictAfter, hdecided]
        exact ⟨fun _ => rfl, fun _ => rfl⟩
      | some n =>
        rw [verdictAfter, hdecided]
        exact ⟨fun h => absurd h (hanswered.decided n hdecided),
          fun h => absurd h (judged_ne_pending vmId (chunks.flatten.take n))⟩
    · intro haccepted
      refine ⟨hid, ?_⟩
      cases hdecided : decidedAt chunks.flatten with
      | none =>
        rw [hanswered.undecided hdecided] at haccepted
        cases haccepted
      | some n => exact ⟨n, rfl, hanswered.kept n hdecided haccepted⟩
  · obtain ⟨g, hrun, hstate⟩ := appends_new_stopped chunks hid
    have hstart : (Guard.new vmId).state = .rejected := if_neg hid
    have hverdict : verdictOf .rejected (List.replicate chunks.length ⟨.rejected, 0⟩) = .rejected :=
      verdictOf_stopped _ (by decide)
    rw [hstart, if_neg hid, if_neg hid]
    refine ⟨g, _, hrun, List.length_replicate, hverdict, ?_, ?_, ?_⟩
    · rw [consumedOf, List.map_replicate, List.sum_replicate_nat, Nat.mul_zero]
    · rw [hverdict, hstate]
    · intro haccepted
      rw [hstate] at haccepted
      cases haccepted

/-- For every identifier and every run of appends the gate stays in its buffer, and accepts exactly
when the stream begins with a packet that names the machine: then it has taken the packet and
nothing after it, and returns it while it is not asked again.  Verdict and number of bytes are
those of the stream, and after a verdict the gate rejects.  The packet of the broker is one of
those that the gate accepts. -/
theorem preconnection_guard_sound :
    (∀ (vmId : Bytes) (chunks : List Bytes),
      ∃ g taken, (Guard.new vmId).appends chunks = some (g, taken) ∧
        taken.length = chunks.length ∧
        (verdictOf (Guard.new vmId).state taken = .accepted ↔
          nativeConsoleUuid vmId = true ∧
            ∃ packet, Names vmId packet ∧ packet <+: chunks.flatten) ∧
        (∀ packet, nativeConsoleUuid vmId = true → Names vmId packet →
          packet <+: chunks.flatten → consumedOf taken = packet.length) ∧
        (g.state = .pending ↔ verdictOf (Guard.new vmId).state taken = .pending) ∧
        (g.state = .accepted → verdictOf (Guard.new vmId).state taken = .accepted ∧
          Names vmId g.packet ∧ g.packet <+: chunks.flatten) ∧
        (∀ input, g.state ≠ .pending →
          ∃ g', g.append input = some (g', ⟨.rejected, 0⟩) ∧ g'.state = .rejected) ∧
        ∀ others : List Bytes, others.flatten = chunks.flatten →
          ∃ g' taken', (Guard.new vmId).appends others = some (g', taken') ∧
            verdictOf (Guard.new vmId).state taken' = verdictOf (Guard.new vmId).state taken ∧
            consumedOf taken' = consumedOf taken) ∧
    ∀ (vmId : String), uuidText vmId = true → ∃ pdu, preconnectionPdu vmId = some pdu ∧
      ∀ chunks : List Bytes, pdu <+: chunks.flatten →
        ∃ g taken, (Guard.new (utf8 vmId)).appends chunks = some (g, taken) ∧
          verdictOf (Guard.new (utf8 vmId)).state taken = .accepted ∧
          consumedOf taken = pdu.length := by
  constructor
  · intro vmId chunks
    obtain ⟨g, taken, hrun, hlength, hverdict, hconsumed, hpending, haccepted⟩ :=
      appends_new vmId chunks
    refine ⟨g, taken, hrun, hlength, ?_, ?_, hpending, ?_, ?_, ?_⟩
    · rw [hverdict]
      by_cases hid : nativeConsoleUuid vmId = true
      · rw [if_pos hid, verdictAfter_eq_accepted_iff hid]
        exact (and_iff_right hid).symm
      · rw [if_neg hid]
        exact ⟨fun h => (by cases h), fun h => absurd h.1 hid⟩
    · intro packet hid hnames hbegins
      rw [hconsumed, if_pos hid, decidedAt_of_names hid hnames hbegins]
      rfl
    · intro hstate
      obtain ⟨hid, n, hdecided, hg⟩ := haccepted hstate
      rw [hg] at hstate
      have hjudged : judged vmId (chunks.flatten.take n) = .accepted := hstate
      refine ⟨?_, ?_, ?_⟩
      · rw [hverdict, if_pos hid, verdictAfter, hdecided]
        exact hjudged
      · rw [hg, Guard.packet_settled hstate]
        exact (judged_eq_accepted_iff hid hdecided).mp hjudged
      · rw [hg, Guard.packet_settled hstate]
        exact List.take_prefix ..
    · intro input hstate
      exact ⟨_, g.append_stopped input hstate, rfl⟩
    · intro others hothers
      obtain ⟨g', taken', hrun', -, hverdict', hconsumed', -⟩ := appends_new vmId others
      refine ⟨g', taken', hrun', ?_, ?_⟩
      · rw [hverdict', hverdict, hothers]
      · rw [hconsumed', hconsumed, hothers]
  · intro vmId hid
    obtain ⟨pdu, hpdu, hnames⟩ := preconnectionPdu_names hid
    have huuid := nativeConsoleUuid_utf8 hid
    refine ⟨pdu, hpdu, fun chunks hbegins => ?_⟩
    obtain ⟨g, taken, hrun, -, hverdict, hconsumed, -⟩ := appends_new (utf8 vmId) chunks
    refine ⟨g, taken, hrun, ?_, ?_⟩
    · rw [hverdict, if_pos huuid]
      exact (verdictAfter_eq_accepted_iff huuid).mpr ⟨pdu, hnames, hbegins⟩
    · rw [hconsumed, if_pos huuid, decidedAt_of_names huuid hnames hbegins]
      rfl

theorem preconnection_guard_sound_sample :
    ∃ pdu, preconnectionPdu "00000000-0000-4000-8000-0000000000aa" = some pdu ∧
      ∃ g taken, (Guard.new (utf8 "00000000-0000-4000-8000-0000000000aa")).appends
          [pdu.take 3, pdu.drop 3 ++ [7]] = some (g, taken) ∧
        verdictOf (Guard.new (utf8 "00000000-0000-4000-8000-0000000000aa")).state taken =
          .accepted ∧
        consumedOf taken = pdu.length := by
  obtain ⟨pdu, hpdu, hall⟩ :=
    preconnection_guard_sound.2 "00000000-0000-4000-8000-0000000000aa" (by decide)
  refine ⟨pdu, hpdu, hall _ ⟨[7], ?_⟩⟩
  rw [List.flatten_cons, List.flatten_cons, List.flatten_nil, List.append_nil, ← List.append_assoc,
    List.take_append_drop]

end Ipms.Server.NativeProtocol
