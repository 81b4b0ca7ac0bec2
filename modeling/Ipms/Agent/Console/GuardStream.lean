import Mathlib.Data.List.Infix
import Ipms.Agent.Console.Guard

/-
  Ipms.Agent.Console.GuardStream

  The preconnection gate reads a stream in pieces.  What it decides, and after how
  many bytes, is a function of the stream alone: the length field decides after
  four bytes whether the packet can be one at all, and after as many bytes as it
  says the packet is compared with the assigned machine.
-/

namespace Ipms.Agent.Console

open Ipms.Lib
open Ipms.ManagementJson (Bytes)
open List (length_append length_singleton replicate)

/-! ## The packet -/

/-- The lower case of an ASCII capital. -/
def asciiLower (c : UInt8) : UInt8 := if 65 ≤ c ∧ c ≤ 90 then c + 32 else c

/-- Two identifiers are the same up to letter case. -/
def SameId (a b : Bytes) : Prop := a.map asciiLower = b.map asciiLower

/-- A preconnection packet of version 2: its length, flags and number zero, and a payload of 16-bit
units with its count and a final zero. -/
def preconnection (payload : Bytes) : Bytes :=
  LittleEndian.bytes 4 (18 + 2 * (payload.length + 1)) ++ LittleEndian.bytes 4 0 ++
    LittleEndian.bytes 4 2 ++ LittleEndian.bytes 4 0 ++
    LittleEndian.bytes 2 (payload.length + 1) ++ (payload ++ [0]).flatMap fun c => [c, 0]

/-- A packet that names a machine, alone or with the fixed mode. -/
def Names (vmId packet : Bytes) : Prop :=
  ∃ id, SameId id vmId ∧
    (packet = preconnection id ∨ packet = preconnection (id ++ enhancedModeSuffix))

theorem length_flatMap_pair (cs : Bytes) : (cs.flatMap fun c => [c, 0]).length = 2 * cs.length := by
  induction cs with
  | nil => rfl
  | cons c cs ih =>
    rw [List.flatMap_cons, length_append, ih, List.length_cons]
    show 2 + 2 * cs.length = 2 * (cs.length + 1)
    omega

theorem length_preconnection (payload : Bytes) :
    (preconnection payload).length = 18 + 2 * (payload.length + 1) := by
  unfold preconnection
  simp only [length_append, LittleEndian.length_bytes, length_flatMap_pair,
    length_singleton]

/-! ## The gate after some bytes -/

def lengthField (stream : Bytes) : Nat := LittleEndian.value (stream.take 4)

/-- A length no packet of the gate has. -/
def BadLength (n : Nat) : Prop := n < 20 ∨ 256 < n ∨ n % 2 ≠ 0

instance (n : Nat) : Decidable (BadLength n) := inferInstanceAs (Decidable (_ ∨ _ ∨ _))

/-- After how many bytes of a stream the gate decides, if they are there. -/
def decidedAt (stream : Bytes) : Option Nat :=
  if stream.length < 4 then none
  else if BadLength (lengthField stream) then some 4
  else if stream.length < lengthField stream then none
  else some (lengthField stream)

variable {stream : Bytes} {n : Nat}

theorem decidedAt_le (h : decidedAt stream = some n) : n ≤ stream.length ∧ 4 ≤ n := by
  unfold decidedAt at h
  split at h
  · cases h
  · split at h
    · cases h
      omega
    · next hgood =>
        split at h
        · cases h
        · cases h
          unfold BadLength at hgood
          omega

theorem lengthField_append (more : Bytes) (h : 4 ≤ stream.length) :
    lengthField (stream ++ more) = lengthField stream := by
  unfold lengthField
  rw [List.take_append_of_le_length h]

theorem decidedAt_append (more : Bytes) (h : decidedAt stream = some n) :
    decidedAt (stream ++ more) = some n := by
  obtain ⟨hn, hfour⟩ := decidedAt_le h
  have hfield := lengthField_append more (Nat.le_trans hfour hn)
  unfold decidedAt at h ⊢
  rw [hfield, length_append]
  split at h
  · cases h
  · rw [if_neg (by omega)]
    split at h
    · next hbad =>
        rw [if_pos hbad]
        exact h
    · next hgood =>
        rw [if_neg hgood]
        split at h
        · cases h
        · rw [if_neg (by omega)]
          exact h

variable {b : UInt8}

/-- A decision falls with the last byte that it needs. -/
theorem decidedAt_concat {seen : Bytes} (hseen : decidedAt seen = none)
    (h : decidedAt (seen ++ [b]) = some n) : n = seen.length + 1 := by
  have hn := (decidedAt_le h).1
  rw [length_append, length_singleton] at hn
  by_cases hfour : seen.length < 4
  · unfold decidedAt at h
    rw [length_append, length_singleton] at h
    split at h
    · cases h
    · split at h
      · cases h
        omega
      · next hgood =>
          unfold BadLength at hgood
          split at h
          · cases h
          · cases h
            omega
  · rw [not_lt] at hfour
    have hfield := lengthField_append [b] hfour
    unfold decidedAt at h hseen
    rw [hfield, length_append, length_singleton] at h
    rw [if_neg (by omega)] at h hseen
    split at hseen
    · cases hseen
    · next hgood =>
        rw [if_neg hgood] at h
        split at hseen
        · next hshort =>
            split at h
            · cases h
            · cases h
              omega
        · cases hseen

theorem decidedAt_take (h : decidedAt stream = some n) : decidedAt (stream.take n) = some n := by
  obtain ⟨hn, hfour⟩ := decidedAt_le h
  have hlength : (stream.take n).length = n := List.length_take_of_le hn
  have hfield : lengthField (stream.take n) = lengthField stream := by
    rw [← lengthField_append (stream.drop n) (by omega), List.take_append_drop]
  unfold decidedAt at h ⊢
  rw [hfield, hlength, if_neg (by omega)]
  rw [if_neg (by omega)] at h
  split at h
  · next hbad =>
      rw [if_pos hbad]
      exact h
  · next hgood =>
      rw [if_neg hgood]
      split at h
      · cases h
      · cases h
        exact if_neg (Nat.lt_irrefl _)

theorem lt_decidedAt {seen more : Bytes} (hseen : decidedAt seen = none)
    (h : decidedAt (seen ++ more) = some n) : seen.length < n := by
  by_contra hle
  rw [not_lt] at hle
  have htake := decidedAt_take h
  rw [List.take_append_of_le_length hle] at htake
  have hagain := decidedAt_append (seen.drop n) htake
  rw [List.take_append_drop, hseen] at hagain
  cases hagain

namespace Guard

variable {vmId seen : Bytes}

/-- The gate after it took some bytes and decided nothing. -/
def after (vmId seen : Bytes) : Guard where
  vmId
  buffer := seen ++ List.replicate (256 - seen.length) 0
  size := seen.length
  expected := if seen.length < 4 then 4 else lengthField seen
  state := .pending

theorem new_eq_after (h : nativeConsoleUuid vmId = true) : Guard.new vmId = after vmId [] := by
  unfold new
  rw [if_pos h]
  rfl

theorem room_of_undecided (vmId : Bytes) (h : decidedAt seen = none) :
    (after vmId seen).size < (after vmId seen).expected ∧ seen.length < 256 := by
  show seen.length < (if seen.length < 4 then 4 else lengthField seen) ∧ _
  unfold decidedAt at h
  split at h
  · next hshort =>
      rw [if_pos hshort]
      omega
  · next hlong =>
      rw [if_neg hlong]
      split at h
      · cases h
      · next hgood =>
          unfold BadLength at hgood
          split at h
          · omega
          · cases h

theorem buffer_getElem? {index : Nat} (h : index < seen.length) :
    (after vmId seen).buffer[index]? = seen[index]? := List.getElem?_append_left h

theorem u32_after {index : Nat} (h : index + 4 ≤ seen.length) :
    (after vmId seen).u32 index = some (LittleEndian.value ((seen.drop index).take 4)) := by
  have hdrop : (seen.drop index).take 4 = [seen[index], seen[index + 1], seen[index + 2],
      seen[index + 3]] := by
    rw [List.drop_eq_getElem_cons (by omega), List.drop_eq_getElem_cons (by omega),
      List.drop_eq_getElem_cons (by omega), List.drop_eq_getElem_cons (by omega)]
    rfl
  unfold u32
  rw [buffer_getElem? (by omega), buffer_getElem? (by omega), buffer_getElem? (by omega),
    buffer_getElem? (by omega), List.getElem?_eq_getElem (by omega),
    List.getElem?_eq_getElem (by omega), List.getElem?_eq_getElem (by omega),
    List.getElem?_eq_getElem (by omega), hdrop]
  rfl

/-- The gate whose length field was refused. -/
def refused (vmId seen : Bytes) : Guard := { after vmId seen with state := .rejected }

theorem write_after (b : UInt8) (h : seen.length < 256) : (after vmId seen).write b =
    some { after vmId (seen ++ [b]) with expected := (after vmId seen).expected } := by
  have hlength : (after vmId seen).buffer.length = 256 := by
    show (seen ++ replicate (256 - seen.length) 0).length = 256
    rw [length_append, List.length_replicate]
    omega
  have hzeros : replicate (256 - seen.length) (0 : UInt8) =
      0 :: replicate (256 - (seen.length + 1)) 0 := by
    rw [show 256 - seen.length = (256 - (seen.length + 1)) + 1 by omega, List.replicate_succ]
  have hset : (after vmId seen).buffer.set seen.length b = (after vmId (seen ++ [b])).buffer := by
    show (seen ++ replicate (256 - seen.length) 0).set seen.length b =
      (seen ++ [b]) ++ replicate (256 - (seen ++ [b]).length) 0
    rw [hzeros, List.set_append_right _ _ (Nat.le_refl _), Nat.sub_self, length_append,
      List.append_assoc]
    rfl
  unfold write
  rw [if_pos (by rw [hlength]; exact h)]
  show some { after vmId seen with
    buffer := (after vmId seen).buffer.set seen.length b, size := seen.length + 1 } = _
  rw [hset]
  simp only [after, length_append, length_singleton]

theorem fill_full (g : Guard) (bs : Bytes) (n : Nat) (h : ¬ g.size < g.expected) :
    g.fill bs n = some (g, n) := by
  cases bs with
  | nil => rfl
  | cons b bs =>
    unfold fill
    rw [if_neg h]

theorem fill_field {g g' : Guard} {expected : Nat} (bs : Bytes) (n : Nat)
    (hroom : g.size < g.expected) (hwrite : g.write b = some g') (hfour : g'.size = 4)
    (hfield : g'.u32 0 = some expected) : g.fill (b :: bs) n =
      if BadLength expected then some ({ g' with expected, state := .rejected }, n + 1)
      else { g' with expected }.fill bs (n + 1) := by
  rw [fill, if_pos hroom, hwrite]
  show (if g'.size = 4 then _ else _) = _
  rw [if_pos hfour, hfield]
  rfl

theorem fill_plain {g g' : Guard} (bs : Bytes) (n : Nat) (hroom : g.size < g.expected)
    (hwrite : g.write b = some g') (hfour : g'.size ≠ 4) :
    g.fill (b :: bs) n = g'.fill bs (n + 1) := by
  rw [fill, if_pos hroom, hwrite]
  show (if g'.size = 4 then _ else _) = _
  rw [if_neg hfour]

theorem fill_four (b : UInt8) (bs : Bytes) (n : Nat) (h : decidedAt seen = none)
    (hthree : seen.length = 3) :
    (after vmId seen).fill (b :: bs) n =
      if BadLength (lengthField (seen ++ [b])) then some (refused vmId (seen ++ [b]), n + 1)
      else (after vmId (seen ++ [b])).fill bs (n + 1) := by
  obtain ⟨hroom, hbuffer⟩ := room_of_undecided vmId h
  have hlength : (seen ++ [b]).length = 4 := by
    rw [length_append, hthree]
    rfl
  have hfield : (after vmId (seen ++ [b])).u32 0 = some (lengthField (seen ++ [b])) :=
    u32_after (by omega)
  have hexpected : (after vmId (seen ++ [b])).expected = lengthField (seen ++ [b]) :=
    if_neg (by omega)
  rw [fill_field bs n hroom (write_after b hbuffer) hlength hfield, ← hexpected]
  rfl

theorem fill_other (b : UInt8) (bs : Bytes) (n : Nat) (h : decidedAt seen = none)
    (hthree : seen.length ≠ 3) :
    (after vmId seen).fill (b :: bs) n = (after vmId (seen ++ [b])).fill bs (n + 1) := by
  obtain ⟨hroom, hbuffer⟩ := room_of_undecided vmId h
  have hlength : (seen ++ [b]).length = seen.length + 1 := length_append
  have hexpected : (after vmId seen).expected = (after vmId (seen ++ [b])).expected := by
    show (if seen.length < 4 then 4 else lengthField seen) =
      if (seen ++ [b]).length < 4 then 4 else lengthField (seen ++ [b])
    rw [hlength]
    by_cases hfour : seen.length < 4
    · rw [if_pos hfour, if_pos (by omega)]
    · rw [if_neg hfour, if_neg (by omega), lengthField_append [b] (by omega)]
  have hsize : (seen ++ [b]).length ≠ 4 := by omega
  rw [fill_plain bs n hroom (write_after b hbuffer) hsize, hexpected]

/-- One byte of the loop. -/
theorem fill_cons (b : UInt8) (bs : Bytes) (n : Nat) (h : decidedAt seen = none) :
    (after vmId seen).fill (b :: bs) n =
      match decidedAt (seen ++ [b]) with
      | none => (after vmId (seen ++ [b])).fill bs (n + 1)
      | some _ =>
        if BadLength (lengthField (seen ++ [b])) then
          some (refused vmId (seen ++ [b]), n + 1)
        else some (after vmId (seen ++ [b]), n + 1) := by
  have hlength : (seen ++ [b]).length = seen.length + 1 := length_append
  by_cases hthree : seen.length = 3
  · rw [fill_four b bs n h hthree]
    by_cases hbad : BadLength (lengthField (seen ++ [b]))
    · have hdecided : decidedAt (seen ++ [b]) = some 4 := by
        rw [decidedAt, if_neg (by omega), if_pos hbad]
      rw [if_pos hbad, hdecided]
      exact (if_pos hbad).symm
    · have hdecided : decidedAt (seen ++ [b]) = none := by
        rw [decidedAt, if_neg (by omega), if_neg hbad]
        unfold BadLength at hbad
        exact if_pos (by omega)
      rw [if_neg hbad, hdecided]
  · rw [fill_other b bs n h hthree]
    cases hdecided : decidedAt (seen ++ [b]) with
    | none => rfl
    | some m =>
      have hm := decidedAt_concat h hdecided
      -- a bad length would have been refused at the fourth byte
      have hgood : ¬ BadLength (lengthField (seen ++ [b])) := by
        intro hbad
        rw [decidedAt] at h hdecided
        split at hdecided
        · cases hdecided
        · rw [lengthField_append [b] (by omega)] at hbad
          rw [if_neg (by omega), if_pos hbad] at h
          cases h
      have hfull : ¬ (after vmId (seen ++ [b])).size < (after vmId (seen ++ [b])).expected := by
        show ¬ (seen ++ [b]).length <
          if (seen ++ [b]).length < 4 then 4 else lengthField (seen ++ [b])
        rw [decidedAt] at hdecided
        split at hdecided
        · cases hdecided
        · split at hdecided
          · cases hdecided
          · rw [if_neg (by omega)]
            omega
      show _ = if _ then _ else _
      rw [if_neg hgood, fill_full _ _ _ hfull]

/-- The gate when the stream up to its decision is a packet. -/
def stopped (vmId packet : Bytes) : Guard :=
  if BadLength (lengthField packet) then refused vmId packet else after vmId packet

/-- The loop over a piece of the stream. -/
theorem fill_after (vmId : Bytes) (bs : Bytes) (n : Nat) (h : decidedAt seen = none) :
    (after vmId seen).fill bs n =
      match decidedAt (seen ++ bs) with
      | none => some (after vmId (seen ++ bs), n + bs.length)
      | some m => some (stopped vmId ((seen ++ bs).take m), n + (m - seen.length)) := by
  induction bs generalizing seen n with
  | nil =>
    rw [List.append_nil, h]
    rfl
  | cons b bs ih =>
    have hassoc : seen ++ b :: bs = (seen ++ [b]) ++ bs := by simp
    have hlength : (seen ++ [b]).length = seen.length + 1 := length_append
    rw [fill_cons b bs n h]
    cases hb : decidedAt (seen ++ [b]) with
    | none =>
      show (after vmId (seen ++ [b])).fill bs (n + 1) = _
      rw [ih (n + 1) hb, ← hassoc]
      cases hall : decidedAt (seen ++ b :: bs) with
      | none =>
        show some (_, n + 1 + bs.length) = some (_, n + (b :: bs).length)
        rw [List.length_cons, Nat.add_assoc, Nat.add_comm 1]
      | some m =>
        rw [hassoc] at hall
        have hm := lt_decidedAt hb hall
        have hcount : n + 1 + (m - (seen ++ [b]).length) = n + (m - seen.length) := by omega
        show some (_, n + 1 + (m - (seen ++ [b]).length)) = some (_, n + (m - seen.length))
        rw [hcount]
    | some m =>
      have hm := decidedAt_concat h hb
      have hall : decidedAt (seen ++ b :: bs) = some m := by
        rw [hassoc]
        exact decidedAt_append bs hb
      have htake : (seen ++ b :: bs).take m = seen ++ [b] := by
        rw [hassoc, List.take_append_of_le_length (by omega), List.take_of_length_le (by omega)]
      have hcount : m - seen.length = 1 := by omega
      rw [hall]
      show (if _ then _ else _) = some (stopped vmId ((seen ++ b :: bs).take m), _)
      rw [htake, hcount, stopped]
      split <;> rfl

end Guard

end Ipms.Agent.Console
