import Ipms.Agent.Console.GuardStream

/-
  Ipms.Agent.Console.GuardPacket

  What the preconnection gate compares when the packet is complete: the fields of
  the header by their position in the buffer, the characters of the payload, and
  the identifier up to letter case.  Together they leave one packet for every
  spelling of the identifier, with and without the fixed mode.
-/

namespace Ipms.Agent.Console

open Ipms.Lib
open Ipms.ManagementJson (Bytes)
open LittleEndian (bytes eq_bytes_iff length_bytes)

/-! ## Identifiers up to letter case -/

theorem hexByte_asciiLower (c : UInt8) : hexByte (asciiLower c) = hexByte c := by
  unfold asciiLower
  split
  · next h =>
      simp only [hexByte, UInt8.le_iff_toNat_le, UInt8.toNat_add, UInt8.reduceToNat] at h ⊢
      rw [Bool.eq_iff_iff]
      simp only [Bool.or_eq_true, Bool.and_eq_true, decide_eq_true_eq]
      omega
  · rfl

theorem asciiLower_eq_dash (c : UInt8) : (asciiLower c == 45) = (c == 45) := by
  unfold asciiLower
  split
  · next h =>
      simp only [UInt8.le_iff_toNat_le, UInt8.reduceToNat] at h
      rw [Bool.eq_iff_iff, beq_iff_eq, beq_iff_eq]
      simp only [← UInt8.toNat_inj, UInt8.toNat_add, UInt8.reduceToNat]
      omega
  · rfl

variable {c : UInt8}

theorem lowerHexByte_eq (h : c = 45 ∨ hexByte c = true) : lowerHexByte c = asciiLower c := by
  unfold lowerHexByte asciiLower
  obtain rfl | h := h
  · rfl
  · simp only [hexByte, Bool.or_eq_true, Bool.and_eq_true, decide_eq_true_eq,
      UInt8.le_iff_toNat_le, UInt8.reduceToNat] at h ⊢
    by_cases hupper : 65 ≤ c.toNat ∧ c.toNat ≤ 70
    · rw [if_pos hupper, if_pos (by omega)]
    · rw [if_neg hupper, if_neg (by omega)]

theorem nativeConsoleUuid_map_asciiLower (value : Bytes) :
    nativeConsoleUuid (value.map asciiLower) = nativeConsoleUuid value := by
  unfold nativeConsoleUuid
  rw [List.length_map, List.zipIdx_map, List.all_map]
  congr 2
  funext ⟨c, index⟩
  show (if _ then asciiLower c == 45 else hexByte (asciiLower c)) = _
  rw [hexByte_asciiLower, asciiLower_eq_dash]
  rfl

variable {value : Bytes}

theorem nativeConsoleUuid_length (h : nativeConsoleUuid value = true) : value.length = 36 := by
  unfold nativeConsoleUuid at h
  rw [Bool.and_eq_true, beq_iff_eq] at h
  exact h.1

theorem nativeConsoleUuid_mem (h : nativeConsoleUuid value = true) (hc : c ∈ value) :
    c = 45 ∨ hexByte c = true := by
  unfold nativeConsoleUuid at h
  rw [Bool.and_eq_true, List.all_eq_true] at h
  obtain ⟨index, hindex, rfl⟩ := List.getElem_of_mem hc
  have hat := h.2 (value[index], index) (by
    rw [List.mem_zipIdx_iff_getElem?, List.getElem?_eq_getElem hindex])
  dsimp only at hat
  split at hat
  · exact Or.inl (beq_iff_eq.mp hat)
  · exact Or.inr hat

theorem map_lowerHexByte (h : nativeConsoleUuid value = true) :
    value.map lowerHexByte = value.map asciiLower :=
  List.map_congr_left fun _ hc => lowerHexByte_eq (nativeConsoleUuid_mem h hc)

theorem SameId.nativeConsoleUuid {a b : Bytes} (h : SameId a b)
    (hb : nativeConsoleUuid b = true) : nativeConsoleUuid a = true := by
  rw [← nativeConsoleUuid_map_asciiLower, h, nativeConsoleUuid_map_asciiLower, hb]

theorem nativeConsoleUuid_ascii (h : nativeConsoleUuid value = true) (hc : c ∈ value) :
    c ≠ 0 ∧ c ≤ 127 := by
  obtain rfl | hhex := nativeConsoleUuid_mem h hc
  · decide
  · simp only [hexByte, Bool.or_eq_true, Bool.and_eq_true, decide_eq_true_eq,
      UInt8.le_iff_toNat_le, UInt8.reduceToNat] at hhex
    constructor
    · rintro rfl
      revert hhex
      decide
    · simp only [UInt8.le_iff_toNat_le, UInt8.reduceToNat]
      omega

namespace Guard

variable {vmId : Bytes} {payload packet : Bytes}

theorem namesVm_iff (g : Guard) (hid : nativeConsoleUuid g.vmId = true) :
    g.namesVm payload = true ↔
      ∃ id, SameId id g.vmId ∧ (payload = id ∨ payload = id ++ enhancedModeSuffix) := by
  have htakeId : g.vmId.take 36 = g.vmId :=
    List.take_of_length_le (Nat.le_of_eq (nativeConsoleUuid_length hid))
  unfold namesVm
  rw [htakeId, Bool.and_eq_true, Bool.and_eq_true, Bool.or_eq_true, Bool.and_eq_true, beq_iff_eq,
    beq_iff_eq, beq_iff_eq, beq_iff_eq]
  constructor
  · rintro ⟨⟨hlength, huuid⟩, hsame⟩
    rw [map_lowerHexByte huuid, map_lowerHexByte hid] at hsame
    refine ⟨payload.take 36, hsame, ?_⟩
    obtain hlength | ⟨-, hsuffix⟩ := hlength
    · exact Or.inl (List.take_of_length_le (Nat.le_of_eq hlength)).symm
    · rw [← hsuffix, List.take_append_drop]
      exact Or.inr rfl
  · rintro ⟨id, hsame, hpayload⟩
    have huuid := hsame.nativeConsoleUuid hid
    have hlength := nativeConsoleUuid_length huuid
    have htake : payload.take 36 = id := by
      obtain rfl | rfl := hpayload
      · exact List.take_of_length_le (Nat.le_of_eq hlength)
      · exact List.take_left' hlength
    rw [htake, map_lowerHexByte huuid, map_lowerHexByte hid]
    refine ⟨⟨?_, huuid⟩, hsame⟩
    obtain rfl | rfl := hpayload
    · exact Or.inl hlength
    · exact Or.inr ⟨by rw [List.length_append, hlength], List.drop_left' hlength⟩

/-- The characters between two positions of the buffer. -/
theorem pcb_after (vmId packet : Bytes) (n index : Nat) (h : index + 2 * n ≤ packet.length) :
    ∃ r, (after vmId packet).pcb n index = some r ∧ ∀ payload, r = some payload ↔
      payload.length = n ∧ (∀ c ∈ payload, c ≠ 0 ∧ c ≤ 127) ∧
        (packet.drop index).take (2 * n) = payload.flatMap fun c => [c, 0] := by
  induction n generalizing index with
  | zero =>
    refine ⟨some [], rfl, fun payload => ⟨?_, ?_⟩⟩
    · rintro ⟨⟩
      exact ⟨rfl, by simp, rfl⟩
    · rintro ⟨hlength, -⟩
      rw [List.length_eq_zero_iff.mp hlength]
  | succ n ih =>
    have htake : (packet.drop index).take (2 * (n + 1)) =
        packet[index] :: packet[index + 1] :: (packet.drop (index + 2)).take (2 * n) := by
      rw [List.drop_eq_getElem_cons (by omega), List.drop_eq_getElem_cons (by omega)]
      rfl
    obtain ⟨r, hr, hiff⟩ := ih (index + 2) (by omega)
    have hlow : (after vmId packet).buffer[index]? = some packet[index] := by
      rw [buffer_getElem? (by omega), List.getElem?_eq_getElem]
    have hhigh : (after vmId packet).buffer[index + 1]? = some packet[index + 1] := by
      rw [buffer_getElem? (by omega), List.getElem?_eq_getElem]
    unfold pcb
    rw [hlow, hhigh]
    show ∃ s, (if packet[index] = 0 ∨ 127 < packet[index] ∨ packet[index + 1] ≠ 0 then some none
      else (after vmId packet).pcb n (index + 2) >>= fun rest =>
        some (rest.map (packet[index] :: ·))) = some s ∧ _
    rw [hr, htake]
    split
    · next hbad =>
        refine ⟨none, rfl, fun payload => ⟨by rintro ⟨⟩, ?_⟩⟩
        rintro ⟨hlength, hascii, hbytes⟩
        obtain - | ⟨c, rest⟩ := payload
        · cases hlength
        · obtain ⟨hzero, hmax⟩ := hascii c (List.mem_cons_self ..)
          rw [List.flatMap_cons] at hbytes
          injection hbytes with hc hbytes
          injection hbytes with hz _
          rw [hc, hz] at hbad
          obtain hbad | hbad | hbad := hbad
          · exact absurd hbad hzero
          · exact absurd hmax (UInt8.not_le.mpr hbad)
          · exact absurd rfl hbad
    · next hgood =>
        rw [not_or, not_or, not_not, UInt8.not_lt] at hgood
        refine ⟨r.map (packet[index] :: ·), rfl, fun payload => ⟨?_, ?_⟩⟩
        · intro hsome
          rw [Option.map_eq_some_iff] at hsome
          obtain ⟨rest, rfl, rfl⟩ := hsome
          obtain ⟨hlength, hascii, hbytes⟩ := (hiff rest).mp rfl
          refine ⟨by rw [List.length_cons, hlength], ?_, ?_⟩
          · intro c hc
            obtain rfl | hc := List.mem_cons.mp hc
            · exact ⟨hgood.1, hgood.2.1⟩
            · exact hascii c hc
          · rw [hbytes, hgood.2.2]
            rfl
        · rintro ⟨hlength, hascii, hbytes⟩
          obtain - | ⟨c, rest⟩ := payload
          · cases hlength
          · rw [List.flatMap_cons] at hbytes
            injection hbytes with hc hbytes
            injection hbytes with _ hbytes
            have hrest : r = some rest := (hiff rest).mpr ⟨Nat.succ.inj hlength,
              fun d hd => hascii d (List.mem_cons_of_mem _ hd), hbytes⟩
            rw [hrest, hc]
            rfl

/-! ## The fields of the packet -/

/-- The bytes of a packet at a position. -/
def slice (packet : Bytes) (index n : Nat) : Bytes := (packet.drop index).take n

theorem drop_eq_slice (packet : Bytes) (index n : Nat) :
    packet.drop index = slice packet index n ++ packet.drop (index + n) := by
  rw [slice, ← List.drop_drop, List.take_append_drop]

theorem length_slice {index n : Nat} (h : index + n ≤ packet.length) :
    (slice packet index n).length = n := by
  rw [slice, List.length_take, List.length_drop]
  omega

theorem append_eq_append {a b c d : Bytes} (h : a.length = c.length) :
    a ++ b = c ++ d ↔ a = c ∧ b = d := by
  constructor
  · intro heq
    exact List.append_inj heq h
  · rintro ⟨rfl, rfl⟩
    rfl

/-- A packet is told by its fields. -/
theorem eq_preconnection_iff (hlength : packet.length = 18 + 2 * (payload.length + 1))
    (hsmall : packet.length ≤ 256) :
    packet = preconnection payload ↔
      LittleEndian.value (slice packet 0 4) = packet.length ∧
      LittleEndian.value (slice packet 4 4) = 0 ∧ LittleEndian.value (slice packet 8 4) = 2 ∧
      LittleEndian.value (slice packet 12 4) = 0 ∧
      LittleEndian.value (slice packet 16 2) = payload.length + 1 ∧
      slice packet 18 (2 * payload.length) = (payload.flatMap fun c => [c, 0]) ∧
      packet.drop (18 + 2 * payload.length) = [0, 0] := by
  have hparts : packet = slice packet 0 4 ++ (slice packet 4 4 ++ (slice packet 8 4 ++
      (slice packet 12 4 ++ (slice packet 16 2 ++ (slice packet 18 (2 * payload.length) ++
        packet.drop (18 + 2 * payload.length)))))) := by
    rw [← drop_eq_slice, ← drop_eq_slice packet 16, ← drop_eq_slice packet 12,
      ← drop_eq_slice packet 8, ← drop_eq_slice packet 4, ← drop_eq_slice packet 0]
    rfl
  have hexpected : preconnection payload = bytes 4 packet.length ++
      (bytes 4 0 ++ (bytes 4 2 ++ (bytes 4 0 ++
        (bytes 2 (payload.length + 1) ++
          ((payload.flatMap fun c => [c, 0]) ++ [0, 0]))))) := by
    rw [preconnection, hlength, List.flatMap_append]
    simp only [List.append_assoc]
    rfl
  conv_lhs => rw [hparts, hexpected]
  have h0 : (slice packet 0 4).length = 4 := length_slice (by omega)
  have h4 : (slice packet 4 4).length = 4 := length_slice (by omega)
  have h8 : (slice packet 8 4).length = 4 := length_slice (by omega)
  have h12 : (slice packet 12 4).length = 4 := length_slice (by omega)
  have h16 : (slice packet 16 2).length = 2 := length_slice (by omega)
  have h18 : (slice packet 18 (2 * payload.length)).length = 2 * payload.length :=
    length_slice (by omega)
  rw [append_eq_append (by rw [h0, length_bytes]),
    append_eq_append (by rw [h4, length_bytes]),
    append_eq_append (by rw [h8, length_bytes]),
    append_eq_append (by rw [h12, length_bytes]),
    append_eq_append (by rw [h16, length_bytes]),
    append_eq_append (by rw [h18, length_flatMap_pair]),
    eq_bytes_iff h0 (by omega), eq_bytes_iff h4 (by omega),
    eq_bytes_iff h8 (by omega), eq_bytes_iff h12 (by omega),
    eq_bytes_iff h16 (by omega)]

theorem namesVm_ascii (g : Guard) (hid : nativeConsoleUuid g.vmId = true)
    (h : g.namesVm payload = true) : ∀ c ∈ payload, c ≠ 0 ∧ c ≤ 127 := by
  obtain ⟨id, hsame, hpayload⟩ := (g.namesVm_iff hid).mp h
  have huuid := hsame.nativeConsoleUuid hid
  intro c hc
  obtain rfl | rfl := hpayload
  · exact nativeConsoleUuid_ascii huuid hc
  · obtain hc | hc := List.mem_append.mp hc
    · exact nativeConsoleUuid_ascii huuid hc
    · have hall : (enhancedModeSuffix.all fun c => decide (c ≠ 0 ∧ c ≤ 127)) = true := by decide
      exact of_decide_eq_true (List.all_eq_true.mp hall c hc)

theorem names_iff (hid : nativeConsoleUuid vmId = true) : Names vmId packet ↔
    ∃ payload, packet = preconnection payload ∧ (after vmId packet).namesVm payload = true := by
  constructor
  · rintro ⟨id, hsame, rfl | rfl⟩
    · exact ⟨id, rfl, (namesVm_iff _ hid).mpr ⟨id, hsame, Or.inl rfl⟩⟩
    · exact ⟨_, rfl, (namesVm_iff _ hid).mpr ⟨id, hsame, Or.inr rfl⟩⟩
  · rintro ⟨payload, hpacket, hnames⟩
    obtain ⟨id, hsame, rfl | rfl⟩ := (namesVm_iff _ hid).mp hnames
    · exact ⟨_, hsame, Or.inl hpacket⟩
    · exact ⟨_, hsame, Or.inr hpacket⟩

/-- The comparison by the values that it reads. -/
theorem validate_eq {g : Guard} {flags version id : Nat} {low high first last : UInt8}
    {r : Option Bytes} (hsize : 20 ≤ g.size) (hflags : g.u32 4 = some flags)
    (hversion : g.u32 8 = some version) (hid : g.u32 12 = some id)
    (hlow : g.buffer[16]? = some low) (hhigh : g.buffer[17]? = some high)
    (hfirst : g.buffer[g.size - 2]? = some first) (hlast : g.buffer[g.size - 1]? = some last)
    (hpcb : g.pcb ((g.size - 19) / 2) 18 = some r) :
    g.validate = some (decide ((flags = 0 ∧ version = 2 ∧ id = 0) ∧
      (LittleEndian.value [low, high] ≠ 0 ∧ g.size = 18 + LittleEndian.value [low, high] * 2) ∧
      first = 0 ∧ last = 0) && r.any g.namesVm) := by
  unfold validate
  rw [if_neg (by omega), hflags, hversion, hid, hlow, hhigh, hfirst, hlast, hpcb]
  clear hpcb
  show (if flags ≠ 0 ∨ version ≠ 2 ∨ id ≠ 0 then some false
    else if LittleEndian.value [low, high] = 0 ∨ g.size ≠ 18 + LittleEndian.value [low, high] * 2
      then some false
    else if first ≠ 0 ∨ last ≠ 0 then some false
    else _) = _
  by_cases hheader : flags ≠ 0 ∨ version ≠ 2 ∨ id ≠ 0
  · rw [if_pos hheader, decide_eq_false (by omega), Bool.false_and]
  · rw [if_neg hheader]
    by_cases hcount : LittleEndian.value [low, high] = 0 ∨
        g.size ≠ 18 + LittleEndian.value [low, high] * 2
    · rw [if_pos hcount, decide_eq_false (by omega), Bool.false_and]
    · rw [if_neg hcount]
      by_cases hzero : first ≠ 0 ∨ last ≠ 0
      · rw [if_pos hzero, decide_eq_false (by tauto), Bool.false_and]
      · rw [if_neg hzero, decide_eq_true (by tauto), Bool.true_and]
        cases r <;> rfl

/-- A complete packet is compared without leaving the buffer. -/
theorem validate_after (hfield : lengthField packet = packet.length)
    (hgood : ¬ BadLength packet.length) (hid : nativeConsoleUuid vmId = true) :
    ∃ b, (after vmId packet).validate = some b ∧ (b = true ↔ Names vmId packet) := by
  have hsize : 20 ≤ packet.length ∧ packet.length ≤ 256 ∧ packet.length % 2 = 0 := by
    unfold BadLength at hgood
    omega
  have hbyte : ∀ index (h : index < packet.length),
      (after vmId packet).buffer[index]? = some packet[index] := fun index h => by
    rw [buffer_getElem? h, List.getElem?_eq_getElem]
  have hcount : slice packet 16 2 = [packet[16], packet[17]] := by
    rw [slice, List.drop_eq_getElem_cons (by omega), List.drop_eq_getElem_cons (by omega)]
    rfl
  have hlast : packet.drop (packet.length - 2) =
      [packet[packet.length - 2], packet[packet.length - 1]] := by
    rw [List.drop_eq_getElem_cons (by omega), List.drop_eq_getElem_cons (by omega),
      List.drop_eq_nil_of_le (by omega)]
    congr 2
    · congr 1
      omega
  obtain ⟨r, hr, hiff⟩ := pcb_after vmId packet ((packet.length - 19) / 2) 18
    (by omega)
  refine ⟨_, validate_eq hsize.1 (u32_after (by omega)) (u32_after (by omega))
    (u32_after (by omega)) (hbyte 16 (by omega)) (hbyte 17 (by omega))
    (hbyte (packet.length - 2) (by omega)) (hbyte (packet.length - 1) (by omega)) hr, ?_⟩
  rw [names_iff hid, Bool.and_eq_true, decide_eq_true_eq, ← hcount]
  constructor
  · rintro ⟨⟨⟨h4, h8, h12⟩, ⟨hne, heq⟩, hfirst, hzero⟩, hany⟩
    obtain ⟨payload, hpayload, hnames⟩ := (Option.any_eq_true ..).mp hany
    obtain ⟨hlength, -, hbytes⟩ := (hiff payload).mp hpayload
    replace heq : packet.length = 18 + LittleEndian.value (slice packet 16 2) * 2 := heq
    have hend : packet.length - 2 = 18 + 2 * payload.length := by omega
    refine ⟨payload, (eq_preconnection_iff (by omega) hsize.2.1).mpr
      ⟨hfield, h4, h8, h12, by omega, by rw [hlength]; exact hbytes, ?_⟩, hnames⟩
    rw [← hend, hlast, hfirst, hzero]
  · rintro ⟨payload, hpacket, hnames⟩
    have hlength : packet.length = 18 + 2 * (payload.length + 1) := by
      rw [hpacket, length_preconnection]
    have hhalf : (packet.length - 19) / 2 = payload.length := by omega
    have hend : packet.length - 2 = 18 + 2 * payload.length := by omega
    obtain ⟨-, h4, h8, h12, h16, hbytes, hzeros⟩ :=
      (eq_preconnection_iff hlength hsize.2.1).mp hpacket
    rw [← hend, hlast] at hzeros
    injection hzeros with hfirst hzeros
    injection hzeros with hzero _
    have hsome : r = some payload := (hiff payload).mpr
      ⟨hhalf.symm, namesVm_ascii _ hid hnames, by rw [hhalf]; exact hbytes⟩
    have hsized : packet.length = 18 + LittleEndian.value (slice packet 16 2) * 2 := by omega
    refine ⟨⟨⟨h4, h8, h12⟩, ⟨by omega, hsized⟩, hfirst, hzero⟩, ?_⟩
    rw [hsome]
    exact hnames

end Guard

end Ipms.Agent.Console
