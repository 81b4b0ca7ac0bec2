import Mathlib.Data.List.Forall2
import Ipms.Server.NativeProtocol.Codec

/-
  Ipms.Server.NativeProtocol.Forwarding

  The console broker between a browser and guacd.  Every instruction of a browser
  message is inspected and written again, so guacd reads the instructions that
  were inspected and no other.
-/

namespace Ipms.Server.NativeProtocol

open Ipms.Lib Transducer
open Ipms.Agent.Gpo (digit digitsValue)
open List (all_eq_true flatMap_cons length_append length_cons map_cons mem_cons mem_cons_of_mem mem_cons_self nil_append)

/-! ## The filter -/

/-- The numbers of arguments of the instructions a browser may send. -/
def argumentCounts (opcode : List Char) : Option (List Nat) :=
  if opcode = "key".toList then some [2]
  else if opcode = "mouse".toList then some [3]
  else if opcode = "size".toList then some [2, 3]
  else if opcode = "sync".toList then some [1, 2]
  else if opcode = "ack".toList then some [3]
  else if opcode = "nop".toList then some [0]
  else if opcode = "disconnect".toList then some [0]
  else none

/-- An argument of an instruction: a number, or the message of an acknowledgement. -/
def argumentFits (opcode : List Char) (index : Nat) (value : List Char) : Bool :=
  if opcode = "ack".toList ∧ index = 1 then decide (value.length ≤ 256)
  else number value && decide (value.length ≤ 20)

def validateBrowserInstruction (opcode : List Char) (arguments : Values) :
    Except ProtocolError Unit :=
  let argument := fun i => arguments.getD i []
  let value := fun i => digitsValue (argument i)
  if (argumentCounts opcode).all (fun counts => counts.contains arguments.length = false) then
    .error .native
  else if (arguments.zipIdx.all fun (v, i) => argumentFits opcode i v) = false then .error .native
  else if opcode = "key".toList ∧
      (value 0 > 0xffffffff ∨ argument 1 ≠ ['0'] ∧ argument 1 ≠ ['1']) then .error .native
  else if opcode = "mouse".toList ∧ (value 0 > 8192 ∨ value 1 > 8192 ∨ value 2 > 255) then
    .error .native
  else if opcode = "size".toList ∧
      ((arguments.take 2).all fun v => decide (200 ≤ digitsValue v) && decide (digitsValue v ≤ 3840)) =
        false then .error .native
  else .ok ()

/-- The instruction `to_guacd` writes for an instruction of the browser: a `nop` for a ping. -/
def forward : Values → Except ProtocolError Values
  | [] => .error .native
  | opcode :: arguments =>
    if opcode = [] then
      if arguments.length ≠ 2 ∨ arguments.getD 0 [] ≠ "ping".toList ∨
          number (arguments.getD 1 []) = false then .error .native
      else .ok ["nop".toList]
    else do
      validateBrowserInstruction opcode arguments
      pure (opcode :: arguments)

/-- The instructions of a message in turn: whether all are accepted, and the text written so far. -/
def forwardAll : List Values → List Char → Except ProtocolError Unit × List Char
  | [], sent => (.ok (), sent)
  | instruction :: rest, sent =>
    match forward instruction with
    | .error e => (.error e, sent)
    | .ok forwarded => forwardAll rest (sent ++ guac forwarded)

/-- Decimal text of a number. -/
def decimal (n : Nat) : List Char := Nat.toDigits 10 n

/-- The keys of a secure attention sequence. -/
def secureAttentionText : List Char :=
  [(65507, 1), (65513, 1), (65535, 1), (65535, 0), (65513, 0), (65507, 0)].flatMap
    fun (key, pressed) => guac ["key".toList, decimal key, decimal pressed]

/-- The instructions a browser message stands for.  `secureAttention` tells the documents that are
the request of a secure attention sequence. -/
def browserText (secureAttention : List Char → Bool) (message : List Char) :
    Except ProtocolError (List Char) :=
  if message.head? = some '{' then
    if secureAttention message = false then .error .native else .ok secureAttentionText
  else .ok message

/-- `to_guacd` on one message: whether it is accepted, and the text written to guacd. -/
def toGuacd (secureAttention : List Char → Bool) (message : List Char) :
    Except ProtocolError Unit × List Char :=
  match browserText secureAttention message >>= fun text => guacInstructions text with
  | .error e => (.error e, [])
  | .ok instructions => forwardAll instructions []

/-! ## What is written -/

/-- The instruction guacd receives for one that was inspected. -/
def received (instruction : Values) : Values :=
  if instruction.head? = some [] then ["nop".toList] else instruction

variable {instruction : Values}

theorem forward_eq_ok {forwarded : Values} (h : forward instruction = .ok forwarded) :
    forwarded = received instruction ∧
      (instruction.head? = some [] → 3 ≤ instruction.length) := by
  cases instruction with
  | nil => cases h
  | cons opcode arguments =>
    rw [forward] at h
    unfold received
    simp only [List.head?_cons, Option.some.injEq]
    split at h
    · next hping =>
        split at h
        · cases h
        rename_i hchecks
        rw [not_or, not_not] at hchecks
        rw [if_pos hping]
        exact ⟨(Except.ok.inj h).symm, fun _ => by rw [length_cons, hchecks.1]⟩
    · next hopcode =>
        rw [if_neg hopcode]
        obtain ⟨-, -, h⟩ := bind_eq_ok.mp h
        exact ⟨(pure_eq_ok.mp h).symm, fun hnil => absurd hnil hopcode⟩

variable {instructions : List Values}

theorem forwardAll_eq {sent : List Char} (h : (forwardAll instructions sent).1 = .ok ()) :
    (forwardAll instructions sent).2 = sent ++ (instructions.map received).flatMap guac ∧
      ∀ i ∈ instructions, i.head? = some [] → 3 ≤ i.length := by
  induction instructions generalizing sent with
  | nil => simp [forwardAll]
  | cons instruction rest ih =>
    unfold forwardAll at h ⊢
    cases hforward : forward instruction with
    | error e => rw [hforward] at h; cases h
    | ok forwarded =>
      rw [hforward] at h
      obtain ⟨rfl, hlength⟩ := forward_eq_ok hforward
      obtain ⟨htext, hrest⟩ := ih h
      refine ⟨?_, ?_⟩
      · simp only [htext, map_cons, flatMap_cons, List.append_assoc]
      · intro i hi
        rcases mem_cons.mp hi with rfl | hi
        · exact hlength
        · exact hrest i hi

/-! ### Written text is no longer than read text -/

theorem length_guac_ge (instruction : Values) :
    3 * instruction.length ≤ (guac instruction).length + 1 := by
  induction instruction with
  | nil => simp
  | cons value rest ih =>
    have helement : 2 ≤ (guacElement value).length := by
      have hpos := Nat.length_toDigits_pos (b := 10) (n := value.length)
      simp only [guacElement, length_append, length_cons]
      omega
    cases rest with
    | nil =>
      rw [guac_singleton, length_append, List.length_singleton, List.length_singleton]
      omega
    | cons next rest =>
      rw [guac_cons_cons]
      simp only [length_append, length_cons] at ih ⊢
      omega

theorem length_received_le {text : List Char} (h : Spells text instruction)
    (hping : instruction.head? = some [] → 3 ≤ instruction.length) :
    (guac (received instruction)).length ≤ text.length := by
  have hlength := length_guac_le h
  unfold received
  split
  · next hhead =>
      have hthree := hping hhead
      have hpos := length_guac_ge instruction
      have hnop : (guac ["nop".toList]).length = 6 := by decide
      omega
  · exact hlength

theorem length_flatMap_received_le {texts : List (List Char)}
    (h : List.Forall₂ Spells texts instructions)
    (hping : ∀ i ∈ instructions, i.head? = some [] → 3 ≤ i.length) :
    ((instructions.map received).flatMap guac).length ≤ texts.flatten.length := by
  induction h with
  | nil => exact Nat.le_refl 0
  | @cons text instruction texts instructions hspells hrest ih =>
    have hfirst := length_received_le hspells (hping instruction mem_cons_self)
    have htail := ih fun i hi => hping i (mem_cons_of_mem _ hi)
    simp only [map_cons, flatMap_cons, length_append, List.flatten_cons]
    omega

theorem ascii_instructions {texts : List (List Char)} (h : List.Forall₂ Spells texts instructions)
    (hascii : ascii texts.flatten = true) :
    ∀ i ∈ instructions, i ≠ [] ∧ ∀ value ∈ i, ascii value = true := by
  induction h with
  | nil => simp
  | @cons text instruction texts instructions hspells hrest ih =>
    rw [List.flatten_cons, ascii_append, Bool.and_eq_true] at hascii
    intro i hi
    rcases mem_cons.mp hi with rfl | hi
    · exact ⟨spells_ne_nil hspells, ascii_spells hspells hascii.1⟩
    · exact ih hascii.2 i hi

theorem ascii_received (h : instruction ≠ [] ∧ ∀ value ∈ instruction, ascii value = true) :
    received instruction ≠ [] ∧ ∀ value ∈ received instruction, ascii value = true := by
  unfold received
  split
  · refine ⟨by simp, fun value hvalue => ?_⟩
    obtain rfl := List.mem_singleton.mp hvalue
    decide
  · exact h

/-! ## What guacd reads -/

namespace Framer

theorem byteLength_ascii {text : List Char} (h : ascii text = true) :
    byteLength text = text.length := by
  induction text with
  | nil => rfl
  | cons c rest ih =>
    have hc : c.toNat < 128 := of_decide_eq_true (all_eq_true.mp h c mem_cons_self)
    have hone : c.utf8Size = 1 := Char.utf8Size_eq_one_iff.mpr (by
      rw [UInt32.le_iff_toNat_le]
      exact Nat.le_of_lt_succ hc)
    rw [byteLength_cons, length_cons, hone,
      ih (all_eq_true.mpr fun d hd => all_eq_true.mp h d (mem_cons_of_mem _ hd))]
    omega

/-- The framer reads a written element, with room for it and its delimiter. -/
theorem chars_guacElement {s : Framer} {value : List Char} (hs : s.AtElement)
    (hvalue : value.length ≤ maxInstructionBytes)
    (hroom : s.size + byteLength (guacElement value) + 1 ≤ s.maximum) :
    s.chars (guacElement value) = .ok (s.withElement (guacElement value), []) := by
  have hdigits : (Nat.toDigits 10 value.length).length ≤ 7 :=
    (Nat.length_toDigits_le_iff (by decide) (by decide)).mpr (Nat.lt_of_le_of_lt hvalue (by decide))
  have hnumber := number_toDigits value.length
  have hbytes : byteLength (guacElement value) =
      byteLength (Nat.toDigits 10 value.length) + 1 + byteLength value := by
    unfold guacElement
    rw [byteLength_append, byteLength_cons]
    have hdot : ('.').utf8Size = 1 := by decide
    omega
  have hchars := length_le_byteLength value
  have hfit : s.DigitsFit (Nat.toDigits 10 value.length) := by
    unfold DigitsFit
    rw [hs.2, nil_append]
    exact ⟨by omega, hnumber, by omega⟩
  have hstart : (s.withDigits (Nat.toDigits 10 value.length)).lengthPrefix =
      Nat.toDigits 10 value.length := by
    show s.lengthPrefix ++ _ = _
    rw [hs.2, nil_append]
  have hdot : (s.withDigits (Nat.toDigits 10 value.length)).readDot =
      .ok (s.withDigits (Nat.toDigits 10 value.length)).withDot := by
    refine readDot_eq_ok.mpr ⟨?_, rfl⟩
    rw [hstart, digitsValue_toDigits]
    show s.size + byteLength (Nat.toDigits 10 value.length) + 1 + value.length + 1 ≤ s.maximum
    omega
  have hlength := (chars_length hs.1 (dot_not_mem_number hnumber)).mpr
    ⟨_, readDigits_eq_ok.mpr ⟨hfit, rfl⟩, _, hdot, rfl⟩
  have hsplit : guacElement value = Nat.toDigits 10 value.length ++ ['.'] ++ value := by
    simp [guacElement]
  have hremaining : (s.withDigits (Nat.toDigits 10 value.length)).withDot.remaining =
      some value.length := by
    show some (digitsValue (s.withDigits (Nat.toDigits 10 value.length)).lengthPrefix) = _
    rw [hstart, digitsValue_toDigits]
  have hrun : ∃ s', s.chars (guacElement value) = .ok (s', []) := by
    rw [hsplit]
    by_cases hnil : value = []
    · subst hnil
      rw [List.append_nil]
      exact ⟨_, hlength⟩
    · refine ⟨_, (run_append_eq_ok _).mpr ⟨_, [], [], hlength,
        (chars_content hremaining (Nat.le_refl _) hnil).mpr ⟨?_, rfl⟩, rfl⟩⟩
      show s.size + byteLength (Nat.toDigits 10 value.length) + 1 + byteLength value ≤ s.maximum
      omega
  obtain ⟨s', hs'⟩ := hrun
  have helement : Element (guacElement value) := .mk _ _ hnumber (digitsValue_toDigits _)
  obtain ⟨rfl, -⟩ := chars_element hs helement hs'
  exact hs'

/-- The framer completes a written instruction. -/
theorem chars_guac {s : Framer} {instruction : Values} (hs : s.AtElement) (hne : instruction ≠ [])
    (hvalues : ∀ value ∈ instruction, value.length ≤ maxInstructionBytes)
    (hroom : s.size + byteLength (guac instruction) ≤ s.maximum) :
    s.chars (guac instruction) = .ok (s.reset, [s.instruction ++ guac instruction]) := by
  induction instruction generalizing s with
  | nil => exact absurd rfl hne
  | cons value rest ih =>
    have hvalue := hvalues value mem_cons_self
    cases rest with
    | nil =>
      rw [guac_singleton] at hroom ⊢
      rw [byteLength_append] at hroom
      have hone : byteLength [';'] = 1 := by decide
      have helement := chars_guacElement hs hvalue (by omega)
      have hdelimiter := (char_delimiter (s := s.withElement (guacElement value)) (c := ';')
        rfl).mpr ⟨.inr rfl, by
          show s.size + byteLength (guacElement value) + byteLength [';'] ≤ s.maximum
          omega, rfl⟩
      rw [if_pos rfl, ← run_singleton char] at hdelimiter
      have hrun := (run_append_eq_ok char).mpr
        ⟨_, _, _, helement, hdelimiter, rfl⟩
      refine hrun.trans ?_
      congr 2
      · apply Framer.ext
        · rfl
        · rfl
        · exact hs.2.symm
        · exact hs.1.symm
      · show [s.instruction ++ guacElement value ++ [';']] = _
        rw [List.append_assoc]
    | cons next rest =>
      rw [guac_cons_cons] at hroom ⊢
      rw [byteLength_append, byteLength_cons] at hroom
      have hone : byteLength [','] = 1 ∧ (',').utf8Size = 1 := by decide
      have helement := chars_guacElement hs hvalue (by omega)
      have hdelimiter := (char_delimiter (s := s.withElement (guacElement value)) (c := ',')
        rfl).mpr ⟨.inl rfl, by
          show s.size + byteLength (guacElement value) + byteLength [','] ≤ s.maximum
          omega, rfl⟩
      rw [if_neg (by decide), ← run_singleton char] at hdelimiter
      have hnext := ih (s := (s.withElement (guacElement value)).withDelimiter ',') ⟨rfl, rfl⟩
        (by simp) (fun v hv => hvalues v (mem_cons_of_mem _ hv)) (by
          show s.size + byteLength (guacElement value) + byteLength [','] + _ ≤ s.maximum
          omega)
      have hsplit : guacElement value ++ ',' :: guac (next :: rest) =
          guacElement value ++ ([','] ++ guac (next :: rest)) := rfl
      rw [hsplit]
      have hrun := (run_append_eq_ok char).mpr ⟨_, _, _, helement,
        (run_append_eq_ok char).mpr ⟨_, _, _, hdelimiter, hnext, rfl⟩, rfl⟩
      refine hrun.trans ?_
      congr 2
      · apply Framer.ext
        · rfl
        · rfl
        · exact hs.2.symm
        · exact hs.1.symm
      · show [s.instruction ++ guacElement value ++ [','] ++ guac (next :: rest)] = _
        simp

theorem chars_flatMap_guac (maximum : Nat) (hne : ∀ i ∈ instructions, i ≠ [])
    (hvalues : ∀ i ∈ instructions, ∀ value ∈ i, value.length ≤ maxInstructionBytes)
    (hroom : ∀ i ∈ instructions, byteLength (guac i) ≤ maximum) :
    (new maximum).chars (instructions.flatMap guac) = .ok (new maximum, instructions.map guac) := by
  induction instructions with
  | nil => rfl
  | cons i rest ih =>
    have hfirst := chars_guac (s := new maximum) ⟨rfl, rfl⟩ (hne i mem_cons_self)
      (hvalues i mem_cons_self) (by
        show 0 + byteLength (guac i) ≤ maximum
        rw [Nat.zero_add]
        exact hroom i mem_cons_self)
    have hrest := ih (fun j hj => hne j (mem_cons_of_mem _ hj))
      (fun j hj => hvalues j (mem_cons_of_mem _ hj))
      fun j hj => hroom j (mem_cons_of_mem _ hj)
    rw [flatMap_cons, map_cons]
    exact (run_append_eq_ok char).mpr ⟨_, _, _, hfirst, hrest, rfl⟩

end Framer

/-- The instructions of a text, as the framer cuts it in one call. -/
def Frames (text : List Char) (instructions : List (List Char)) : Prop :=
  ∃ groups : List (List (List Char)), groups.flatten = instructions ∧
    (Framer.new maxInstructionBytes).feed text =
      .ok (Framer.new maxInstructionBytes, groups.map List.flatten)

theorem frames_flatMap_guac (hne : ∀ i ∈ instructions, i ≠ [])
    (hascii : ∀ i ∈ instructions, ∀ value ∈ i, ascii value = true)
    (hlength : (instructions.flatMap guac).length ≤ chunkBytes) :
    Frames (instructions.flatMap guac) (instructions.map guac) := by
  have hrun := Framer.chars_flatMap_guac maxInstructionBytes hne
    (fun i hi value hvalue => Nat.le_trans (length_le_guac hvalue)
      (Nat.le_trans (length_le_flatMap hi) (Nat.le_trans hlength (by decide))))
    fun i hi => by
      rw [Framer.byteLength_ascii (ascii_guac (hascii i hi))]
      exact Nat.le_trans (length_le_flatMap hi) (Nat.le_trans hlength (by decide))
  obtain ⟨groups, hmessages, hflat, -⟩ := Framer.messagesOf_groups (instructions.map guac)
  refine ⟨groups, hflat, ?_⟩
  rw [Framer.feed_groups, show run Framer.char _ _ = _ from hrun, ← hmessages]
  rfl

/-- Reading gives back written instructions, accepts nothing but them, and what is written to guacd
for an accepted message of a browser reads as the instructions that were inspected. -/
theorem guac_codec :
    (∀ instructions : List Values,
      (∀ i ∈ instructions, i ≠ [] ∧ ∀ value ∈ i, ascii value = true) →
      (instructions.flatMap guac).length ≤ chunkBytes →
      guacInstructions (instructions.flatMap guac) = .ok instructions) ∧
    (∀ text instructions, guacInstructions text = .ok instructions →
      ∃ texts, text = texts.flatten ∧ List.Forall₂ Spells texts instructions) ∧
    ∀ secureAttention message, (toGuacd secureAttention message).1 = .ok () →
      ∃ text instructions, browserText secureAttention message = .ok text ∧
        guacInstructions text = .ok instructions ∧
        guacInstructions (toGuacd secureAttention message).2 = .ok (instructions.map received) ∧
        Frames (toGuacd secureAttention message).2 ((instructions.map received).map guac) := by
  refine ⟨?_, ?_, ?_⟩
  · intro instructions h hlength
    exact guacInstructions_guac (fun i hi => (h i hi).1) (fun i hi => (h i hi).2) hlength
  · intro text instructions h
    exact (guacInstructions_spells h).2.2
  · intro secureAttention message h
    unfold toGuacd at h ⊢
    cases hread : browserText secureAttention message >>= fun text => guacInstructions text with
    | error e => rw [hread] at h; cases h
    | ok instructions =>
      rw [hread] at h
      obtain ⟨text, htext, hinstructions⟩ := bind_eq_ok.mp hread
      obtain ⟨hsent, hping⟩ := forwardAll_eq h
      obtain ⟨hascii, hlength, texts, rfl, hspells⟩ := guacInstructions_spells hinstructions
      have hparts : ∀ i ∈ instructions.map received,
          i ≠ [] ∧ ∀ value ∈ i, ascii value = true := by
        intro i hi
        obtain ⟨j, hj, rfl⟩ := List.mem_map.mp hi
        exact ascii_received (ascii_instructions hspells hascii j hj)
      have hshort := Nat.le_trans (length_flatMap_received_le hspells hping) hlength
      refine ⟨texts.flatten, instructions, htext, hinstructions, ?_, ?_⟩
      · simp only [hsent, nil_append]
        exact guacInstructions_guac (fun i hi => (hparts i hi).1) (fun i hi => (hparts i hi).2)
          hshort
      · simp only [hsent, nil_append]
        exact frames_flatMap_guac (fun i hi => (hparts i hi).1) (fun i hi => (hparts i hi).2)
          hshort

-- The value of the pressed key is a number, so it cannot end the instruction early.
example : forward ["key".toList, "65".toList, "1;".toList] = .error .native := by decide

/-! ## A stream of written instructions -/

theorem instruction_guac (h : instruction ≠ []) : Instruction (guac instruction) := by
  have helement : ∀ value, Element (guacElement value) := fun value =>
    .mk _ _ (number_toDigits _) (digitsValue_toDigits _)
  induction instruction with
  | nil => exact absurd rfl h
  | cons value rest ih =>
    cases rest with
    | nil =>
      rw [guac_singleton]
      exact .last (helement value)
    | cons next rest =>
      rw [guac_cons_cons]
      exact .more (helement value) (ih (by simp))

variable {maximum : Nat}

theorem chars_flatMap_guac_iff (hmaximum : maximum ≤ maxInstructionBytes)
    (hne : ∀ i ∈ instructions, i ≠ []) {r : Framer × List (List Char)} :
    (Framer.new maximum).chars (instructions.flatMap guac) = .ok r ↔
      (∀ i ∈ instructions, byteLength (guac i) ≤ maximum) ∧
        r = (Framer.new maximum, instructions.map guac) := by
  constructor
  · intro h
    have hinstructions : ∀ i ∈ instructions.map guac, Instruction i := by
      intro i hi
      obtain ⟨j, hj, rfl⟩ := List.mem_map.mp hi
      exact instruction_guac (hne j hj)
    rw [List.flatMap_def] at h
    obtain ⟨hstate, houts⟩ := Framer.chars_instructions hinstructions h
    -- what was completed was counted against the limit
    have hcomplete := (Framer.begun_chars (Framer.begun_new maximum) h).complete
    rw [houts] at hcomplete
    exact ⟨fun i hi => (hcomplete _ (List.mem_map_of_mem hi)).2, Prod.ext hstate houts⟩
  · rintro ⟨hroom, rfl⟩
    refine Framer.chars_flatMap_guac maximum hne (fun i hi value hvalue => ?_) hroom
    have hvalue := length_le_guac hvalue
    have hbytes := length_le_byteLength (guac i)
    have hi := hroom i hi
    omega

theorem groups_of_map {groups : List (List (List Char))} (h : groups.flatten = instructions.map guac) :
    ∃ parts : List (List Values), parts.flatten = instructions ∧ groups = parts.map (·.map guac) := by
  induction groups generalizing instructions with
  | nil => exact ⟨[], (List.map_eq_nil_iff.mp h.symm).symm, rfl⟩
  | cons group groups ih =>
    obtain ⟨first, rest, rfl, rfl, hrest⟩ := List.append_eq_map_iff.mp h
    obtain ⟨parts, rfl, rfl⟩ := ih hrest.symm
    exact ⟨first :: parts, rfl, rfl⟩

/-- However a stream of written instructions is cut, the framer accepts it exactly when no
instruction is longer than its limit.  It is then at the start of an instruction, its messages are
the instructions in order, a message of more than a chunk is one of them, and a message that may be
read back is read as the instructions it was made of. -/
theorem feeds_guac (hmaximum : maximum ≤ maxInstructionBytes) (hne : ∀ i ∈ instructions, i ≠ [])
    {chunks : List (List Char)} (hchunks : chunks.flatten = instructions.flatMap guac) :
    ((∃ r, (Framer.new maximum).feeds chunks = .ok r) ↔
      ∀ i ∈ instructions, byteLength (guac i) ≤ maximum) ∧
    ∀ r, (Framer.new maximum).feeds chunks = .ok r → ∃ groups : List (List Values),
      groups.flatten = instructions ∧
        r = (Framer.new maximum, groups.map fun g => g.flatMap guac) ∧
        ∀ g ∈ groups, (chunkBytes < byteLength (g.flatMap guac) → g.length = 1) ∧
          ((∀ i ∈ g, ∀ value ∈ i, ascii value = true) →
            byteLength (g.flatMap guac) ≤ chunkBytes →
            guacInstructions (g.flatMap guac) = .ok g) := by
  rcases run_chunks Framer.feed_groups (Framer.new maximum) chunks with
    ⟨s, parts, hrun, hfeed⟩ | ⟨e, hrun, hfeed⟩
  · rw [hchunks] at hrun
    obtain ⟨hroom, heq⟩ := (chars_flatMap_guac_iff hmaximum hne).mp hrun
    obtain ⟨rfl, hparts⟩ := Prod.mk.inj heq
    refine ⟨⟨fun _ => hroom, fun _ => ⟨_, hfeed⟩⟩, fun r hr => ?_⟩
    obtain rfl := Except.ok.inj (hr.symm.trans hfeed)
    -- the messages of all calls together are the instructions in groups
    obtain ⟨groups, hmessages, hflat, hfits⟩ := Framer.flatMap_messagesOf_groups parts
    obtain ⟨groups, rfl, rfl⟩ := groups_of_map (hflat.trans hparts)
    refine ⟨groups, rfl, Prod.ext rfl ?_, fun g hg => ⟨fun hlong => ?_, fun hascii hshort => ?_⟩⟩
    · rw [hmessages, List.map_map]
      rfl
    · have hone := (hfits _ (List.mem_map_of_mem hg)).2 hlong
      rwa [List.length_map] at hone
    · exact guacInstructions_guac (fun i hi => hne i (List.mem_flatten.mpr ⟨g, hg, hi⟩)) hascii
        (Nat.le_trans (length_le_byteLength _) hshort)
  · rw [hchunks] at hrun
    refine ⟨⟨fun ⟨r, hr⟩ => ?_, fun hroom => ?_⟩, fun r hr => ?_⟩
    · cases hr.symm.trans hfeed
    · cases ((chars_flatMap_guac_iff hmaximum hne).mpr ⟨hroom, rfl⟩).symm.trans hrun
    · cases hr.symm.trans hfeed

/-- A stream cut inside a length, of an element that holds every delimiter. -/
theorem feeds_guac_name :
    ∃ groups : List (List Values), groups.flatten = [["name".toList, ".;,".toList], [[]]] ∧
      ∀ g ∈ groups, guacInstructions (g.flatMap guac) = .ok g := by
  have h := @feeds_guac [["name".toList, ".;,".toList], [[]]] 64 (by decide) (by decide)
    ["4.na".toList, "me,3".toList, "..;,;0.;".toList] (by decide)
  obtain ⟨groups, hflat, heq, hgroups⟩ :=
    h.2 (Framer.new 64, ["4.name,3..;,;0.;".toList]) (by rfl)
  refine ⟨groups, hflat, fun g hg => (hgroups g hg).2 ?_ ?_⟩
  · have hascii : ∀ i ∈ groups.flatten, ∀ value ∈ i, ascii value = true := by
      rw [hflat]
      decide
    exact fun i hi => hascii i (List.mem_flatten.mpr ⟨g, hg, hi⟩)
  · have hmem := List.mem_map_of_mem (f := fun g : List Values => g.flatMap guac) hg
    rw [← (Prod.mk.inj heq).2] at hmem
    rw [List.mem_singleton.mp hmem]
    decide

end Ipms.Server.NativeProtocol
