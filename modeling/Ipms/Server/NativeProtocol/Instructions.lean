import Ipms.Server.NativeProtocol.Framing

/-
  Ipms.Server.NativeProtocol.Instructions

  What a stream of instructions is, and that the framer cuts it at their ends.
  The grammar is stated on its own; the framer keeps the start of one
  instruction, and completes exactly the instructions the stream begins with.
-/

namespace Ipms.Server.NativeProtocol

open Ipms.Lib Transducer
open Ipms.Agent.Gpo (digit digitsValue)
open List (append_assoc append_nil flatten flatten_append mem_append mem_singleton)

/-! ## The grammar -/

/-- An element: a number, a dot and as many characters as the number says. -/
inductive Element : List Char → Prop
  | mk (digits content : List Char) (hnumber : number digits = true)
      (hlength : digitsValue digits = content.length) : Element (digits ++ '.' :: content)

/-- An instruction: elements between commas, up to a semicolon. -/
inductive Instruction : List Char → Prop
  | last {element : List Char} (h : Element element) : Instruction (element ++ [';'])
  | more {element rest : List Char} (h : Element element) (hrest : Instruction rest) :
      Instruction (element ++ ',' :: rest)

theorem number_ne_nil {digits : List Char} (h : number digits = true) : digits ≠ [] := by
  rintro rfl
  cases h

theorem dot_not_mem_number {digits : List Char} (h : number digits = true) : '.' ∉ digits := by
  intro hmem
  simp only [number, Bool.and_eq_true] at h
  exact absurd (List.all_eq_true.mp h.2 '.' hmem) (by decide)

namespace Framer

/-! ## Messages -/

/-- Instructions that may share a message: together they fit a chunk, or there is one alone. -/
def Fits (instructions : List (List Char)) : Prop :=
  instructions ≠ [] ∧ (chunkBytes < byteLength instructions.flatten → instructions.length = 1)

/-- A batch holds instructions in groups that fit. -/
structure Batched (b : Batch) (groups : List (List (List Char))) : Prop where
  messages : b.messages = groups.map List.flatten
  fits : ∀ g ∈ groups, Fits g
  batch : b.batch ≠ [] → Fits b.batch
  size : b.batchSize = byteLength b.batch.flatten

theorem fits_singleton (i : List Char) : Fits [i] := ⟨by simp, fun _ => rfl⟩

variable {groups : List (List (List Char))}

theorem Batched.push {b : Batch} (h : Batched b groups) (i : List Char) :
    ∃ groups', Batched (b.push i (byteLength i)) groups' ∧
      groups'.flatten ++ (b.push i (byteLength i)).batch = groups.flatten ++ b.batch ++ [i] := by
  unfold Batch.push
  by_cases hfull : b.batch ≠ [] ∧ b.batchSize + byteLength i > chunkBytes
  · rw [if_pos hfull]
    refine ⟨groups ++ [b.batch], ⟨?_, ?_, fun _ => fits_singleton i, by simp⟩, by simp⟩
    · simp [h.messages]
    · intro g hg
      rcases mem_append.mp hg with hg | hg
      · exact h.fits g hg
      · rw [mem_singleton.mp hg]
        exact h.batch hfull.1
  · rw [if_neg hfull]
    refine ⟨groups, ⟨h.messages, h.fits, fun _ => ⟨by simp, fun hlong => ?_⟩, ?_⟩, by simp⟩
    · by_cases hnil : b.batch = []
      · simp [hnil]
      · have hshort : ¬b.batchSize + byteLength i > chunkBytes := fun hgt => hfull ⟨hnil, hgt⟩
        rw [h.size] at hshort
        rw [flatten_append, byteLength_append, List.flatten_singleton] at hlong
        exact absurd hlong hshort
    · rw [h.size, flatten_append, byteLength_append, List.flatten_singleton]

theorem Batched.pushAll {b : Batch} (h : Batched b groups) (instructions : List (List Char)) :
    ∃ groups', Batched (b.pushAll instructions) groups' ∧
      groups'.flatten ++ (b.pushAll instructions).batch =
        groups.flatten ++ b.batch ++ instructions := by
  induction instructions generalizing b groups with
  | nil => exact ⟨groups, h, by simp [Batch.pushAll]⟩
  | cons i rest ih =>
    obtain ⟨groups₁, h₁, heq₁⟩ := h.push i
    obtain ⟨groups₂, h₂, heq₂⟩ := ih h₁
    refine ⟨groups₂, h₂, ?_⟩
    show groups₂.flatten ++ ((b.push i (byteLength i)).pushAll rest).batch = _
    rw [heq₂, heq₁]
    simp

theorem messagesOf_groups (instructions : List (List Char)) :
    ∃ groups : List (List (List Char)), messagesOf instructions = groups.map flatten ∧
      groups.flatten = instructions ∧ ∀ g ∈ groups, Fits g := by
  have hempty : Batched {} [] := ⟨rfl, by simp, by simp, rfl⟩
  obtain ⟨groups, h, heq⟩ := hempty.pushAll instructions
  unfold messagesOf Batch.close
  by_cases hnil : (Batch.pushAll {} instructions).batch = []
  · rw [if_pos hnil]
    rw [hnil, append_nil] at heq
    exact ⟨groups, h.messages, by simpa using heq, h.fits⟩
  · rw [if_neg hnil, h.messages]
    refine ⟨groups ++ [(Batch.pushAll {} instructions).batch], by simp, by simpa using heq, ?_⟩
    intro g hg
    rcases mem_append.mp hg with hg | hg
    · exact h.fits g hg
    · rw [mem_singleton.mp hg]
      exact h.batch hnil

theorem flatMap_messagesOf_groups (parts : List (List (List Char))) :
    ∃ groups : List (List (List Char)), parts.flatMap messagesOf = groups.map flatten ∧
      groups.flatten = parts.flatten ∧ ∀ g ∈ groups, Fits g := by
  induction parts with
  | nil => exact ⟨[], rfl, rfl, by simp⟩
  | cons part parts ih =>
    obtain ⟨first, hfirst, hflat, hfits⟩ := messagesOf_groups part
    obtain ⟨rest, hrest, hflat', hfits'⟩ := ih
    refine ⟨first ++ rest, ?_, ?_, ?_⟩
    · rw [List.flatMap_cons, hfirst, hrest, List.map_append]
    · rw [flatten_append, hflat, hflat', List.flatten_cons]
    · intro g hg
      rcases mem_append.mp hg with hg | hg
      · exact hfits g hg
      · exact hfits' g hg

/-! ## The instruction a framer has begun -/

/-- The text a framer keeps is the start of an instruction: complete elements, and the one it
reads. -/
def Begun (s : Framer) : Prop :=
  ∃ done current, s.instruction = done ++ current ∧
    (∀ rest, Instruction rest → Instruction (done ++ rest)) ∧
    match s.remaining with
    | none => current = s.lengthPrefix ∧ s.lengthPrefix.all digit = true
    | some n => s.lengthPrefix = [] ∧ ∃ digits content, number digits = true ∧
        digitsValue digits = content.length + n ∧ current = digits ++ '.' :: content

theorem begun_new (maximum : Nat) : (new maximum).Begun :=
  ⟨[], [], rfl, fun _ h => h, rfl, rfl⟩

/-- What one character does to the begun instruction: it grows, or it is complete. -/
structure Advances (s s' : Framer) (text : List Char) (outs : List (List Char)) : Prop where
  begun : s'.Begun
  maximum : s'.maximum = s.maximum
  text : s.instruction ++ text = outs.flatten ++ s'.instruction
  complete : ∀ i ∈ outs, Instruction i ∧ byteLength i ≤ s.maximum

variable {outs : List (List Char)} {s s' : Framer}

theorem begun_char {c : Char} (h : s.Begun) (hstep : s.char c = .ok (s', outs)) :
    Advances s s' [c] outs := by
  obtain ⟨done, current, htext, hdone, hcurrent⟩ := h
  cases hs : s.remaining with
  | none =>
    rw [hs] at hcurrent
    obtain ⟨rfl, hdigits⟩ := hcurrent
    by_cases hc : c = '.'
    · subst hc
      obtain ⟨t, hread, t', hdot, heq⟩ := (char_dot hs).mp hstep
      obtain ⟨⟨-, hnumber, -⟩, rfl⟩ := readDigits_nil_eq_ok.mp hread
      obtain ⟨-, rfl⟩ := readDot_eq_ok.mp hdot
      obtain ⟨rfl, rfl⟩ := Prod.mk.inj heq
      rw [append_nil] at hnumber
      refine ⟨⟨done, t.lengthPrefix ++ ['.'], ?_, hdone, rfl, t.lengthPrefix, [], hnumber, by simp,
        rfl⟩, rfl, by simp [withDot, extend], by simp⟩
      show t.instruction ++ ['.'] = _
      rw [htext, append_assoc]
    · obtain ⟨⟨-, hnumber, -⟩, heq⟩ := (char_digit hs hc).mp hstep
      obtain ⟨rfl, rfl⟩ := Prod.mk.inj heq
      simp only [number, Bool.and_eq_true] at hnumber
      refine ⟨⟨done, s.lengthPrefix ++ [c], ?_, hdone, ?_⟩, rfl, by simp [withDigits, extend],
        by simp⟩
      · show s.instruction ++ [c] = _
        rw [htext, append_assoc]
      · have hnone : (s.withDigits [c]).remaining = none := hs
        rw [hnone]
        exact ⟨rfl, hnumber.2⟩
  | some n =>
    rw [hs] at hcurrent
    obtain ⟨hstart, digits, content, hnumber, hvalue, rfl⟩ := hcurrent
    cases n with
    | succ n =>
      obtain ⟨-, heq⟩ := (char_content hs).mp hstep
      obtain ⟨rfl, rfl⟩ := Prod.mk.inj heq
      refine ⟨⟨done, digits ++ '.' :: (content ++ [c]), ?_, hdone, hstart, digits, content ++ [c],
        hnumber, ?_, rfl⟩, rfl, by simp [withContent, extend], by simp⟩
      · show s.instruction ++ [c] = _
        rw [htext]
        simp
      · rw [hvalue, List.length_append, List.length_singleton]
        omega
    | zero =>
      obtain ⟨hc, hroom, heq⟩ := (char_delimiter hs).mp hstep
      have helement : Element (digits ++ '.' :: content) := .mk digits content hnumber hvalue
      by_cases hsemi : c = ';'
      · subst hsemi
        rw [if_pos rfl] at heq
        obtain ⟨rfl, rfl⟩ := Prod.mk.inj heq
        have hinstruction : (s.withDelimiter ';').instruction =
            done ++ (digits ++ '.' :: content ++ [';']) := by
          show s.instruction ++ [';'] = _
          rw [htext, append_assoc]
        refine ⟨⟨[], [], rfl, fun _ h => h, hstart.symm, by
          show s.lengthPrefix.all digit = true
          rw [hstart]
          rfl⟩, rfl, ?_, ?_⟩
        · simp [reset, withDelimiter, extend]
        · intro i hi
          obtain rfl := mem_singleton.mp hi
          refine ⟨?_, ?_⟩
          · rw [hinstruction]
            exact hdone _ (.last helement)
          · have hsize := (s.withDelimiter ';').size_eq
            rw [← hsize]
            exact hroom
      · rw [if_neg hsemi] at heq
        obtain ⟨rfl, rfl⟩ := Prod.mk.inj heq
        obtain rfl : c = ',' := hc.resolve_right hsemi
        refine ⟨⟨done ++ (digits ++ '.' :: content) ++ [','], [], ?_, ?_, hstart.symm, by
          show s.lengthPrefix.all digit = true
          rw [hstart]
          rfl⟩, rfl, by simp [withDelimiter, extend], by simp⟩
        · show s.instruction ++ [','] = _
          rw [htext, append_nil, append_assoc]
        · intro rest hrest
          have hmore := hdone _ (.more helement hrest)
          simpa using hmore

theorem begun_chars {text : List Char} (h : s.Begun) (hrun : s.chars text = .ok (s', outs)) :
    Advances s s' text outs := by
  induction text generalizing s outs with
  | nil =>
    obtain ⟨rfl, rfl⟩ := Prod.mk.inj (Except.ok.inj hrun)
    exact ⟨h, rfl, by simp, by simp⟩
  | cons c rest ih =>
    have hsplit : c :: rest = [c] ++ rest := rfl
    rw [hsplit] at hrun
    obtain ⟨mid, first, more, hfirst, hmore, rfl⟩ := (run_append_eq_ok _).mp hrun
    rw [run_singleton] at hfirst
    have hstep := begun_char h hfirst
    have hrest := ih hstep.begun hmore
    refine ⟨hrest.begun, hrest.maximum.trans hstep.maximum, ?_, ?_⟩
    · have hhead := hstep.text
      have htail := hrest.text
      calc s.instruction ++ c :: rest
          = s.instruction ++ [c] ++ rest := by simp
        _ = first.flatten ++ (mid.instruction ++ rest) := by rw [hhead, append_assoc]
        _ = (first ++ more).flatten ++ s'.instruction := by
            rw [htail, flatten_append, append_assoc]
    · intro i hi
      rcases mem_append.mp hi with hi | hi
      · exact hstep.complete i hi
      · have hbound := hrest.complete i hi
        rw [hstep.maximum] at hbound
        exact hbound

/-! ## An instruction on its own -/

/-- A framer that expects the length of an element. -/
def AtElement (s : Framer) : Prop := s.remaining = none ∧ s.lengthPrefix = []

/-- The framer after an element. -/
def withElement (s : Framer) (element : List Char) : Framer :=
  { s.extend element with lengthPrefix := [], remaining := some 0 }

theorem chars_element {element : List Char} (hs : s.AtElement) (h : Element element)
    (hrun : s.chars element = .ok (s', outs)) : s' = s.withElement element ∧ outs = [] := by
  obtain ⟨digits, content, hnumber, hlength⟩ := h
  have hsplit : digits ++ '.' :: content = digits ++ ['.'] ++ content := by simp
  rw [hsplit] at hrun
  obtain ⟨mid, first, more, hfirst, hmore, rfl⟩ := (run_append_eq_ok _).mp hrun
  obtain ⟨t, hread, t', hdot, heq⟩ := (chars_length hs.1 (dot_not_mem_number hnumber)).mp hfirst
  obtain ⟨-, rfl⟩ := readDigits_eq_ok.mp hread
  obtain ⟨-, rfl⟩ := readDot_eq_ok.mp hdot
  obtain ⟨rfl, rfl⟩ := Prod.mk.inj heq
  have hremaining : (s.withDigits digits).withDot.remaining = some content.length := by
    show some (digitsValue (s.lengthPrefix ++ digits)) = _
    rw [hs.2, List.nil_append, hlength]
  by_cases hnil : content = []
  · subst hnil
    obtain ⟨rfl, rfl⟩ := Prod.mk.inj (Except.ok.inj hmore)
    refine ⟨?_, rfl⟩
    apply Framer.ext
    · rfl
    · exact append_assoc _ _ _
    · rfl
    · exact hremaining
  · obtain ⟨-, heq⟩ := (chars_content hremaining (Nat.le_refl _) hnil).mp hmore
    obtain ⟨rfl, rfl⟩ := Prod.mk.inj heq
    refine ⟨?_, rfl⟩
    apply Framer.ext
    · rfl
    · show s.instruction ++ digits ++ ['.'] ++ content = s.instruction ++ (digits ++ '.' :: content)
      simp
    · rfl
    · show some (content.length - content.length) = some 0
      rw [Nat.sub_self]

/-- A framer that reads an instruction without failing completes it. -/
theorem chars_instruction {i : List Char} (hs : s.AtElement) (h : Instruction i)
    (hrun : s.chars i = .ok (s', outs)) : s' = s.reset ∧ outs = [s.instruction ++ i] := by
  induction h generalizing s s' outs with
  | @last element helement =>
    obtain ⟨mid, first, more, hfirst, hmore, rfl⟩ := (run_append_eq_ok _).mp hrun
    obtain ⟨rfl, rfl⟩ := chars_element hs helement hfirst
    rw [run_singleton] at hmore
    obtain ⟨-, -, heq⟩ := (char_delimiter (s := s.withElement element) rfl).mp hmore
    rw [if_pos rfl] at heq
    obtain ⟨rfl, rfl⟩ := Prod.mk.inj heq
    refine ⟨?_, ?_⟩
    · apply Framer.ext
      · rfl
      · rfl
      · exact hs.2.symm
      · exact hs.1.symm
    · show [s.instruction ++ element ++ [';']] = _
      rw [append_assoc]
  | @more element rest helement hrest ih =>
    have hsplit : element ++ ',' :: rest = element ++ [','] ++ rest := by simp
    rw [hsplit] at hrun
    obtain ⟨mid, first, more, hfirst, hmore, rfl⟩ := (run_append_eq_ok _).mp hrun
    obtain ⟨mid', first', more', hfirst', hmore', rfl⟩ :=
      (run_append_eq_ok _).mp hfirst
    obtain ⟨rfl, rfl⟩ := chars_element hs helement hfirst'
    rw [run_singleton] at hmore'
    obtain ⟨-, -, heq⟩ := (char_delimiter (s := s.withElement element) rfl).mp hmore'
    rw [if_neg (by decide)] at heq
    obtain ⟨rfl, rfl⟩ := Prod.mk.inj heq
    obtain ⟨rfl, rfl⟩ := ih (s := (s.withElement element).withDelimiter ',') ⟨rfl, rfl⟩ hmore
    refine ⟨?_, ?_⟩
    · apply Framer.ext
      · rfl
      · rfl
      · exact hs.2.symm
      · exact hs.1.symm
    · show [s.instruction ++ element ++ [','] ++ rest] = _
      simp

theorem chars_instructions {maximum : Nat} {instructions : List (List Char)}
    (h : ∀ i ∈ instructions, Instruction i)
    (hrun : (new maximum).chars instructions.flatten = .ok (s, outs)) :
    s = new maximum ∧ outs = instructions := by
  induction instructions generalizing outs with
  | nil =>
    obtain ⟨rfl, rfl⟩ := Prod.mk.inj (Except.ok.inj hrun)
    exact ⟨rfl, rfl⟩
  | cons i rest ih =>
    rw [List.flatten_cons] at hrun
    obtain ⟨mid, first, more, hfirst, hmore, rfl⟩ := (run_append_eq_ok _).mp hrun
    obtain ⟨rfl, rfl⟩ := chars_instruction ⟨rfl, rfl⟩ (h i List.mem_cons_self) hfirst
    obtain ⟨rfl, rfl⟩ := ih (fun j hj => h j (List.mem_cons_of_mem _ hj)) hmore
    exact ⟨rfl, rfl⟩

/-! ## Splitting -/

/-- What a framer that did not fail has made of a stream. -/
structure Framed (maximum : Nat) (stream : List Char) (s : Framer)
    (groups : List (List (List Char))) : Prop where
  /-- a message of more than a chunk is a single instruction -/
  fits : ∀ g ∈ groups, Fits g
  instructions : ∀ i ∈ groups.flatten, Instruction i ∧ byteLength i ≤ maximum
  start : (groups.map List.flatten).flatten <+: stream
  /-- no instruction the stream begins with is left out -/
  complete : ∀ instructions : List (List Char), (∀ i ∈ instructions, Instruction i) →
    instructions.flatten <+: stream → instructions <+: groups.flatten
  finish : s.finish = .ok () ↔ ∃ instructions : List (List Char),
    (∀ i ∈ instructions, Instruction i) ∧ stream = instructions.flatten

theorem byteLength_eq_zero {text : List Char} : byteLength text = 0 ↔ text = [] := by
  constructor
  · intro h
    have hle := length_le_byteLength text
    exact List.length_eq_zero_iff.mp (by omega)
  · rintro rfl
    rfl

theorem finish_eq_ok : s.finish = .ok () ↔ s.instruction = [] := by
  unfold finish
  rw [← byteLength_eq_zero, ← s.size_eq]
  by_cases h : s.size = 0
  · simp [h]
  · simp [h]

theorem framed_of_chars {maximum : Nat} {stream : List Char}
    (hrun : (new maximum).chars stream = .ok (s, outs)) (hgroups : groups.flatten = outs)
    (hfits : ∀ g ∈ groups, Fits g) : Framed maximum stream s groups := by
  have hadvances := begun_chars (begun_new maximum) hrun
  have htext : stream = outs.flatten ++ s.instruction := hadvances.text
  refine ⟨hfits, ?_, ?_, ?_, ?_⟩
  · rw [hgroups]
    exact hadvances.complete
  · rw [← List.flatten_flatten, hgroups, htext]
    exact List.prefix_append _ _
  · rintro instructions hinstructions ⟨tail, rfl⟩
    obtain ⟨mid, first, rest, hfirst, -, rfl⟩ := (run_append_eq_ok _).mp hrun
    obtain ⟨-, rfl⟩ := chars_instructions hinstructions hfirst
    rw [hgroups]
    exact List.prefix_append _ _
  · rw [finish_eq_ok]
    constructor
    · intro hnil
      rw [hnil, append_nil] at htext
      exact ⟨outs, fun i hi => (hadvances.complete i hi).1, htext⟩
    · rintro ⟨instructions, hinstructions, rfl⟩
      obtain ⟨rfl, -⟩ := chars_instructions hinstructions hrun
      rfl

/-- Either every way of splitting a stream into calls of `feed` fails, or every way leaves the same
state and puts out, in messages of whole instructions, those the stream begins with. -/
theorem feeds_splitting (maximum : Nat) (stream : List Char) :
    (∀ chunks : List (List Char), chunks.flatten = stream →
      ∃ e, (new maximum).feeds chunks = .error e) ∨
    ∃ s, ∀ chunks : List (List Char), chunks.flatten = stream → ∃ groups,
      (new maximum).feeds chunks = .ok (s, groups.map List.flatten) ∧
        Framed maximum stream s groups := by
  cases hrun : (new maximum).chars stream with
  | error e =>
    refine .inl fun chunks hchunks => ?_
    rcases run_chunks feed_groups (new maximum) chunks with
      ⟨s, parts, hstep, -⟩ | ⟨e', -, hfeed⟩
    · rw [hchunks, show run char (new maximum) stream = _ from hrun] at hstep
      cases hstep
    · exact ⟨e', hfeed⟩
  | ok r =>
    refine .inr ⟨r.1, fun chunks hchunks => ?_⟩
    rcases run_chunks feed_groups (new maximum) chunks with
      ⟨s, parts, hstep, hfeed⟩ | ⟨e', hstep, -⟩
    · rw [hchunks, show run char (new maximum) stream = _ from hrun] at hstep
      obtain ⟨groups, hmessages, hflat, hfits⟩ := flatMap_messagesOf_groups parts
      obtain ⟨rfl, houts⟩ := Prod.mk.inj (Except.ok.inj hstep)
      refine ⟨groups, ?_, framed_of_chars hrun (hflat.trans houts.symm) hfits⟩
      rw [← hmessages]
      exact hfeed
    · rw [hchunks, show run char (new maximum) stream = _ from hrun] at hstep
      cases hstep

-- An element may hold every delimiter, and a chunk may end inside its length.
example : (new 64).feeds ["3.a;".toList, ",,1".toList, ".b;2".toList] =
    .ok ({ maximum := 64, instruction := ['2'], size := 1, lengthPrefix := ['2'] },
      ["3.a;,,1.b;".toList]) := by
  rfl

end Framer

end Ipms.Server.NativeProtocol
