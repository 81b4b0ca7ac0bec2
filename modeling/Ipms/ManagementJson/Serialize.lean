import Ipms.Lib.Throwing
import Ipms.ManagementJson.Value

/-
  Ipms.ManagementJson.Serialize

  The deterministic contract serializer: a writer with an output buffer and a
  node count that throws as soon as a limit is passed.  `render` is the text it
  is meant to produce; `writeValue_spec` says when it does and when it throws.
-/

namespace Ipms.ManagementJson

open Ipms.Lib

/-- The bytes of a document. -/
abbrev Bytes := List UInt8

/-- The UTF-8 bytes of a text. -/
def utf8 (s : String) : Bytes := s.toList.flatMap String.utf8EncodeChar

/-- Bounds on a document; values and object keys both count as nodes. -/
structure Limits where
  documentBytes : Nat := 64 * 1024
  depth : Nat := 8
  nodes : Nat := 4096
  stringBytes : Nat := 16 * 1024
  deriving DecidableEq

/-- The error does not repeat untrusted document contents. -/
def invalidDocument : Exn := ⟨"Invalid or over-limit management JSON."⟩

/-- Callers may lower the limits, never raise them. -/
def Limits.valid (bounds : Limits) : Bool :=
  let maximum : Limits := {}
  bounds.documentBytes != 0 && decide (bounds.documentBytes ≤ maximum.documentBytes) &&
    decide (bounds.depth ≤ maximum.depth) && bounds.nodes != 0 &&
    decide (bounds.nodes ≤ maximum.nodes) && decide (bounds.stringBytes ≤ maximum.stringBytes)

/-- The serializer's fields. -/
structure Writer where
  output : Bytes := []
  nodes : Nat := 0
  deriving DecidableEq

/-- One step of the serializer. -/
abbrev Write := Prog Writer Exn

/-- Count a node. -/
def node (bounds : Limits) : Write Unit := do
  modify fun w => { w with nodes := w.nodes + 1 }
  throwIf ((← get).nodes > bounds.nodes) invalidDocument

/-- Append text while the document stays within its size. -/
def append (bounds : Limits) (text : Bytes) : Write Unit := do
  throwIf (text.length > bounds.documentBytes - (← get).output.length) invalidDocument
  modify fun w => { w with output := w.output ++ text }

/-- The lowercase hexadecimal digit of a number below 16. -/
def hexDigit (n : Nat) : UInt8 :=
  if n < 10 then (48 + n).toUInt8 else (87 + n).toUInt8

/-- The bytes a character stands for inside a string. -/
def escape (c : Char) : Bytes :=
  if c = '"' then [92, 34]
  else if c = '\\' then [92, 92]
  else if c.val = 8 then [92, 98]
  else if c.val = 12 then [92, 102]
  else if c.val = 10 then [92, 110]
  else if c.val = 13 then [92, 114]
  else if c.val = 9 then [92, 116]
  else if c.val < 0x20 then [92, 117, 48, 48, hexDigit (c.toNat / 16), hexDigit (c.toNat % 16)]
  else String.utf8EncodeChar c

/-- Write the characters of a string. -/
def writeChars (bounds : Limits) : List Char → Write Unit
  | [] => pure ()
  | c :: rest => do
    append bounds (escape c)
    writeChars bounds rest

/-- Write a quoted string. -/
def writeString (bounds : Limits) (text : String) : Write Unit := do
  throwIf ((utf8 text).length > bounds.stringBytes) invalidDocument
  append bounds [34]
  writeChars bounds text.toList
  append bounds [34]

/-- The decimal digits of a natural number. -/
def natDigits (n : Nat) : Bytes := (Nat.toDigits 10 n).flatMap String.utf8EncodeChar

/-- `std::to_chars` of an integer. -/
def toChars (n : Int) : Bytes :=
  if n < 0 then 45 :: natDigits n.natAbs else natDigits n.natAbs

/-- The comma before every element but the first. -/
def comma (bounds : Limits) (first : Bool) : Write Unit :=
  if first then pure () else append bounds [44]

mutual
/-- Write a value at a nesting depth. -/
def writeValue (bounds : Limits) : Value → Nat → Write Unit
  | .null, _ => do node bounds; append bounds [110, 117, 108, 108]
  | .bool true, _ => do node bounds; append bounds [116, 114, 117, 101]
  | .bool false, _ => do node bounds; append bounds [102, 97, 108, 115, 101]
  | .int n, _ => do node bounds; append bounds (toChars n)
  | .str s, _ => do node bounds; writeString bounds s
  | .arr items, depth => do
    node bounds
    throwIf (depth ≥ bounds.depth) invalidDocument
    append bounds [91]
    writeItems bounds items true (depth + 1)
    append bounds [93]
  | .obj members, depth => do
    node bounds
    throwIf (depth ≥ bounds.depth) invalidDocument
    append bounds [123]
    writeMembers bounds members true (depth + 1)
    append bounds [125]
/-- Write the items of an array, with a comma before each but the first. -/
def writeItems (bounds : Limits) : List Value → Bool → Nat → Write Unit
  | [], _, _ => pure ()
  | item :: rest, first, depth => do
    comma bounds first
    writeValue bounds item depth
    writeItems bounds rest false depth
/-- Write the members of an object, with a comma before each but the first. -/
def writeMembers (bounds : Limits) : List (String × Value) → Bool → Nat → Write Unit
  | [], _, _ => pure ()
  | (key, item) :: rest, first, depth => do
    comma bounds first
    node bounds
    writeString bounds key
    append bounds [58]
    writeValue bounds item depth
    writeMembers bounds rest false depth
end

/-- Serialize a document within bounds. -/
def serialize (document : Value) (bounds : Limits := {}) : Except Exn Bytes :=
  if !bounds.valid then .error invalidDocument
  else match (writeValue bounds document 0).exec {} with
    | (.ok _, w) => .ok w.output
    | (.error e, _) => .error e

/-! ## The text a value stands for -/

/-- A quoted string. -/
def renderString (s : String) : Bytes := 34 :: s.toList.flatMap escape ++ [34]

mutual
/-- The contract text of a value: members in their order and no whitespace. -/
def render : Value → Bytes
  | .null => [110, 117, 108, 108]
  | .bool true => [116, 114, 117, 101]
  | .bool false => [102, 97, 108, 115, 101]
  | .int n => toChars n
  | .str s => renderString s
  | .arr items => 91 :: renderItems items true ++ [93]
  | .obj members => 123 :: renderMembers members true ++ [125]
/-- The text of the items of an array. -/
def renderItems : List Value → Bool → Bytes
  | [], _ => []
  | item :: rest, first => (if first then [] else [44]) ++ render item ++ renderItems rest false
/-- The text of the members of an object. -/
def renderMembers : List (String × Value) → Bool → Bytes
  | [], _ => []
  | (key, item) :: rest, first =>
    (if first then [] else [44]) ++ renderString key ++ [58] ++ render item ++
      renderMembers rest false
end

mutual
def nodeCount : Value → Nat
  | .arr items => 1 + nodeCountItems items
  | .obj members => 1 + nodeCountMembers members
  | _ => 1
/-- How many nodes the items of an array count for. -/
def nodeCountItems : List Value → Nat
  | [] => 0
  | item :: rest => nodeCount item + nodeCountItems rest
/-- How many nodes the members of an object count for, keys included. -/
def nodeCountMembers : List (String × Value) → Nat
  | [] => 0
  | (_, item) :: rest => 1 + nodeCount item + nodeCountMembers rest
end

mutual
/-- Whether nesting and string lengths stay within bounds at a depth. -/
def within (bounds : Limits) : Value → Nat → Bool
  | .str s, _ => decide ((utf8 s).length ≤ bounds.stringBytes)
  | .arr items, depth => decide (depth < bounds.depth) && withinItems bounds items (depth + 1)
  | .obj members, depth =>
    decide (depth < bounds.depth) && withinMembers bounds members (depth + 1)
  | _, _ => true
/-- `within` for each item of an array. -/
def withinItems (bounds : Limits) : List Value → Nat → Bool
  | [], _ => true
  | item :: rest, depth => within bounds item depth && withinItems bounds rest depth
/-- `within` for each member of an object. -/
def withinMembers (bounds : Limits) : List (String × Value) → Nat → Bool
  | [], _ => true
  | (key, item) :: rest, depth =>
    decide ((utf8 key).length ≤ bounds.stringBytes) && within bounds item depth &&
      withinMembers bounds rest depth
end

/-! ## What the writer does -/

/-- A writer that has taken more text and nodes. -/
def Writer.grow (w : Writer) (text : Bytes) (count : Nat) : Writer :=
  { output := w.output ++ text, nodes := w.nodes + count }

@[simp] theorem Writer.grow_output (w : Writer) (text : Bytes) (count : Nat) :
    (w.grow text count).output = w.output ++ text := rfl

@[simp] theorem Writer.grow_nodes (w : Writer) (text : Bytes) (count : Nat) :
    (w.grow text count).nodes = w.nodes + count := rfl

theorem Writer.grow_grow (w : Writer) (s t : Bytes) (m n : Nat) :
    (w.grow s m).grow t n = w.grow (s ++ t) (m + n) := by
  simp [Writer.grow, Nat.add_assoc]

/-- A step writes `text` and counts `count` nodes when `ok` holds and the limits
leave room, and throws the document error otherwise. -/
def Writes (bounds : Limits) (p : Write Unit) (ok : Bool) (text : Bytes) (count : Nat) : Prop :=
  ∀ w : Writer, w.output.length ≤ bounds.documentBytes → w.nodes ≤ bounds.nodes →
    p.wp
      (fun _ w' => w' = w.grow text count ∧ ok = true ∧
        w'.output.length ≤ bounds.documentBytes ∧ w'.nodes ≤ bounds.nodes)
      (fun e _ => e = invalidDocument ∧ ¬(ok = true ∧
        w.output.length + text.length ≤ bounds.documentBytes ∧ w.nodes + count ≤ bounds.nodes)) w

section
variable (bounds : Limits)

theorem writes_pure : Writes bounds (pure ()) true [] 0 := by
  intro w hb hn
  simp [Writer.grow, hb, hn]

variable {bounds} in
theorem Writes.bind {p q : Write Unit} {okp okq : Bool} {s t : Bytes} {m n : Nat}
    (hp : Writes bounds p okp s m) (hq : Writes bounds q okq t n) :
    Writes bounds (p >>= fun _ => q) (okp && okq) (s ++ t) (m + n) := by
  intro w hb hn
  rw [Prog.wp_bind]
  refine Prog.wp_mono (hp w hb hn) ?_ ?_
  · rintro _ w' ⟨rfl, hok, hb', hn'⟩
    refine Prog.wp_mono (hq _ hb' hn') ?_ ?_
    · rintro _ w'' ⟨rfl, hok', hb'', hn''⟩
      refine ⟨Writer.grow_grow .., by simp [hok, hok'], hb'', hn''⟩
    · rintro e _ ⟨rfl, hno⟩
      refine ⟨rfl, fun ⟨hall, hbytes, hnodes⟩ => hno ?_⟩
      simp only [Bool.and_eq_true] at hall
      simp only [Writer.grow_output, Writer.grow_nodes, List.length_append] at hbytes ⊢
      exact ⟨hall.2, by omega, by omega⟩
  · rintro e _ ⟨rfl, hno⟩
    refine ⟨rfl, fun ⟨hall, hbytes, hnodes⟩ => hno ?_⟩
    simp only [Bool.and_eq_true] at hall
    simp only [List.length_append] at hbytes
    exact ⟨hall.1, by omega, by omega⟩

theorem writes_node : Writes bounds (node bounds) true [] 1 := by
  intro w hb hn
  simp only [node, Prog.wp_bind, Prog.wp_modify, Prog.wp_get, Prog.wp_throwIf]
  refine ⟨fun h => ⟨trivial, fun hall => ?_⟩, fun h => ⟨?_, trivial, ?_, ?_⟩⟩
  · omega
  · simp [Writer.grow]
  · simpa using hb
  · simpa using h

theorem writes_append (text : Bytes) : Writes bounds (append bounds text) true text 0 := by
  intro w hb hn
  simp only [append, Prog.wp_bind, Prog.wp_modify, Prog.wp_get, Prog.wp_throwIf]
  refine ⟨fun h => ⟨trivial, fun hall => ?_⟩, fun h => ⟨?_, trivial, ?_, hn⟩⟩
  · omega
  · simp [Writer.grow]
  · simp only [List.length_append]
    omega

theorem writes_guard {c : Prop} [Decidable c] :
    Writes bounds (throwIf c invalidDocument) (decide ¬c) [] 0 := by
  intro w hb hn
  simp only [Prog.wp_throwIf]
  refine ⟨fun hc => ⟨trivial, fun hall => ?_⟩, fun hc => ⟨by simp [Writer.grow], by simp [hc], hb, hn⟩⟩
  simp [hc] at hall

theorem writes_chars : (cs : List Char) →
    Writes bounds (writeChars bounds cs) true (cs.flatMap escape) 0
  | [] => writes_pure bounds
  | c :: rest => by
    have h := (writes_append bounds (escape c)).bind (writes_chars rest)
    simpa [writeChars] using h

theorem writes_string (s : String) :
    Writes bounds (writeString bounds s) (decide ((utf8 s).length ≤ bounds.stringBytes))
      (renderString s) 0 := by
  have h := (writes_guard bounds (c := (utf8 s).length > bounds.stringBytes)).bind
    ((writes_append bounds [34]).bind ((writes_chars bounds s.toList).bind (writes_append bounds [34])))
  simpa [writeString, renderString] using h

theorem writes_comma (first : Bool) :
    Writes bounds (comma bounds first) true (if first then [] else [44]) 0 := by
  cases first with
  | true => exact writes_pure bounds
  | false => exact writes_append bounds [44]

mutual
/-- The writer produces exactly the rendered text, or throws when a limit is passed. -/
theorem writes_value : (v : Value) → (depth : Nat) →
    Writes bounds (writeValue bounds v depth) (within bounds v depth) (render v) (nodeCount v)
  | .null, _ | .bool true, _ | .bool false, _ => by
    simpa [writeValue, within, render, nodeCount] using
      (writes_node bounds).bind (writes_append bounds _)
  | .int n, _ => by
    simpa [writeValue, within, render, nodeCount] using
      (writes_node bounds).bind (writes_append bounds (toChars n))
  | .str s, _ => by
    simpa [writeValue, within, render, nodeCount] using
      (writes_node bounds).bind (writes_string bounds s)
  | .arr items, depth => by
    have h := (writes_node bounds).bind
      ((writes_guard bounds (c := depth ≥ bounds.depth)).bind ((writes_append bounds [91]).bind
        ((writes_items items true (depth + 1)).bind (writes_append bounds [93]))))
    simpa [writeValue, within, render, nodeCount] using h
  | .obj members, depth => by
    have h := (writes_node bounds).bind
      ((writes_guard bounds (c := depth ≥ bounds.depth)).bind ((writes_append bounds [123]).bind
        ((writes_members members true (depth + 1)).bind (writes_append bounds [125]))))
    simpa [writeValue, within, render, nodeCount] using h
theorem writes_items : (items : List Value) → (first : Bool) → (depth : Nat) →
    Writes bounds (writeItems bounds items first depth) (withinItems bounds items depth)
      (renderItems items first) (nodeCountItems items)
  | [], _, _ => by simpa [writeItems, withinItems, renderItems, nodeCountItems] using writes_pure bounds
  | item :: rest, first, depth => by
    have h := (writes_comma bounds first).bind
      ((writes_value item depth).bind (writes_items rest false depth))
    simpa [writeItems, withinItems, renderItems, nodeCountItems] using h
theorem writes_members : (members : List (String × Value)) → (first : Bool) → (depth : Nat) →
    Writes bounds (writeMembers bounds members first depth) (withinMembers bounds members depth)
      (renderMembers members first) (nodeCountMembers members)
  | [], _, _ => by
    simpa [writeMembers, withinMembers, renderMembers, nodeCountMembers] using writes_pure bounds
  | (key, item) :: rest, first, depth => by
    have h := (writes_comma bounds first).bind ((writes_node bounds).bind
      ((writes_string bounds key).bind ((writes_append bounds [58]).bind
        ((writes_value item depth).bind (writes_members rest false depth)))))
    simpa [writeMembers, withinMembers, renderMembers, nodeCountMembers, Nat.add_assoc,
      Bool.and_assoc] using h
end

end

/-- A value fits the bounds: valid bounds, nesting, strings, size and nodes. -/
def fits (v : Value) (bounds : Limits := {}) : Bool :=
  bounds.valid && within bounds v 0 && decide ((render v).length ≤ bounds.documentBytes) &&
    decide (nodeCount v ≤ bounds.nodes)

theorem serialize_eq (v : Value) (bounds : Limits) :
    serialize v bounds = if fits v bounds then .ok (render v) else .error invalidDocument := by
  unfold serialize
  by_cases hv : bounds.valid = true
  · have h := writes_value bounds v 0 {} (Nat.zero_le _) (Nat.zero_le _)
    unfold Prog.wp at h
    revert h
    rcases (writeValue bounds v 0).exec {} with ⟨r, w⟩
    intro h
    cases r with
    | ok u =>
      obtain ⟨rfl, hok, hb, hn⟩ := h
      simp only [Writer.grow_output, Writer.grow_nodes, List.nil_append, Nat.zero_add] at hb hn
      simp [hv, fits, hok, hb, hn, Writer.grow]
    | error e =>
      obtain ⟨rfl, hno⟩ := h
      simp only [List.length_nil, Nat.zero_add] at hno
      have hfits : fits v bounds = false := by
        rw [Bool.eq_false_iff]
        intro hf
        simp only [fits, Bool.and_eq_true, decide_eq_true_eq] at hf
        exact hno ⟨hf.1.1.2, hf.1.2, hf.2⟩
      simp [hv, hfits]
  · simp [hv, fits]

end Ipms.ManagementJson
