import Mathlib

/-
  Ipms.ManagementJson.Value

  The JSON values of the agent's management contract: no floating point
  numbers, and objects that are maps from keys to values.  An object is its
  list of members in key order, so two equal maps are the same list.
-/

namespace Ipms.ManagementJson

/-- A management JSON value.  The members of `obj` stand in key order. -/
inductive Value where
  | null
  | bool (item : Bool)
  | int (item : Int)
  | str (item : String)
  | arr (items : List Value)
  | obj (members : List (String × Value))

/-- A standard exception, known by the text its `what()` returns. -/
structure Exn where
  what : String
  deriving DecidableEq

namespace Value

/-! ## Decidable equality -/

mutual
def same : Value → Value → Bool
  | null, null => true
  | bool a, bool b => a == b
  | int a, int b => a == b
  | str a, str b => a == b
  | arr a, arr b => sameItems a b
  | obj a, obj b => sameMembers a b
  | _, _ => false
/-- Structural equality of two arrays. -/
def sameItems : List Value → List Value → Bool
  | [], [] => true
  | a :: as, b :: bs => same a b && sameItems as bs
  | _, _ => false
/-- Structural equality of two member lists. -/
def sameMembers : List (String × Value) → List (String × Value) → Bool
  | [], [] => true
  | (k, a) :: as, (l, b) :: bs => k == l && same a b && sameMembers as bs
  | _, _ => false
end

mutual
theorem same_iff : (a b : Value) → (same a b = true ↔ a = b)
  | null, b | bool a, b | int a, b | str a, b => by cases b <;> simp [same]
  | arr a, b => by
    cases b with
    | arr b => simp [same, sameItems_iff a b]
    | _ => simp [same]
  | obj a, b => by
    cases b with
    | obj b => simp [same, sameMembers_iff a b]
    | _ => simp [same]
theorem sameItems_iff : (a b : List Value) → (sameItems a b = true ↔ a = b)
  | [], b => by cases b <;> simp [sameItems]
  | a :: as, b => by
    cases b with
    | nil => simp [sameItems]
    | cons b bs => simp [sameItems, same_iff a b, sameItems_iff as bs]
theorem sameMembers_iff : (a b : List (String × Value)) → (sameMembers a b = true ↔ a = b)
  | [], b => by cases b <;> simp [sameMembers]
  | (k, a) :: as, b => by
    cases b with
    | nil => simp [sameMembers]
    | cons b bs =>
      obtain ⟨l, b⟩ := b
      simp [sameMembers, same_iff a b, sameMembers_iff as bs, and_assoc]
end

instance : DecidableEq Value := fun a b =>
  decidable_of_iff (same a b = true) (same_iff a b)

/-! ## Typed access

`at` on a map and `as` on a variant throw when the key or the type is not
there; the texts are those of the standard exceptions. -/

/-- `std::out_of_range` from a map access. -/
def outOfRange : Exn := ⟨"map::at"⟩

/-- `std::bad_variant_access` from a typed access. -/
def badAccess : Exn := ⟨"std::get: wrong index for variant"⟩

/-- The member under a key, if the value is an object that has it. -/
def get? (v : Value) (key : String) : Option Value :=
  match v with
  | obj members => members.lookup key
  | _ => none

/-- `as<object>().at(key)`. -/
def at! (v : Value) (key : String) : Except Exn Value :=
  match v with
  | obj members => (members.lookup key).elim (.error outOfRange) .ok
  | _ => .error badAccess

/-- `as<bool>()`. -/
def asBool : Value → Except Exn Bool
  | bool b => .ok b
  | _ => .error badAccess

/-- `as<std::int64_t>()`. -/
def asInt : Value → Except Exn Int
  | int n => .ok n
  | _ => .error badAccess

/-- `as<std::string>()`. -/
def asStr : Value → Except Exn String
  | str s => .ok s
  | _ => .error badAccess

/-- `as<array>()`. -/
def asArr : Value → Except Exn (List Value)
  | arr items => .ok items
  | _ => .error badAccess

/-- `as<object>()`. -/
def asObj : Value → Except Exn (List (String × Value))
  | obj members => .ok members
  | _ => .error badAccess

variable {v : Value}

theorem at!_eq_ok {x : Value} {key : String} : v.at! key = .ok x ↔ v.get? key = some x := by
  cases v with
  | obj members =>
    simp only [at!, get?]
    cases members.lookup key <;> simp
  | _ => simp [at!, get?]

theorem asBool_eq_ok {b : Bool} : v.asBool = .ok b ↔ v = bool b := by
  cases v <;> simp [asBool]

theorem asStr_eq_ok {s : String} : v.asStr = .ok s ↔ v = str s := by
  cases v <;> simp [asStr]

theorem asInt_eq_ok {n : Int} : v.asInt = .ok n ↔ v = int n := by
  cases v <;> simp [asInt]

theorem asArr_eq_ok {items : List Value} : v.asArr = .ok items ↔ v = arr items := by
  cases v <;> simp [asArr]

theorem asObj_eq_ok {members : List (String × Value)} :
    v.asObj = .ok members ↔ v = obj members := by
  cases v <;> simp [asObj]

/-! ## Reading a typed record

A record type comes with `toJson`; a value is accepted as that record when the
typed fields can be read from it and it is exactly the record's JSON. -/

/-- The boolean under a key. -/
def bool? (v : Value) (key : String) : Option Bool :=
  match v.get? key with
  | some (bool b) => some b
  | _ => none

/-- The integer under a key. -/
def int? (v : Value) (key : String) : Option Int :=
  match v.get? key with
  | some (int n) => some n
  | _ => none

/-- The string under a key. -/
def str? (v : Value) (key : String) : Option String :=
  match v.get? key with
  | some (str s) => some s
  | _ => none

/-- The array under a key. -/
def arr? (v : Value) (key : String) : Option (List Value) :=
  match v.get? key with
  | some (arr items) => some items
  | _ => none

/-- Accept `v` as a record when `read` finds its fields and its JSON is `v` itself. -/
def exactly {α : Type} (toJson : α → Value) (read : Value → Option α) (v : Value) : Option α :=
  (read v).filter fun a => toJson a == v

variable {α : Type} {read : Value → Option α} {toJson : α → Value} {a : α}

theorem eq_of_exactly (h : exactly toJson read v = some a) : v = toJson a := by
  obtain ⟨_, heq⟩ := Option.filter_eq_some_iff.mp h
  exact (eq_of_beq heq).symm

theorem exactly_toJson (hread : read (toJson a) = some a) :
    exactly toJson read (toJson a) = some a :=
  Option.filter_eq_some_iff.mpr ⟨hread, by simp⟩

theorem exactly_eq_some (hread : ∀ a, read (toJson a) = some a) :
    exactly toJson read v = some a ↔ v = toJson a := by
  constructor
  · exact eq_of_exactly
  · rintro rfl
    exact exactly_toJson (hread a)

end Value

end Ipms.ManagementJson
