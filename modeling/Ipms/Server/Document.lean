import Mathlib.Data.List.Perm.Subperm
import Ipms.Server.Text

/-
  Ipms.Server.Document

  What the control plane asks of the documents of a request: their keys, the
  lengths of their texts, and their canonical form in ASCII; and what a request
  may raise.
-/

namespace Ipms.Server

open Ipms.ManagementJson

/-! ## Keys -/

/-- `set(document) == names`. -/
def keysAre (document : List (String × Value)) (names : List String) : Bool :=
  document.all (fun m => names.contains m.1) && names.all fun name => (document.map (·.1)).contains name

theorem keysAre_of_length {document : List (String × Value)} {names : List String} (hnodup : names.Nodup)
    (hlength : document.length = names.length)
    (hget : ∀ name ∈ names, ∃ v, (Value.obj document).get? name = some v) :
    keysAre document names = true := by
  have hkey : ∀ name ∈ names, name ∈ document.map (·.1) := by
    intro name hname
    obtain ⟨v, hv⟩ := hget name hname
    have hsome : (document.lookup name).isSome = true := by
      rw [show document.lookup name = some v from hv]
      rfl
    obtain ⟨m, hm, heq⟩ := List.lookup_isSome_iff.mp hsome
    rw [eq_of_beq heq]
    exact List.mem_map_of_mem hm
  have hperm : names.Perm (document.map (·.1)) :=
    (List.subperm_of_subset hnodup hkey).perm_of_length_le
      (Nat.le_of_eq (by rw [List.length_map, hlength]))
  simp only [keysAre, Bool.and_eq_true, List.all_eq_true, List.contains_iff_mem]
  exact ⟨fun m hm => hperm.mem_iff.mpr (List.mem_map_of_mem hm), hkey⟩

def len (s : String) : Nat := s.toList.length

theorem len_le_size (s : String) : len s ≤ Agent.Gpo.size s := by
  have h : ∀ cs : List Char, cs.length ≤ (cs.flatMap String.utf8EncodeChar).length := by
    intro cs
    induction cs with
    | nil => exact Nat.le_refl 0
    | cons c cs ih =>
      obtain ⟨first, tail, henc⟩ : ∃ first tail, String.utf8EncodeChar c = first :: tail :=
        List.exists_cons_of_length_pos (by rw [String.length_utf8EncodeChar]; exact c.utf8Size_pos)
      simp only [List.length_cons, List.flatMap_cons, List.length_append, henc]
      omega
  exact h s.toList

/-- A UTF-16 code unit as an escape. -/
def escapeUnit (n : Nat) : List Char :=
  ['\\', 'u', Nat.digitChar (n / 4096 % 16), Nat.digitChar (n / 256 % 16),
    Nat.digitChar (n / 16 % 16), Nat.digitChar (n % 16)]

/-- `ensure_ascii` also escapes what is not printable ASCII, which only strings hold. -/
def escapeAscii (c : Char) : List Char :=
  let n := c.toNat
  if n < 0x7f then [c]
  else if n < 0x10000 then escapeUnit n
  else escapeUnit (0xd800 + (n - 0x10000) / 0x400) ++ escapeUnit (0xdc00 + (n - 0x10000) % 0x400)

/-- What a request may raise. -/
inductive ServerError where
  | validationError (message : String)
  | parseError (message : String)
  | publicApiError (code : String) (status : Nat)
  | permissionDenied (message : String)
  | authenticationFailed (message : String)
  | notFound
  | integrityError
  | valueError
  | keyError
  | typeError
  | overflowError
  | doesNotExist
  | multipleObjectsReturned
  | invalidSignature
  | invalidTag
  deriving DecidableEq

/-- `APIException`: the errors a view answers, and a rollout handles. -/
def ServerError.api : ServerError → Bool
  | .parseError _ | .publicApiError _ _ | .permissionDenied _ | .authenticationFailed _
  | .notFound => true
  | _ => false

end Ipms.Server
