import Mathlib.Data.List.TakeWhile
import Ipms.Agent.HyperV.Settings
import Ipms.Lib.Lookup
import Ipms.ManagementJson.Size

/-
  Ipms.Server.HyperV.SettingsAgreement

  The control plane and the agent check a change of settings apart.  What the
  control plane admits the agent makes; a change of memory leaves it ordered, and
  while the machine runs only widens it; and what the agent reports as done the
  control plane accepts.
-/

namespace Ipms.Server.HyperV

open Ipms.ManagementJson Ipms.Lib
open Ipms.Agent.HyperV (SettingsCommand nameCharacter notesCharacter patched settingsPostcondition
  settingsResultName validMemoryOrder validSettingsName validSettingsNotes)
open Agent.HyperV (checkChange invalidCommand settingsChange validMemoryMember validSettingsValues within)

/-! ## Documents -/

/-- The keys of an object. -/
def keys : Value → List String
  | .obj members => members.map (·.1)
  | _ => []

/-- No key stands twice in a document of parameters or among its values, as in every map. -/
structure Keyed (parameters : Value) : Prop where
  fields : (keys parameters).Nodup
  values : ∀ values, parameters.get? "values" = some values → (keys values).Nodup

theorem length_of_keysAre {document : List (String × Value)} {names : List String}
    (hnodup : (document.map (·.1)).Nodup) (hnames : names.Nodup) (h : keysAre document names = true) :
    document.length = names.length := by
  simp only [keysAre, Bool.and_eq_true, List.all_eq_true, List.contains_iff_mem] at h
  exact Nat.le_antisymm (length_le_of_keys hnodup h.1) (length_le_of_names hnames h.2)

/-! ## Texts -/

theorem serialize_text {s : String} (h : Agent.Gpo.size s ≤ 4096) :
    (serialize (.str s)).toOption.isSome = true := by
  have hrender : (renderString s).length ≤ 6 * (utf8 s).length + 2 := (length_renderString_bounds s).2
  have hsize : (utf8 s).length ≤ 4096 := h
  have hfits : fits (.str s) = true := by
    simp only [fits, Bool.and_eq_true, decide_eq_true_eq]
    refine ⟨⟨⟨by decide, ?_⟩, ?_⟩, (by decide : 1 ≤ 4096)⟩
    · simp only [ManagementJson.within, decide_eq_true_eq]
      omega
    · show (renderString s).length ≤ 64 * 1024
      omega
  rw [serialize_eq, if_pos hfits]
  rfl

theorem exists_ne_space {cs : List Char} (h : strip cs ≠ []) : ∃ c ∈ cs, c ≠ ' ' := by
  by_contra hall
  push Not at hall
  refine h ?_
  have hdrop : cs.dropWhile space = [] := by
    rw [List.dropWhile_eq_nil_iff]
    intro c hc
    rw [hall c hc]
    decide
  unfold strip
  rw [hdrop]
  rfl

theorem validText_char {s : String} {maximum : Nat} {blank : Bool} (h : validText s maximum blank = true)
    {c : Char} (hc : c ∈ s.toList) :
    32 ≤ c.toNat ∨ c = '\r' ∨ c = '\n' ∨ c = '\t' := by
  simp only [validText, Bool.and_eq_true, List.all_eq_true] at h
  have hchar := h.2 c hc
  simp only [Bool.not_eq_true', Bool.and_eq_false_iff, decide_eq_false_iff_not, Bool.not_eq_false',
    Bool.or_eq_true, beq_iff_eq] at hchar
  rcases hchar with hlow | (hr | hn) | ht
  · exact .inl (by omega)
  · exact .inr (.inl hr)
  · exact .inr (.inr (.inl hn))
  · exact .inr (.inr (.inr ht))

theorem ne_delete {s : String} (h : (!s.toList.contains '\x7f') = true) {c : Char}
    (hc : c ∈ s.toList) : c.toNat ≠ 0x7f := by
  intro hdelete
  have heq : c = '\x7f' := Char.toNat_inj.mp hdelete
  rw [heq, ← List.contains_iff_mem] at hc
  rw [hc] at h
  cases h

/-- A name the portal admits is one for the agent. -/
theorem validSettingsName_of_portal {s : String}
    (htext : validGeneralText ("name", .str s) = true) (hunits : 2 * utf16Units s ≤ 200)
    (hsize : Agent.Gpo.size s ≤ 256) (hname : validName s = true) : validSettingsName s = true := by
  simp only [validGeneralText, Bool.and_eq_true] at htext
  obtain ⟨htext, hdelete⟩ := htext
  simp only [validName, Bool.and_eq_true, Bool.not_eq_true', List.isEmpty_eq_false_iff,
    List.all_eq_true, Bool.or_eq_false_iff, beq_eq_false_iff_ne] at hname
  obtain ⟨hblank, hline⟩ := hname
  obtain ⟨c, hc, hspace⟩ := exists_ne_space hblank
  have hchars : s.toList.all nameCharacter = true := by
    rw [List.all_eq_true]
    intro d hd
    have hlow : 32 ≤ d.toNat := by
      obtain ⟨⟨hr, hn⟩, ht⟩ := hline d hd
      rcases validText_char htext hd with hlow | heq | heq | heq
      · exact hlow
      · exact absurd heq hr
      · exact absurd heq hn
      · exact absurd heq ht
    have hne := ne_delete hdelete hd
    simp [nameCharacter, hne, Nat.not_lt.mpr hlow]
  have hsome : s.toList.any (· != ' ') = true := List.any_eq_true.mpr ⟨c, hc, by simpa using hspace⟩
  have hnonempty : (s != "") = true := by
    rw [bne_iff_ne]
    rintro rfl
    cases hc
  have hwrites := serialize_text (s := s) (by omega)
  have hcount : (s.toList.map utf16Size).sum ≤ 100 := by
    have hdouble : 2 * (s.toList.map utf16Size).sum ≤ 200 := hunits
    omega
  unfold validSettingsName
  rw [hnonempty, hchars, hsome, hwrites, decide_eq_true hsize, decide_eq_true hcount]
  rfl

theorem validSettingsNotes_of_portal {s : String}
    (htext : validGeneralText ("notes", .str s) = true) (hsize : Agent.Gpo.size s ≤ 4096) :
    validSettingsNotes s = true := by
  simp only [validGeneralText, Bool.and_eq_true] at htext
  obtain ⟨htext, hdelete⟩ := htext
  have hchars : s.toList.all notesCharacter = true := by
    rw [List.all_eq_true]
    intro d hd
    have hne := ne_delete hdelete hd
    rcases validText_char htext hd with hlow | rfl | rfl | rfl
    · simp [notesCharacter, hne, Nat.not_lt.mpr hlow]
    · decide
    · decide
    · decide
  unfold validSettingsNotes
  rw [hchars, serialize_text hsize, decide_eq_true hsize]
  rfl

/-! ## Parameters -/

theorem integer_eq {v : Value} {low high : Int} :
    within v low high = integer v high low := by
  cases v <;> rfl

variable {values : List (String × Value)}

theorem validGeneral_of_portal (hnodup : (values.map (·.1)).Nodup)
    (hkeys : ∀ m ∈ values, m.1 = "name" ∨ m.1 = "notes") (h : validGeneral values = true) :
    values.all Agent.HyperV.validGeneralMember = true := by
  simp only [validGeneral, Bool.and_eq_true, List.all_eq_true, decide_eq_true_eq] at h
  obtain ⟨⟨⟨⟨htexts, hunits⟩, hsize⟩, hnotes⟩, hname⟩ := h
  rw [List.all_eq_true]
  rintro ⟨key, v⟩ hm
  have htext := htexts _ hm
  have hlookup := (lookup_eq_some_iff hnodup).mpr hm
  cases v with
  | str s =>
    have hof : textOf values key = s := by
      unfold textOf
      rw [hlookup]
    rcases hkeys _ hm with heq | heq
    · obtain rfl : key = "name" := heq
      rw [hof] at hunits hsize hname
      rw [hlookup] at hname
      exact validSettingsName_of_portal htext hunits hsize (by simpa using hname)
    · obtain rfl : key = "notes" := heq
      rw [hof] at hnotes
      exact validSettingsNotes_of_portal htext hnotes
  | _ => cases htext

theorem validMemory_of_portal
    (hkeys : ∀ m ∈ values, m.1 ∈ ["startup_mib", "minimum_mib", "maximum_mib", "dynamic_enabled"])
    {sparse : Bool} (h : validMemory values sparse = true) :
    values.all validMemoryMember = true := by
  simp only [validMemory, Bool.and_eq_true, List.all_eq_true] at h
  rw [List.all_eq_true]
  rintro ⟨key, v⟩ hm
  have hvalue := h.1 _ hm
  have hkey := hkeys _ hm
  simp only [List.mem_cons, List.not_mem_nil, or_false] at hkey
  unfold validMemoryMember
  rcases hkey with rfl | rfl | rfl | rfl
  · rw [integer_eq]
    exact hvalue
  · rw [integer_eq]
    exact hvalue
  · rw [integer_eq]
    exact hvalue
  · cases v <;> first | rfl | cases hvalue

theorem validMemoryOrder_of_portal {startup minimum maximum dynamicEnabled : Option Value}
    (horder : ordered minimum startup maximum = true)
    (hminimum : minimum.any (integer · (2 ^ 40) 1) = true)
    (hmaximum : maximum.any (integer · (2 ^ 40) 1) = true)
    (hdynamic : dynamicEnabled.any boolean = true) :
    validMemoryOrder startup minimum maximum dynamicEnabled = true := by
  obtain ⟨d, rfl, hd⟩ := Option.any_eq_true _ _ |>.mp hdynamic
  cases d with
  | bool b =>
    unfold ordered at horder
    split at horder
    · simp only [Bool.and_eq_true, decide_eq_true_eq] at horder
      simp only [Option.any_some, integer, Bool.and_eq_true, decide_eq_true_eq] at hminimum hmaximum
      simp only [validMemoryOrder, Bool.and_eq_true, decide_eq_true_eq]
      exact ⟨⟨⟨hminimum.1, horder.1⟩, horder.2⟩, hmaximum.2⟩
    · cases horder
  | _ => cases hd

theorem lookup_of_keysAre {document : List (String × Value)} {names : List String}
    (h : keysAre document names = true) {name : String} (hname : name ∈ names) :
    ∃ v, document.lookup name = some v ∧ (name, v) ∈ document := by
  simp only [keysAre, Bool.and_eq_true, List.all_eq_true, List.contains_iff_mem] at h
  obtain ⟨v, hv⟩ := Option.isSome_iff_exists.mp (key_mem_iff.mpr (h.2 name hname))
  exact ⟨v, hv, mem_of_lookup hv⟩

theorem validMemoryOrder_of_full
    (hfull : keysAre values ["startup_mib", "minimum_mib", "maximum_mib", "dynamic_enabled"] = true)
    (h : validMemory values false = true) :
    validMemoryOrder (values.lookup "startup_mib") (values.lookup "minimum_mib")
      (values.lookup "maximum_mib") (values.lookup "dynamic_enabled") = true := by
  simp only [validMemory, Bool.and_eq_true, List.all_eq_true, Bool.false_or] at h
  obtain ⟨minimum, hminimum, hminimumMem⟩ := lookup_of_keysAre hfull (show "minimum_mib" ∈ _ by simp)
  obtain ⟨maximum, hmaximum, hmaximumMem⟩ := lookup_of_keysAre hfull (show "maximum_mib" ∈ _ by simp)
  obtain ⟨dynamic, hdynamic, hdynamicMem⟩ :=
    lookup_of_keysAre hfull (show "dynamic_enabled" ∈ _ by simp)
  refine validMemoryOrder_of_portal h.2 ?_ ?_ ?_
  · rw [hminimum]
    exact h.1 _ hminimumMem
  · rw [hmaximum]
    exact h.1 _ hmaximumMem
  · rw [hdynamic]
    exact h.1 _ hdynamicMem

/-- The values the portal admits in a section are ones for the agent. -/
theorem validSettingsValues_of_portal {part : String} {sparse : Bool}
    (hnodup : (values.map (·.1)).Nodup) (hkeys : validKeys part values sparse = true)
    (h : validValues part values sparse = true) :
    values.isEmpty = false ∧ validSettingsValues part values sparse = true := by
  obtain ⟨names, hnames, hchecks⟩ := (Option.any_eq_true _ _).mp hkeys
  simp only [Bool.and_eq_true, Bool.not_eq_true', List.all_eq_true, List.contains_iff_mem,
    Bool.or_eq_true] at hchecks
  obtain ⟨⟨hne, hsubset⟩, hfull⟩ := hchecks
  refine ⟨hne, ?_⟩
  have hcount (n : Nat) (hdistinct : names.Nodup) (hn : names.length = n) :
      (sparse || values.length == n) = true := by
    rw [Bool.or_eq_true, beq_iff_eq, ← hn]
    exact hfull.imp id (length_of_keysAre hnodup hdistinct)
  unfold settingsKeys at hnames
  unfold validSettingsValues
  unfold validValues at h
  split at hnames
  · next hpart =>
      cases hnames
      rw [if_pos hpart] at h ⊢
      rw [hcount 2 (by decide) rfl, Bool.true_and]
      exact validGeneral_of_portal hnodup (fun m hm => by simpa using hsubset m hm) h
  · next hgeneral =>
      rw [if_neg hgeneral] at h ⊢
      split at hnames
      · next hpart =>
          cases hnames
          rw [if_pos hpart] at h ⊢
          have hone : values.length = 1 := by
            have hle := length_le_of_keys hnodup hsubset
            have hpos : 0 < values.length := by
              rw [List.length_pos_iff]
              exact List.isEmpty_eq_false_iff.mp hne
            rw [List.length_singleton] at hle
            omega
          rw [hone, beq_self_eq_true, Bool.true_and]
          simpa only [integer_eq] using h
      · next hprocessor =>
          rw [if_neg hprocessor] at h ⊢
          split at hnames
          · next hpart =>
              cases hnames
              rw [hpart, hcount 4 (by decide) rfl, validMemory_of_portal hsubset h]
              cases sparse with
              | true => rfl
              | false =>
                rw [validMemoryOrder_of_full (hfull.resolve_left (by decide)) h]
                rfl
          · cases hnames

variable {parameters : Value}

theorem validSettingsParameters_of_portal (hkeyed : Keyed parameters)
    (h : validSettingsParameters parameters = true) :
    Agent.HyperV.validSettingsParameters parameters = true := by
  cases parameters with
  | obj fields =>
    simp only [validSettingsParameters, Bool.and_eq_true] at h
    obtain ⟨⟨hfields, hexpected⟩, hvalues⟩ := h
    have hlength : fields.length = if isSparse fields then 3 else 2 := by
      cases hsparse : isSparse fields with
      | true | false =>
        rw [hsparse] at hfields
        exact length_of_keysAre hkeyed.fields (by decide) hfields
    simp only [Agent.HyperV.validSettingsParameters, Bool.and_eq_true]
    refine ⟨⟨by rw [hlength]; exact beq_self_eq_true _, hexpected⟩, ?_⟩
    split at hvalues
    · next part values hpart hlookup =>
        rw [Bool.and_eq_true] at hvalues
        have hnodup : (values.map (·.1)).Nodup := hkeyed.values _ hlookup
        obtain ⟨hne, hvalid⟩ := validSettingsValues_of_portal hnodup hvalues.1 hvalues.2
        simp only [hpart, hlookup, hne, Bool.not_false, hvalid, Bool.and_self]
    · cases hvalues
  | _ => cases h

/-! ## Changes -/

theorem editableWhileRunning_eq (key : String) (value current : Value) :
    Agent.HyperV.editableWhileRunning key value current = widens key value current := by
  cases value <;> cases current <;> rfl

variable {current : Value}

theorem checkChange_of_portal {state part : String} {m : String × Value}
    (h : checkSetting (state == "running") part current m = .ok ()) :
    checkChange state part current m = .ok () := by
  unfold checkSetting at h
  unfold checkChange
  cases hget : current.get? m.1 with
  | none => rw [hget] at h; cases h
  | some value =>
    rw [hget] at h
    cases value with
    | null => cases h
    | _ =>
      obtain ⟨_, hdiffers, h⟩ := bind_eq_ok.mp h
      refine bind_eq_ok.mpr ⟨(), throwIf_eq_ok.mpr (throwIf_eq_ok.mp hdiffers), ?_⟩
      split at h
      · next hrunning =>
          obtain ⟨_, hmemory, hwidens⟩ := bind_eq_ok.mp h
          rw [throwIf_eq_ok, not_or, not_not, not_not] at hmemory
          rw [throwIf_eq_ok] at hwidens
          rw [if_pos hrunning, hmemory.1, if_neg (by decide), hmemory.2]
          refine throwIf_eq_ok.mpr ?_
          rw [editableWhileRunning_eq]
          simpa using hwidens
      · next hstopped =>
          rw [if_neg hstopped]
          rfl

variable {s : Snapshot}

/-- A change the portal admits is one the agent makes. -/
theorem settingsChange_of_portal (hkeyed : Keyed parameters)
    (h : validateSettingsChange parameters s = .ok ()) :
    settingsChange parameters s = .ok () := by
  unfold validateSettingsChange at h
  obtain ⟨_, hparameters, h⟩ := bind_eq_ok.mp h
  obtain ⟨_, hvalid, -⟩ := bind_eq_ok.mp hparameters
  rw [throwIf_eq_ok, Bool.not_eq_false] at hvalid
  unfold settingsChange
  refine bind_eq_ok.mpr ⟨(), throwIf_eq_ok.mpr ?_, ?_⟩
  · rw [validSettingsParameters_of_portal hkeyed hvalid]
    decide
  · cases hexpected : parameters.get? "expected_state" with
    | none =>
      rw [hexpected] at h
      exact throwIf_eq_ok.mpr (throwIf_eq_ok.mp h)
    | some expected =>
      rw [hexpected] at h
      obtain ⟨_, hschema, h⟩ := bind_eq_ok.mp h
      obtain ⟨_, hstate, h⟩ := bind_eq_ok.mp h
      obtain ⟨_, hsettings, h⟩ := bind_eq_ok.mp h
      refine bind_eq_ok.mpr ⟨(), throwIf_eq_ok.mpr (throwIf_eq_ok.mp hschema), ?_⟩
      refine bind_eq_ok.mpr ⟨(), throwIf_eq_ok.mpr (throwIf_eq_ok.mp hstate), ?_⟩
      refine bind_eq_ok.mpr ⟨(), ?_, ?_⟩
      · exact forM_eq_ok.mpr fun m hm => checkChange_of_portal (forM_eq_ok.mp hsettings m hm)
      · split at h
        · next hmemory =>
            rw [if_pos hmemory]
            obtain ⟨_, hbounds, h⟩ := bind_eq_ok.mp h
            obtain ⟨_, hdynamic, horder⟩ := bind_eq_ok.mp h
            rw [throwIf_eq_ok, Bool.not_eq_false] at hbounds hdynamic horder
            simp only [List.all_cons, List.all_nil, Bool.and_true, Bool.and_eq_true] at hbounds
            have hafter := validMemoryOrder_of_portal horder hbounds.2.1 hbounds.2.2 hdynamic
            exact throwIf_eq_ok.mpr (by rw [Bool.not_eq_false]; exact hafter)
        · next hmemory =>
            rw [if_neg hmemory]
            rfl

theorem invalidCommand_ne : invalidCommand ≠ "" := by
  unfold invalidCommand
  decide

theorem checkChange_coded (state part : String) (current : Value) (m : String × Value) :
    OnlyFails (· ≠ "") (checkChange state part current m) := by
  unfold checkChange
  cases current.get? m.1 with
  | none => exact .throw invalidCommand_ne
  | some value =>
    cases value with
    | null => exact .throw (by decide)
    | _ =>
      refine .bind (.throwIf invalidCommand_ne) fun _ _ => ?_
      split
      · split
        · exact .throw (by decide)
        · split
          · exact .throwIf (by decide)
          · exact .throw invalidCommand_ne
      · exact .pure _

theorem settingsChange_coded (parameters : Value) (s : Snapshot) :
    OnlyFails (· ≠ "") (settingsChange parameters s) := by
  unfold settingsChange
  refine .bind (.throwIf invalidCommand_ne) fun _ _ => ?_
  cases parameters.get? "expected_state" with
  | none => exact .throwIf (by decide)
  | some expected =>
    refine .bind (.throwIf (by decide)) fun _ _ => ?_
    refine .bind (.throwIf (by decide)) fun _ _ => ?_
    refine .bind (.forM fun m _ => checkChange_coded _ _ _ m) fun _ _ => ?_
    split
    · exact .throwIf invalidCommand_ne
    · exact .pure _

theorem settingsChange_of_validate (h : Agent.HyperV.validateSettingsChange parameters s = "") :
    settingsChange parameters s = .ok () := by
  unfold Agent.HyperV.validateSettingsChange at h
  cases hchange : settingsChange parameters s with
  | ok u => rfl
  | error code =>
    rw [hchange] at h
    exact absurd h (settingsChange_coded parameters s code hchange)

/-! ## Memory -/

/-- A change the agent makes leaves the memory in order, and of a running machine only widens the
dynamic range. -/
structure MemoryKept (s : Snapshot) (values : List (String × Value)) : Prop where
  order : ∃ startup minimum maximum dynamicEnabled,
    patched s.settings.memory.value values "startup_mib" = some (.int startup) ∧
    patched s.settings.memory.value values "minimum_mib" = some (.int minimum) ∧
    patched s.settings.memory.value values "maximum_mib" = some (.int maximum) ∧
    patched s.settings.memory.value values "dynamic_enabled" = some (.bool dynamicEnabled) ∧
    1 ≤ minimum ∧ minimum ≤ startup ∧ startup ≤ maximum ∧ maximum ≤ 2 ^ 40 ∧
    (s.state = "running" → s.settings.memory.startupMib = some startup ∧
      s.settings.memory.dynamicEnabled = some dynamicEnabled ∧
      (∃ low, s.settings.memory.minimumMib = some low ∧ minimum ≤ low) ∧
      ∃ high, s.settings.memory.maximumMib = some high ∧ high ≤ maximum)

theorem validMemoryOrder_eq_true {startup minimum maximum dynamicEnabled : Option Value}
    (h : validMemoryOrder startup minimum maximum dynamicEnabled = true) :
    ∃ st mn mx dyn, startup = some (.int st) ∧ minimum = some (.int mn) ∧ maximum = some (.int mx) ∧
      dynamicEnabled = some (.bool dyn) ∧ 1 ≤ mn ∧ mn ≤ st ∧ st ≤ mx ∧ mx ≤ 2 ^ 40 := by
  unfold validMemoryOrder at h
  split at h
  · next st mn mx dyn =>
      simp only [Bool.and_eq_true, decide_eq_true_eq] at h
      exact ⟨st, mn, mx, dyn, rfl, rfl, rfl, rfl, h.1.1.1, h.1.1.2, h.1.2, h.2⟩
  · cases h

theorem nullable_int {n : Option Int} {i : Int} (h : nullable Value.int n = .int i) : n = some i := by
  cases n with
  | none => cases h
  | some m => cases h; rfl

theorem nullable_bool {b : Option Bool} {c : Bool} (h : nullable Value.bool b = .bool c) :
    b = some c := by
  cases b with
  | none => cases h
  | some m => cases h; rfl

variable {key : String}

theorem widens_iff {value : Value} : widens key value current = true ↔
    ∃ a b, value = .int a ∧ current = .int b ∧
      (key = "minimum_mib" ∧ a < b ∨ key = "maximum_mib" ∧ b < a) := by
  constructor
  · intro h
    cases value with
    | int a =>
      cases current with
      | int b => exact ⟨a, b, rfl, rfl, by simpa [widens] using h⟩
      | _ => cases h
    | _ => cases current <;> cases h
  · rintro ⟨a, b, rfl, rfl, hkey⟩
    simpa [widens] using hkey

theorem checkChange_running {m : String × Value}
    (h : checkChange "running" "memory" current m = .ok ()) :
    ∃ a b, m.2 = .int a ∧ current.get? m.1 = some (.int b) ∧
      (m.1 = "minimum_mib" ∧ a < b ∨ m.1 = "maximum_mib" ∧ b < a) := by
  unfold checkChange at h
  cases hget : current.get? m.1 with
  | none => rw [hget] at h; cases h
  | some value =>
    rw [hget] at h
    cases value with
    | null => cases h
    | _ =>
      obtain ⟨_, -, h⟩ := bind_eq_ok.mp h
      rw [if_pos (by decide), if_neg (by decide)] at h
      split at h
      · rw [throwIf_eq_ok, not_or, Bool.not_eq_false, Bool.not_eq_false, editableWhileRunning_eq]
          at h
        obtain ⟨a, b, hvalue, hcurrent, hkey⟩ := widens_iff.mp h.2
        exact ⟨a, b, hvalue, by rw [hcurrent], hkey⟩
      · cases h

theorem memory_get (s : Snapshot) :
    s.settings.memory.value.get? "startup_mib" = some (nullable .int s.settings.memory.startupMib) ∧
    s.settings.memory.value.get? "minimum_mib" = some (nullable .int s.settings.memory.minimumMib) ∧
    s.settings.memory.value.get? "maximum_mib" = some (nullable .int s.settings.memory.maximumMib) ∧
    s.settings.memory.value.get? "dynamic_enabled" =
      some (nullable .bool s.settings.memory.dynamicEnabled) :=
  ⟨rfl, rfl, rfl, rfl⟩

theorem patched_unchanged {v : Value} (hrunning : ∀ m ∈ values,
      checkChange "running" "memory" s.settings.memory.value m = .ok ())
    (hminimum : key ≠ "minimum_mib") (hmaximum : key ≠ "maximum_mib")
    (h : patched s.settings.memory.value values key = some v) :
    s.settings.memory.value.get? key = some v := by
  unfold patched at h
  cases hlookup : values.lookup key with
  | none => rwa [hlookup, Option.none_or] at h
  | some value =>
    obtain ⟨_, _, -, -, hkey⟩ := checkChange_running (hrunning _ (mem_of_lookup hlookup))
    rcases hkey with ⟨heq, -⟩ | ⟨heq, -⟩
    · exact absurd heq hminimum
    · exact absurd heq hmaximum

theorem patched_bound {n : Int} (hrunning : ∀ m ∈ values,
      checkChange "running" "memory" s.settings.memory.value m = .ok ())
    (h : patched s.settings.memory.value values key = some (.int n)) :
    ∃ old, s.settings.memory.value.get? key = some (.int old) ∧
      (n = old ∨ key = "minimum_mib" ∧ n < old ∨ key = "maximum_mib" ∧ old < n) := by
  unfold patched at h
  cases hlookup : values.lookup key with
  | none =>
    rw [hlookup, Option.none_or] at h
    exact ⟨n, h, .inl rfl⟩
  | some value =>
    rw [hlookup, Option.some_or] at h
    cases h
    obtain ⟨a, b, hvalue, hcurrent, hkey⟩ :=
      checkChange_running (hrunning _ (mem_of_lookup hlookup))
    cases hvalue
    exact ⟨b, hcurrent, .inr hkey⟩

/-- The memory a change leaves. -/
theorem memoryKept_of_change (h : settingsChange parameters s = .ok ())
    (hmemory : patchPart parameters = "memory") : MemoryKept s (patchValues parameters) := by
  unfold settingsChange at h
  obtain ⟨_, hvalid, h⟩ := bind_eq_ok.mp h
  rw [throwIf_eq_ok, Bool.not_eq_false] at hvalid
  cases hexpected : parameters.get? "expected_state" with
  | none =>
    -- A full patch has every setting, and is for a machine that is stopped.
    rw [hexpected] at h
    have hstopped : s.state = "stopped" := not_not.mp (throwIf_eq_ok.mp h)
    clear h
    cases parameters with
    | obj fields =>
      simp only [Agent.HyperV.validSettingsParameters, Bool.and_eq_true] at hvalid
      obtain ⟨-, hvalues⟩ := hvalid
      have hsparse : isSparse fields = false := by
        unfold isSparse
        rw [show fields.lookup "expected_state" = none from hexpected]
        rfl
      split at hvalues
      · next part values hpart hlookup =>
          have hname : part = "memory" := by
            rw [← hmemory, patchPart, Value.str?,
              show (Value.obj fields).get? "section" = some (.str part) from hpart]
            rfl
          subst hname
          have hpatch : patchValues (.obj fields) = values := by
            rw [patchValues, show (Value.obj fields).get? "values" = some (.obj values) from hlookup]
          rw [hsparse, Bool.and_eq_true] at hvalues
          have horder := hvalues.2
          rw [validSettingsValues, if_neg (by decide), if_neg (by decide)] at horder
          simp only [Bool.false_or, Bool.and_eq_true] at horder
          obtain ⟨st, mn, mx, dyn, hst, hmn, hmx, hdyn, hbounds⟩ :=
            validMemoryOrder_eq_true horder.2
          rw [hpatch]
          refine ⟨st, mn, mx, dyn, by rw [patched, hst]; rfl, by rw [patched, hmn]; rfl,
            by rw [patched, hmx]; rfl, by rw [patched, hdyn]; rfl, hbounds.1, hbounds.2.1,
            hbounds.2.2.1, hbounds.2.2.2, ?_⟩
          intro hrunning
          rw [hstopped] at hrunning
          exact absurd hrunning (by decide)
      · cases hvalues
    | _ => cases hvalid
  | some expected =>
    rw [hexpected] at h
    obtain ⟨_, -, h⟩ := bind_eq_ok.mp h
    obtain ⟨_, -, h⟩ := bind_eq_ok.mp h
    obtain ⟨_, hsettings, h⟩ := bind_eq_ok.mp h
    rw [hmemory, if_pos (by decide), throwIf_eq_ok, Bool.not_eq_false] at h
    rw [hmemory] at hsettings
    obtain ⟨st, mn, mx, dyn, hst, hmn, hmx, hdyn, hlow, hmid, hhigh, hmax⟩ :=
      validMemoryOrder_eq_true h
    refine ⟨st, mn, mx, dyn, hst, hmn, hmx, hdyn, hlow, hmid, hhigh, hmax, fun hrunning => ?_⟩
    have hchanges : ∀ m ∈ patchValues parameters,
        checkChange "running" "memory" s.settings.memory.value m = .ok () := by
      intro m hm
      have hm' := forM_eq_ok.mp hsettings m hm
      rwa [hrunning] at hm'
    obtain ⟨hgetStartup, hgetMinimum, hgetMaximum, hgetDynamic⟩ := memory_get s
    have hstartup := patched_unchanged hchanges (by decide) (by decide) hst
    have hdynamic := patched_unchanged hchanges (by decide) (by decide) hdyn
    obtain ⟨low, hoverLow, hminimum⟩ := patched_bound hchanges hmn
    obtain ⟨high, hoverHigh, hmaximum⟩ := patched_bound hchanges hmx
    rw [hgetStartup, Option.some.injEq] at hstartup
    rw [hgetDynamic, Option.some.injEq] at hdynamic
    rw [hgetMinimum, Option.some.injEq] at hoverLow
    rw [hgetMaximum, Option.some.injEq] at hoverHigh
    refine ⟨nullable_int hstartup, nullable_bool hdynamic, ⟨low, nullable_int hoverLow, ?_⟩,
      high, nullable_int hoverHigh, ?_⟩
    · rcases hminimum with heq | ⟨-, hlt⟩ | ⟨hkey, -⟩
      · omega
      · omega
      · exact absurd hkey (by decide)
    · rcases hmaximum with heq | ⟨hkey, -⟩ | ⟨-, hlt⟩
      · omega
      · exact absurd hkey (by decide)
      · omega

theorem section_of_valid (h : Agent.HyperV.validSettingsParameters parameters = true) :
    parameters.str? "section" = some (patchPart parameters) := by
  cases parameters with
  | obj fields =>
    simp only [Agent.HyperV.validSettingsParameters, Bool.and_eq_true] at h
    obtain ⟨-, hvalues⟩ := h
    split at hvalues
    · next part values hpart _ =>
        have hstr : (Value.obj fields).str? "section" = some part := by
          rw [Value.str?, show (Value.obj fields).get? "section" = some (.str part) from hpart]
        rw [patchPart, hstr]
        rfl
    · cases hvalues
  | _ => cases h

/-- The command the agent runs for a job. -/
def settingsCommand (job : ManagementJob) : SettingsCommand :=
  ⟨job.vmSourceId, job.vmName, job.parameters⟩

theorem settingsResultName_eq {job : ManagementJob} (hoperation : job.operation = .settingsUpdate)
    (h : Agent.HyperV.validSettingsParameters job.parameters = true) :
    settingsResultName (settingsCommand job) = expectedName job .succeeded := by
  have hpart := section_of_valid h
  simp only [settingsResultName, settingsCommand, expectedName, h, hpart, hoperation, Bool.true_and,
    beq_iff_eq, Option.some.injEq, true_and, and_true] <;> rfl

/-- What the agent takes for the change made, the control plane accepts as its result. -/
theorem checkResultSnapshot_of_postcondition {job : ManagementJob} {after : Snapshot}
    (hoperation : job.operation = .settingsUpdate)
    (h : settingsPostcondition (settingsCommand job) after = true) :
    checkResultSnapshot job .succeeded after = .ok () := by
  simp only [settingsPostcondition, Bool.and_eq_true, beq_iff_eq, List.all_eq_true] at h
  obtain ⟨⟨⟨⟨⟨⟨⟨hvalid, hid⟩, hname⟩, hstate⟩, hschema⟩, hcollected⟩, hgeneral⟩, hvalues⟩ := h
  rw [settingsResultName_eq hoperation hvalid] at hname
  have hpart := section_of_valid hvalid
  unfold checkResultSnapshot
  refine bind_eq_ok.mpr ⟨(), throwIf_eq_ok.mpr ?_, ?_⟩
  · rintro (hne | hne | ⟨-, hsection, hne⟩)
    · exact hne hid
    · exact hne hname
    · rw [show (settingsCommand job).parameters.str? "section" = some "general" from hsection,
        Option.some.injEq] at hpart
      rw [← hpart] at hgeneral
      rw [← hname] at hne
      simp [hne] at hgeneral
  · rw [if_pos ⟨rfl, hoperation⟩]
    refine throwIf_eq_ok.mpr ?_
    rintro (hne | hne | ⟨hsome, hne⟩ | hany)
    · exact hne hcollected
    · exact hne hstate
    · have hsome' : ((settingsCommand job).parameters.get? "expected_state").isSome = true := hsome
      simp [hsome', hne] at hschema
    · obtain ⟨m, hm, hdiffers⟩ := List.any_eq_true.mp hany
      rw [bne_iff_ne] at hdiffers
      exact hdiffers (hvalues m hm)

/-! ## Agreement -/

/-- A change the control plane admits is one the agent makes; a change of memory the agent makes
leaves it ordered; and a change the agent takes for made is one the control plane takes for made. -/
theorem settings_change_agreement (aware : String → Bool) :
    (∀ parameters s, Keyed parameters → validateSnapshot aware s = .ok s →
      validateSettingsChange parameters s = .ok () →
      Agent.HyperV.validateSettingsChange parameters s = "") ∧
    (∀ parameters s, validateSnapshot aware s = .ok s →
      Agent.HyperV.validateSettingsChange parameters s = "" → patchPart parameters = "memory" →
      MemoryKept s (patchValues parameters)) ∧
    (∀ job after, job.operation = .settingsUpdate → validateSnapshot aware after = .ok after →
      settingsPostcondition (settingsCommand job) after = true →
      checkResultSnapshot job .succeeded after = .ok ()) := by
  refine ⟨?_, ?_, ?_⟩
  · intro parameters s hkeyed _ h
    rw [Agent.HyperV.validateSettingsChange, settingsChange_of_portal hkeyed h]
  · intro parameters s _ h hmemory
    exact memoryKept_of_change (settingsChange_of_validate h) hmemory
  · intro job after hoperation _ h
    exact checkResultSnapshot_of_postcondition hoperation h

/-! ### Less minimum memory -/

/-- A running machine with dynamic memory from a minimum on. -/
def dynamicMachine (minimum : Int) : Snapshot :=
  { schemaVersion := 2, vmSourceId := "11111111-1111-4111-8111-111111111111", vmName := "v"
    state := "running"
    revision := "0000000000000000000000000000000000000000000000000000000000000000"
    settings :=
      { name := none, notes := none, configurationVersion := none, generation := none
        processor := ⟨none, none, none, none, none⟩
        memory := ⟨some 1024, some minimum, some 2048, some true, none, none⟩
        automaticStartAction := none, automaticStartDelay := none, automaticStopAction := none
        checkpointPolicy := none }
    checkpoints := [], networkAdapters := [], storage := []
    capabilities := ⟨true, true, true, true, true⟩
    collectionStatus := ⟨"collected", "collected", "unavailable"⟩ }

/-- The request for a lower minimum. -/
def lowerMinimum : Value := .obj
  [("section", .str "memory"), ("values", .obj [("minimum_mib", .int 256)]),
    ("expected_state", .str "running")]

/-- The job of the request. -/
def lowerMinimumJob : ManagementJob :=
  { id := "job", requestId := "request", requestDigest := "", inputDigest := "", tenant := "tenant"
    actor := 1, enrollment := "host", virtualMachine := none
    vmSourceId := (dynamicMachine 512).vmSourceId, vmName := "v", operation := .settingsUpdate
    expectedRevision := (dynamicMachine 512).revision, parameters := lowerMinimum, createdAt := 0 }

theorem dynamicMachine_size (minimum : Int) (h : minimum = 512 ∨ minimum = 256) :
    (canonicalDocument (dynamicMachine minimum).value).length ≤ maxSnapshotBytes := by
  rcases h with rfl | rfl
  · rw [canonicalDocument, sortKeys_eq_stdMap _ (by decide +kernel), canonical_eq_render]
    decide +kernel
  · rw [canonicalDocument, sortKeys_eq_stdMap _ (by decide +kernel), canonical_eq_render]
    decide +kernel

theorem dynamicMachine_valid (minimum : Int) (h : minimum = 512 ∨ minimum = 256) :
    validateSnapshot (fun _ => true) (dynamicMachine minimum) = .ok (dynamicMachine minimum) := by
  rw [validateSnapshot, decide_eq_true (dynamicMachine_size minimum h)]
  rcases h with rfl | rfl
  · exact if_pos (by decide +kernel)
  · exact if_pos (by decide +kernel)

theorem settings_change_agreement_sample :
    Agent.HyperV.validateSettingsChange lowerMinimum (dynamicMachine 512) = "" ∧
    MemoryKept (dynamicMachine 512) (patchValues lowerMinimum) ∧
    checkResultSnapshot lowerMinimumJob .succeeded (dynamicMachine 256) = .ok () := by
  obtain ⟨hagent, hmemory, hresult⟩ := settings_change_agreement fun _ => true
  have hkeyed : Keyed lowerMinimum := by
    refine ⟨by decide +kernel, ?_⟩
    intro values hvalues
    cases hvalues
    decide +kernel
  have hsnapshot := dynamicMachine_valid 512 (.inl rfl)
  have hmade := hagent lowerMinimum (dynamicMachine 512) hkeyed hsnapshot (by decide +kernel)
  refine ⟨hmade, hmemory _ _ hsnapshot hmade (by decide +kernel), ?_⟩
  exact hresult lowerMinimumJob _ rfl (dynamicMachine_valid 256 (.inr rfl)) (by decide +kernel)

end Ipms.Server.HyperV
