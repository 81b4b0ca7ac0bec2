import Ipms.Portal.InputQueue

/-
  Ipms.Portal.InputQueueRuns

  What holds of the input queue after every run.  The pushes that were not
  replaced are what was delivered and then what is pending; every delivery but the
  last is settled, and the last one has one owner; and while events are pending
  there is either that delivery or the timer.
-/

namespace Ipms.Portal.InputQueue

open Ipms.Lib
open List (append_assoc append_nil filter_append filter_eq_self length_append length_replicate length_singleton mem_append mem_map mem_of_getElem? mem_singleton pairwise_append prefix_append)

variable {d : Delivery} {k : Nat}

namespace Queue

variable {Payload : Type} {q : Queue Payload}

/-! ## Pushes -/

theorem entries_concat (pushed : List (ConsoleInput Payload)) (event : ConsoleInput Payload) :
    entries (pushed ++ [event]) = entries pushed ++ [⟨pushed.length, event⟩] := by
  unfold entries
  rw [List.zipIdx_append, List.map_append, Nat.zero_add]
  rfl

variable {e : Entry Payload}

theorem seq_lt_of_mem_entries {pushed : List (ConsoleInput Payload)} (h : e ∈ entries pushed) :
    e.seq < pushed.length := by
  obtain ⟨⟨event, seq⟩, hmem, rfl⟩ := mem_map.mp h
  have hlt := (List.mem_zipIdx hmem).2.1
  rw [Nat.zero_add] at hlt
  exact hlt

theorem pairwise_entries (pushed : List (ConsoleInput Payload)) :
    (entries pushed).Pairwise fun a b => a.seq < b.seq := by
  induction pushed using List.reverseRecOn with
  | nil => exact .nil
  | append_singleton pushed event ih =>
    rw [entries_concat, pairwise_append]
    refine ⟨ih, List.pairwise_singleton _ _, fun a ha b hb => ?_⟩
    rw [mem_singleton.mp hb]
    exact seq_lt_of_mem_entries ha

theorem pairwise_survivors (q : Queue Payload) :
    q.survivors.Pairwise fun a b => a.seq < b.seq := (pairwise_entries q.pushed).filter _

theorem seq_lt_of_mem_survivors (h : e ∈ q.survivors) :
    e.seq < q.pushed.length := seq_lt_of_mem_entries (List.mem_of_mem_filter h)

/-! ## History -/

/-- The history of the queue: what was delivered comes first among the pushes that were not
replaced, and then, unless the queue is stopped, what is pending. -/
structure History (q : Queue Payload) : Prop where
  ordered : q.delivered ++ q.pending <+: q.survivors
  complete : q.stopped = false → q.survivors = q.delivered ++ q.pending
  replaced_lt : ∀ seq ∈ q.replaced, seq + 1 < q.pushed.length
  idle : q.stopped = true → q.pending = [] ∧ q.timer = false

theorem survivors_concat (h : q.History) {pushed : List (ConsoleInput Payload)}
    {event : ConsoleInput Payload} (hpushed : q.pushed = pushed ++ [event]) :
    ∃ front, q.survivors = front ++ [⟨pushed.length, event⟩] := by
  refine ⟨(entries pushed).filter fun e => decide (e.seq ∉ q.replaced), ?_⟩
  unfold survivors
  rw [hpushed, entries_concat, filter_append, List.filter_cons_of_pos, List.filter_nil]
  -- only earlier pushes were replaced
  have hnot : pushed.length ∉ q.replaced := by
    intro hmem
    have hlt := h.replaced_lt _ hmem
    rw [hpushed, length_append, length_singleton] at hlt
    omega
  exact decide_eq_true hnot

theorem seq_getLast (h : q.History) (hrunning : q.stopped = false) {last : Entry Payload}
    (hlast : q.pending.getLast? = some last) : last.seq + 1 = q.pushed.length := by
  obtain ⟨front, hpending⟩ := List.getLast?_eq_some_iff.mp hlast
  have hsurvivors := h.complete hrunning
  rw [hpending, ← append_assoc] at hsurvivors
  have hmem : last ∈ q.survivors := by
    rw [hsurvivors]
    simp
  have hlt := seq_lt_of_mem_survivors hmem
  rcases List.eq_nil_or_concat q.pushed with hnil | ⟨pushed, event, hconcat⟩
  · rw [hnil] at hlt
    exact absurd hlt (Nat.not_lt_zero _)
  · obtain ⟨front', hfront⟩ := survivors_concat h (hconcat.trans List.concat_eq_append)
    rw [hsurvivors] at hfront
    have hsame := (List.append_inj' hfront rfl).2
    rw [List.singleton_inj.mp hsame, hconcat, List.length_concat]

/-- What a push overtakes is the last pending event, where both are moves. -/
theorem overtaken_eq (h : q.History) (hrunning : q.stopped = false)
    (event : ConsoleInput Payload) : q.overtaken event =
      if event.isMove && q.pending.getLast?.any (·.event.isMove) then q.pending.getLast?.toList
      else [] := by
  cases hlast : q.pending.getLast? with
  | none =>
    have hnil := List.getLast?_eq_none_iff.mp hlast
    unfold overtaken
    rw [hnil]
    simp
  | some last =>
    have hseq := seq_getLast h hrunning hlast
    obtain ⟨front, hpending⟩ := List.getLast?_eq_some_iff.mp hlast
    have hsorted : q.pending.Pairwise fun a b => a.seq < b.seq := by
      have hall := pairwise_survivors q
      rw [h.complete hrunning] at hall
      exact (pairwise_append.mp hall).2.1
    have hfront : front.filter (fun e => e.seq + 1 == q.pushed.length && e.event.isMove &&
        event.isMove) = [] := by
      rw [List.filter_eq_nil_iff]
      intro e he
      rw [hpending, pairwise_append] at hsorted
      have hlt := hsorted.2.2 e he last (List.mem_singleton_self _)
      simp only [Bool.and_eq_true, beq_iff_eq]
      rintro ⟨⟨heq, -⟩, -⟩
      omega
    unfold overtaken
    rw [hpending, filter_append, hfront, List.nil_append, List.filter_singleton]
    show (bif (last.seq + 1 == q.pushed.length && last.event.isMove && event.isMove) then [last]
      else []) = if (event.isMove && last.event.isMove) = true then [last] else []
    rw [hseq, beq_self_eq_true, Bool.true_and, Bool.and_comm]
    cases event.isMove && last.event.isMove <;> rfl

theorem survivors_record (h : q.History) (event : ConsoleInput Payload) :
    (q.record event).survivors =
      (q.survivors.filter fun e => decide (e.seq ∉ (q.overtaken event).map Entry.seq)) ++
        [⟨q.pushed.length, event⟩] := by
  unfold survivors record
  simp only
  rw [entries_concat, filter_append, List.filter_filter]
  congr 1
  · apply List.filter_congr
    intro e _
    simp only [mem_append, not_or, Bool.decide_and]
    exact Bool.and_comm _ _
  · rw [List.filter_cons_of_pos, List.filter_nil]
    have hnew : q.pushed.length ∉ q.replaced ++ (q.overtaken event).map Entry.seq := by
      rw [mem_append]
      rintro (hmem | hmem)
      · have hlt := h.replaced_lt _ hmem
        omega
      · obtain ⟨e, he, hseq⟩ := mem_map.mp hmem
        have htests := (List.mem_filter.mp he).2
        simp only [Bool.and_eq_true, beq_iff_eq] at htests
        omega
    exact decide_eq_true hnew

/-- A push that is admitted takes the place of what it overtakes, or the next one. -/
theorem survivors_place (h : q.History) (hrunning : q.stopped = false)
    {event : ConsoleInput Payload} {pending : List (Entry Payload)}
    (hplaced : q.place ⟨q.pushed.length, event⟩ = some pending) :
    (q.record event).survivors = q.delivered ++ pending := by
  have hcomplete := h.complete hrunning
  rw [survivors_record h, overtaken_eq h hrunning]
  unfold place at hplaced
  simp only at hplaced
  by_cases hmoves : (event.isMove && q.pending.getLast?.any (·.event.isMove)) = true
  · rw [if_pos hmoves] at hplaced ⊢
    rw [← Option.some.inj hplaced]
    rw [Bool.and_eq_true] at hmoves
    cases hlast : q.pending.getLast? with
    | none =>
      rw [hlast] at hmoves
      exact absurd hmoves.2 (by simp)
    | some last =>
      obtain ⟨front, hpending⟩ := List.getLast?_eq_some_iff.mp hlast
      have hsorted := pairwise_survivors q
      rw [hcomplete, hpending, ← append_assoc] at hsorted
      rw [hcomplete, hpending, List.dropLast_concat, ← append_assoc, filter_append]
      have hkept : (q.delivered ++ front).filter
          (fun e => decide (e.seq ∉ (some last).toList.map Entry.seq)) = q.delivered ++ front := by
        rw [filter_eq_self]
        intro e he
        have hlt := (pairwise_append.mp hsorted).2.2 e he last (List.mem_singleton_self _)
        simp only [Option.toList_some, List.map_cons, List.map_nil, mem_singleton,
          decide_eq_true_eq]
        omega
      rw [hkept, List.filter_singleton]
      simp [append_assoc]
  · rw [if_neg hmoves] at hplaced ⊢
    split at hplaced
    · rw [← Option.some.inj hplaced, hcomplete, ← append_assoc]
      congr 1
      rw [filter_eq_self]
      simp
    · cases hplaced

theorem replaced_record (h : q.History) (event : ConsoleInput Payload) :
    ∀ seq ∈ (q.record event).replaced, seq + 1 < (q.record event).pushed.length := by
  unfold record
  simp only [length_append, length_singleton]
  intro seq hmem
  rcases mem_append.mp hmem with hmem | hmem
  · have hlt := h.replaced_lt seq hmem
    omega
  · obtain ⟨e, he, rfl⟩ := mem_map.mp hmem
    have htests := (List.mem_filter.mp he).2
    simp only [Bool.and_eq_true, beq_iff_eq] at htests
    omega

/-- A stopped queue has delivered a first part of the survivors, whatever is pushed. -/
theorem delivered_record (h : q.History) (event : ConsoleInput Payload) :
    q.delivered <+: (q.record event).survivors := by
  rw [survivors_record h]
  by_cases hstopped : q.stopped = true
  · have hnil : q.overtaken event = [] := by
      unfold overtaken
      rw [(h.idle hstopped).1]
      rfl
    rw [hnil]
    have hall : q.survivors.filter (fun e => decide (e.seq ∉ ([] : List (Entry Payload)).map
        Entry.seq)) = q.survivors := by
      rw [filter_eq_self]
      simp
    rw [hall]
    exact ((prefix_append _ _).trans h.ordered).trans (prefix_append _ _)
  · have hrunning := eq_false_of_ne_true hstopped
    have hsorted := pairwise_survivors q
    rw [h.complete hrunning, pairwise_append] at hsorted
    rw [h.complete hrunning, filter_append, append_assoc]
    have hkept : q.delivered.filter (fun e => decide (e.seq ∉ (q.overtaken event).map Entry.seq)) =
        q.delivered := by
      rw [filter_eq_self]
      intro e he
      rw [decide_eq_true_eq]
      intro hmem
      -- what is overtaken is pending, and pending events come later
      obtain ⟨other, hother, hseq⟩ := mem_map.mp hmem
      have hlt := hsorted.2.2 e he other (List.mem_of_mem_filter hother)
      omega
    rw [hkept]
    exact prefix_append _ _

variable {r : Queue Payload}

namespace History

theorem dispose (h : q.History) : q.dispose.History where
  ordered := by
    show q.delivered ++ [] <+: q.survivors
    rw [append_nil]
    exact (prefix_append _ _).trans h.ordered
  complete := nofun
  replaced_lt := h.replaced_lt
  idle := fun _ => ⟨rfl, rfl⟩

theorem of_eq (h : q.History) (hpending : r.pending = q.pending)
    (htimer : q.timer = false → r.timer = false) (hstopped : r.stopped = q.stopped)
    (hpushed : r.pushed = q.pushed) (hreplaced : r.replaced = q.replaced)
    (hbatches : r.batches = q.batches) : r.History := by
  have hsurvivors : r.survivors = q.survivors := by
    unfold survivors
    rw [hpushed, hreplaced]
  have hdelivered : r.delivered = q.delivered := by
    unfold delivered
    rw [hbatches]
  constructor
  · rw [hdelivered, hpending, hsurvivors]
    exact h.ordered
  · rw [hdelivered, hpending, hsurvivors, hstopped]
    exact h.complete
  · rw [hreplaced, hpushed]
    exact h.replaced_lt
  · rw [hstopped, hpending]
    intro hover
    exact ⟨(h.idle hover).1, htimer (h.idle hover).2⟩

theorem deliverNext (h : q.History) (hrunning : q.stopped = false) : q.deliverNext.History := by
  have hmoved : q.deliverNext.delivered ++ q.deliverNext.pending = q.delivered ++ q.pending := by
    show (q.batches ++ [q.pending.take 32]).flatten ++ q.pending.drop 32 = _
    rw [List.flatten_append, List.flatten_singleton, append_assoc, List.take_append_drop]
    rfl
  constructor
  · rw [hmoved]
    exact h.ordered
  · intro _
    rw [hmoved]
    exact h.complete hrunning
  · exact h.replaced_lt
  · intro hstopped
    rw [show q.deliverNext.stopped = q.stopped from rfl, hrunning] at hstopped
    cases hstopped

theorem flush (h : q.History) : q.flush.History := by
  unfold Queue.flush
  have hquiet : { q with timer := false }.History := h.of_eq rfl (fun _ => rfl) rfl rfl rfl rfl
  simp only
  split
  · exact hquiet.of_eq rfl id rfl rfl rfl rfl
  · split
    · exact hquiet
    · next hmore =>
        rw [Bool.or_eq_true, not_or] at hmore
        exact hquiet.deliverNext (eq_false_of_ne_true hmore.1)

theorem wake (h : q.History) (hrunning : q.stopped = false) (event : ConsoleInput Payload) :
    (q.wake event).History := by
  unfold Queue.wake
  split
  · exact h
  · split
    · exact h.flush
    · refine ⟨h.ordered, h.complete, h.replaced_lt, fun hstopped => ?_⟩
      rw [show ({ q with timer := true } : Queue Payload).stopped = q.stopped from rfl,
        hrunning] at hstopped
      cases hstopped

theorem push (h : q.History) (event : ConsoleInput Payload) : (q.push event).History := by
  unfold Queue.push
  have hdelivered := delivered_record h event
  have hreplaced := replaced_record h event
  split
  · next hstopped =>
      refine ⟨?_, ?_, hreplaced, h.idle⟩
      · show q.delivered ++ q.pending <+: _
        rw [(h.idle hstopped).1, append_nil]
        exact hdelivered
      · intro hrunning
        rw [show (q.record event).stopped = q.stopped from rfl, hstopped] at hrunning
        cases hrunning
  · next hrunning =>
      have hrunning := eq_false_of_ne_true hrunning
      split
      · refine ⟨?_, nofun, hreplaced, fun _ => ⟨rfl, rfl⟩⟩
        show q.delivered ++ [] <+: (q.record event).survivors
        rw [append_nil]
        exact hdelivered
      · next pending hplaced =>
          have hentered : ({ q.record event with pending } : Queue Payload).History := by
            have hsurvivors := survivors_place h hrunning hplaced
            refine ⟨?_, fun _ => hsurvivors, hreplaced, fun hstopped => ?_⟩
            · show q.delivered ++ pending <+: (q.record event).survivors
              rw [hsurvivors]
            · rw [show ({ q.record event with pending } : Queue Payload).stopped = q.stopped from rfl,
                hrunning] at hstopped
              cases hstopped
          exact hentered.wake hrunning event

end History

/-! ## Promises -/

/-- Every delivery but the last one is settled; `sending` holds the last one until the call that
made it resumes. -/
inductive Promises (q : Queue Payload) : Prop where
  | idle (n : Nat) : q.sending = none → q.deliveries = List.replicate n .settled →
      (∀ k, .owner k ∉ q.suspended) → Promises q
  | busy (n : Nat) (d : Delivery) : q.sending = some n →
      q.deliveries = List.replicate n .settled ++ [d] →
      q.suspended.count (.owner n) = 1 → (∀ k, .owner k ∈ q.suspended → k = n) → Promises q

namespace Promises

theorem of_eq (h : q.Promises) (hsending : r.sending = q.sending)
    (hdeliveries : r.deliveries = q.deliveries) (hsuspended : r.suspended = q.suspended) :
    r.Promises := by
  cases h with
  | idle n hnone hall howners =>
    exact .idle n (hsending.trans hnone) (hdeliveries.trans hall) (hsuspended ▸ howners)
  | busy n d hsome hlast hone howners =>
    exact .busy n d (hsending.trans hsome) (hdeliveries.trans hlast) (hsuspended ▸ hone)
      (hsuspended ▸ howners)

theorem deliverNext (h : q.Promises) (hnone : q.sending = none) : q.deliverNext.Promises := by
  cases h with
  | busy n d hsome => rw [hnone] at hsome; cases hsome
  | idle n _ hall howners =>
    have hlength : q.deliveries.length = n := by rw [hall, length_replicate]
    refine .busy n .inFlight (congrArg some hlength) (congrArg (· ++ _) hall) ?_ ?_
    · show (q.suspended ++ [Suspended.owner q.deliveries.length]).count (.owner n) = 1
      rw [hlength, List.count_append, List.count_eq_zero.mpr (howners n)]
      simp
    · intro k hk
      rcases mem_append.mp hk with hk | hk
      · exact absurd hk (howners k)
      · rw [mem_singleton, hlength] at hk
        exact Suspended.owner.inj hk

theorem wait (h : q.Promises) (k : Nat) :
    ({ q with suspended := q.suspended ++ [.waiter k] } : Queue Payload).Promises := by
  have howner : ∀ j, Suspended.owner j ∈ q.suspended ++ [.waiter k] ↔ .owner j ∈ q.suspended := by
    simp
  cases h with
  | idle n hnone hall howners => exact .idle n hnone hall fun j hj => howners j ((howner j).mp hj)
  | busy n d hsome hlast hone howners =>
    refine .busy n d hsome hlast ?_ fun j hj => howners j ((howner j).mp hj)
    show (q.suspended ++ [Suspended.waiter k]).count (.owner n) = 1
    rw [List.count_append, hone]
    simp

theorem flush (h : q.Promises) : q.flush.Promises := by
  unfold Queue.flush
  have hquiet : ({ q with timer := false } : Queue Payload).Promises := h.of_eq rfl rfl rfl
  simp only
  split
  · next k hk => exact hquiet.wait k
  · next hnone =>
      split
      · exact hquiet
      · exact hquiet.deliverNext hnone

theorem push (h : q.Promises) (event : ConsoleInput Payload) : (q.push event).Promises := by
  unfold Queue.push
  split
  · exact h.of_eq rfl rfl rfl
  · split
    · exact h.of_eq rfl rfl rfl
    · next pending _ =>
        have hentered : ({ q.record event with pending } : Queue Payload).Promises :=
          h.of_eq rfl rfl rfl
        unfold Queue.wake
        split
        · exact hentered
        · split
          · exact hentered.flush
          · exact hentered.of_eq rfl rfl rfl

theorem of_getElem? (h : q.Promises) (hk : q.deliveries[k]? = some d) (hd : d ≠ .settled) :
    q.sending = some k ∧ q.deliveries = List.replicate k .settled ++ [d] ∧
      q.suspended.count (.owner k) = 1 ∧ ∀ j, .owner j ∈ q.suspended → j = k := by
  cases h with
  | idle n _ hall =>
    rw [hall] at hk
    exact absurd (List.eq_of_mem_replicate (mem_of_getElem? hk)) hd
  | busy n e hsome hlast hone howners =>
    rw [hlast] at hk
    by_cases hlt : k < n
    · rw [List.getElem?_append_left (by rw [length_replicate]; exact hlt)] at hk
      exact absurd (List.eq_of_mem_replicate (mem_of_getElem? hk)) hd
    · rw [List.getElem?_append_right (by rw [length_replicate]; omega),
        length_replicate] at hk
      have hkn : k = n := by
        have hbound := (List.getElem?_eq_some_iff.mp hk).1
        rw [length_singleton] at hbound
        omega
      subst hkn
      rw [Nat.sub_self] at hk
      cases hk
      exact ⟨hsome, hlast, hone, howners⟩

theorem set (h : q.Promises) (hk : q.deliveries[k]? = some d) (hd : d ≠ .settled) (e : Delivery)
    (hsending : r.sending = q.sending) (hdeliveries : r.deliveries = q.deliveries.set k e)
    (hsuspended : r.suspended = q.suspended) : r.Promises := by
  obtain ⟨hsome, hlast, hone, howners⟩ := h.of_getElem? hk hd
  refine .busy k e (hsending.trans hsome) ?_ (hsuspended ▸ hone) (hsuspended ▸ howners)
  rw [hdeliveries, hlast, List.set_append_right _ _ (by rw [length_replicate]),
    length_replicate, Nat.sub_self]
  rfl

theorem release (h : q.Promises) {i : Nat} (hi : q.suspended[i]? = some (.owner k))
    (hk : q.deliveries[k]? = some .settled) :
    ({ q with suspended := q.suspended.eraseIdx i, sending := none } : Queue Payload).Promises := by
  cases h with
  | idle n _ _ howners => exact absurd (mem_of_getElem? hi) (howners k)
  | busy n d hsome hlast hone howners =>
    obtain rfl := howners k (mem_of_getElem? hi)
    rw [hlast, List.getElem?_append_right (by rw [length_replicate]),
      length_replicate, Nat.sub_self] at hk
    cases hk
    refine .idle (k + 1) rfl ?_ ?_
    · rw [List.replicate_succ']
      exact hlast
    · intro j hj
      -- the one owner is the call that has resumed
      obtain rfl := howners j (List.mem_of_mem_eraseIdx hj)
      obtain ⟨hbound, hget⟩ := List.getElem?_eq_some_iff.mp hi
      have hperm := (List.getElem_cons_eraseIdx_perm hbound).count_eq (.owner j)
      rw [hget, List.count_cons_self, hone] at hperm
      have hpos : 0 < (q.suspended.eraseIdx i).count (.owner j) := List.count_pos_iff.mpr hj
      omega

theorem forget (h : q.Promises) {i : Nat} (hi : q.suspended[i]? = some (.waiter k)) :
    ({ q with suspended := q.suspended.eraseIdx i } : Queue Payload).Promises := by
  obtain ⟨hbound, hget⟩ := List.getElem?_eq_some_iff.mp hi
  have hcount : ∀ n, (q.suspended.eraseIdx i).count (.owner n) = q.suspended.count (.owner n) := by
    intro n
    have hperm := (List.getElem_cons_eraseIdx_perm hbound).count_eq (.owner n)
    rw [hget, List.count_cons_of_ne (by simp)] at hperm
    exact hperm
  cases h with
  | idle n hnone hall howners =>
    exact .idle n hnone hall fun j hj => howners j (List.mem_of_mem_eraseIdx hj)
  | busy n d hsome hlast hone howners =>
    exact .busy n d hsome hlast ((hcount n).trans hone)
      fun j hj => howners j (List.mem_of_mem_eraseIdx hj)

theorem outstanding_le (h : q.Promises) : q.outstanding ≤ 1 := by
  unfold outstanding
  cases h with
  | idle n _ hall =>
    rw [hall, List.countP_replicate]
    simp
  | busy n d _ hlast =>
    rw [hlast, List.countP_append, List.countP_replicate]
    simp only [bne_self_eq_false, Bool.false_eq_true, if_false, Nat.zero_add]
    exact (List.countP_le_length).trans (by simp)

end Promises

/-! ## Bounds -/

/-- The bounds of the queue and of its batches. -/
structure Limits (q : Queue Payload) : Prop where
  batches : ∀ batch ∈ q.batches, batch.length ≤ 32
  pending : q.pending.length ≤ 128

namespace Limits

theorem dispose (h : q.Limits) : q.dispose.Limits := ⟨h.batches, Nat.zero_le _⟩

theorem flush (h : q.Limits) : q.flush.Limits := by
  unfold Queue.flush
  simp only
  split
  · exact ⟨h.batches, h.pending⟩
  · split
    · exact ⟨h.batches, h.pending⟩
    · constructor
      · intro batch hbatch
        rcases mem_append.mp hbatch with hbatch | hbatch
        · exact h.batches batch hbatch
        · rw [mem_singleton.mp hbatch, List.length_take]
          omega
      · show (q.pending.drop 32).length ≤ 128
        have hpending := h.pending
        rw [List.length_drop]
        omega

theorem place (h : q.Limits) {pending : List (Entry Payload)} (hplaced : q.place e = some pending) :
    pending.length ≤ 128 := by
  unfold Queue.place at hplaced
  have hpending := h.pending
  split at hplaced
  · next hmoves =>
      rw [← Option.some.inj hplaced, length_append, List.length_dropLast, length_singleton]
      -- the move that is replaced is there
      have hsome : q.pending ≠ [] := by
        rintro hnil
        rw [hnil] at hmoves
        simp at hmoves
      have hpos := List.length_pos_iff.mpr hsome
      omega
  · split at hplaced
    · next hroom =>
        rw [← Option.some.inj hplaced, length_append, length_singleton]
        omega
    · cases hplaced

theorem push (h : q.Limits) (event : ConsoleInput Payload) : (q.push event).Limits := by
  unfold Queue.push
  split
  · exact ⟨h.batches, h.pending⟩
  · split
    · exact ⟨h.batches, Nat.zero_le _⟩
    · next pending hplaced =>
        have hentered : ({ q.record event with pending } : Queue Payload).Limits :=
          ⟨h.batches, h.place hplaced⟩
        unfold Queue.wake
        split
        · exact hentered
        · split
          · exact hentered.flush
          · exact ⟨hentered.batches, hentered.pending⟩

end Limits

/-- While events are pending a delivery is under way or the timer is armed. -/
def Awake (q : Queue Payload) : Prop :=
  q.stopped = false → q.pending ≠ [] → q.sending.isSome = true ∨ q.timer = true

theorem awake_flush (q : Queue Payload) : q.flush.Awake := by
  unfold Queue.flush
  simp only
  split
  · next k hk =>
      intro _ _
      exact .inl (by rw [hk]; rfl)
  · split
    · next hdone =>
        intro hrunning hpending
        rw [Bool.or_eq_true] at hdone
        rcases hdone with hstopped | hnone
        · rw [hrunning] at hstopped
          cases hstopped
        · exact absurd (List.isEmpty_iff.mp hnone) hpending
    · exact fun _ _ => .inl rfl

theorem awake_push (h : q.Awake) (event : ConsoleInput Payload) : (q.push event).Awake := by
  unfold Queue.push
  split
  · exact h
  · split
    · exact nofun
    · unfold Queue.wake
      split
      · next hsending => exact fun _ _ => .inl hsending
      · split
        · exact awake_flush _
        · exact fun _ _ => .inr rfl

end Queue

open Queue

/-! ## Runs -/

/-- What holds after every run. -/
structure Invariant {Payload : Type} (q : Queue Payload) : Prop where
  history : q.History
  promises : q.Promises
  limits : q.Limits
  awake : q.Awake

section
variable {Payload : Type} {q r : Queue Payload}

theorem invariant_new : Invariant ({} : Queue Payload) where
  history := ⟨List.nil_prefix, fun _ => rfl, nofun, nofun⟩
  promises := .idle 0 rfl rfl nofun
  limits := ⟨nofun, Nat.zero_le _⟩
  awake := fun _ h => absurd rfl h

variable {a : Action Payload}

namespace Invariant

theorem flush (h : Invariant q) : Invariant q.flush :=
  ⟨h.history.flush, h.promises.flush, h.limits.flush, awake_flush q⟩

theorem set (h : Invariant q) (hk : q.deliveries[k]? = some d) (hd : d ≠ .settled) (e : Delivery) :
    Invariant { q with deliveries := q.deliveries.set k e } where
  history := h.history.of_eq rfl id rfl rfl rfl rfl
  promises := h.promises.set hk hd e rfl rfl rfl
  limits := ⟨h.limits.batches, h.limits.pending⟩
  awake := h.awake

theorem react (h : Invariant q)
    (hk : q.deliveries[k]? = some .fulfilled ∨ q.deliveries[k]? = some .rejected) :
    Invariant (q.react k) := by
  unfold Queue.react
  simp only
  split
  · next hrejected =>
      have hdisposed := h.history.dispose
      exact ⟨hdisposed.of_eq rfl id rfl rfl rfl rfl,
        h.promises.set hrejected (by decide) .settled rfl rfl rfl,
        ⟨h.limits.batches, Nat.zero_le _⟩, nofun⟩
  · next hrejected =>
      rcases hk with hfulfilled | hrejected'
      · exact h.set hfulfilled (by decide) .settled
      · exact absurd hrejected' hrejected

theorem step (h : Invariant q) (hstep : Step q a r) : Invariant r := by
  cases hstep with
  | push event =>
    exact ⟨h.history.push event, h.promises.push event, h.limits.push event,
      awake_push h.awake event⟩
  | flush => exact h.flush
  | timer =>
    have hfired : ({ q with timer := false } : Queue Payload).History :=
      h.history.of_eq rfl (fun _ => rfl) rfl rfl rfl rfl
    exact ⟨hfired.flush, (h.promises.of_eq rfl rfl rfl).flush,
      Limits.flush ⟨h.limits.batches, h.limits.pending⟩, awake_flush _⟩
  | dispose =>
    exact ⟨h.history.dispose, h.promises.of_eq rfl rfl rfl, h.limits.dispose, nofun⟩
  | fulfil hk => exact h.set hk (by decide) .fulfilled
  | reject hk => exact h.set hk (by decide) .rejected
  | react hk => exact h.react hk
  | @owner i _ hi hk =>
    have hreleased := h.promises.release hi hk
    have hhistory : ({ q with
        suspended := q.suspended.eraseIdx i, sending := none } : Queue Payload).History :=
      h.history.of_eq rfl id rfl rfl rfl rfl
    unfold Queue.resume
    simp only
    split
    · exact ⟨hhistory.flush, hreleased.flush,
        Limits.flush ⟨h.limits.batches, h.limits.pending⟩, awake_flush _⟩
    · next hdone =>
        refine ⟨hhistory, hreleased, ⟨h.limits.batches, h.limits.pending⟩, ?_⟩
        intro hrunning hpending
        simp only [Bool.and_eq_true, Bool.not_eq_true', not_and, Bool.not_eq_false] at hdone
        exact absurd (List.isEmpty_iff.mp (hdone hrunning)) hpending
  | @waiter i _ hi hk =>
    have hforgot := h.promises.forget hi
    have hhistory : ({ q with suspended := q.suspended.eraseIdx i } : Queue Payload).History :=
      h.history.of_eq rfl id rfl rfl rfl rfl
    exact ⟨hhistory.flush, hforgot.flush,
      Limits.flush ⟨h.limits.batches, h.limits.pending⟩, awake_flush _⟩

end Invariant

/-! ### The end of a queue -/

theorem batches_flush (q : Queue Payload) (h : q.stopped = true ∨ q.sending.isSome = true) :
    q.flush.batches = q.batches ∧ q.flush.deliveries = q.deliveries ∧
      q.flush.stopped = q.stopped := by
  unfold Queue.flush
  simp only
  split
  · exact ⟨rfl, rfl, rfl⟩
  · next hnone =>
      rw [hnone] at h
      rcases h with hstopped | hsome
      · rw [hstopped, Bool.true_or, if_pos rfl]
        exact ⟨rfl, rfl, rfl⟩
      · cases hsome

theorem sending_of_over (h : Invariant q) (hover : q.Over) :
    q.stopped = true ∨ ∃ k, q.sending = some k ∧ q.deliveries[k]? = some .rejected := by
  rcases hover with hstopped | hrejected
  · exact .inl hstopped
  · obtain ⟨k, hk⟩ := List.getElem?_of_mem hrejected
    exact .inr ⟨k, (h.promises.of_getElem? hk (by decide)).1, hk⟩

/-- A queue that is over stays over and delivers nothing. -/
theorem over_step (h : Invariant q) (hover : q.Over) (hstep : Step q a r) :
    r.batches = q.batches ∧ r.Over := by
  have hends := sending_of_over h hover
  have hidle : q.stopped = true ∨ q.sending.isSome = true := by
    rcases hends with hstopped | ⟨k, hk, -⟩
    · exact .inl hstopped
    · exact .inr (by rw [hk]; rfl)
  have hkept : ∀ {t : Queue Payload}, t.stopped = q.stopped → t.deliveries = q.deliveries →
      t.Over := by
    intro t hstopped hdeliveries
    unfold Queue.Over
    rw [hstopped, hdeliveries]
    exact hover
  -- a delivery that moves on is not the rejected one
  have hset : ∀ {k : Nat} (e : Delivery), q.deliveries[k]? = some .inFlight ∨
      q.deliveries[k]? = some .fulfilled → q.stopped = true := by
    intro k e hk
    rcases hends with hstopped | ⟨j, hj, hrejected⟩
    · exact hstopped
    · rcases hk with hk | hk
      all_goals
        have hlast := (h.promises.of_getElem? hk (by decide)).1
        rw [hj] at hlast
        obtain rfl := Option.some.inj hlast
        rw [hrejected] at hk
        cases hk
  cases hstep with
  | push event =>
    unfold Queue.push
    split
    · exact ⟨rfl, hkept rfl rfl⟩
    · next hrunning =>
        split
        · exact ⟨rfl, .inl rfl⟩
        · unfold Queue.wake
          rcases hidle with hstopped | hsome
          · exact absurd hstopped hrunning
          · split
            · exact ⟨rfl, hkept rfl rfl⟩
            · next hnone => exact absurd hsome hnone
  | flush =>
    obtain ⟨hbatches, hdeliveries, hstopped⟩ := batches_flush q hidle
    exact ⟨hbatches, hkept hstopped hdeliveries⟩
  | timer =>
    obtain ⟨hbatches, hdeliveries, hstopped⟩ := batches_flush { q with timer := false } hidle
    exact ⟨hbatches, hkept hstopped hdeliveries⟩
  | dispose => exact ⟨rfl, .inl rfl⟩
  | fulfil hk => exact ⟨rfl, .inl (hset .fulfilled (.inl hk))⟩
  | reject hk => exact ⟨rfl, .inl (hset .rejected (.inl hk))⟩
  | react hk =>
    unfold Queue.react
    simp only
    split
    · exact ⟨rfl, .inl rfl⟩
    · next hnot => exact ⟨rfl, .inl (hset .settled (.inr (hk.resolve_right hnot)))⟩
  | owner hi hk =>
    -- the owner of a rejected delivery has to wait for the handler
    have hstopped : q.stopped = true := by
      rcases hends with hstopped | ⟨j, hj, hrejected⟩
      · exact hstopped
      · obtain ⟨-, -, -, howners⟩ := h.promises.of_getElem? hrejected (by decide)
        obtain rfl := howners _ (mem_of_getElem? hi)
        rw [hrejected] at hk
        cases hk
    have hskip : (!q.stopped && !q.pending.isEmpty) = false := by
      rw [hstopped]
      rfl
    unfold Queue.resume
    simp only [hskip, Bool.false_eq_true, if_false]
    exact ⟨trivial, .inl hstopped⟩
  | @waiter i _ hi hk =>
    obtain ⟨hbatches, hdeliveries, hstopped⟩ :=
      batches_flush { q with suspended := q.suspended.eraseIdx i } hidle
    exact ⟨hbatches, hkept hstopped hdeliveries⟩

/-- A rejection, an overflow and a `dispose` end the queue, and deliver nothing. -/
theorem over_of_ends (hends : q.Ends a) (hstep : Step q a r) : r.batches = q.batches ∧ r.Over := by
  cases hstep with
  | push event =>
    obtain ⟨hrunning, hfull⟩ := hends
    unfold Queue.push
    rw [hrunning, hfull, if_neg Bool.false_ne_true]
    exact ⟨rfl, .inl rfl⟩
  | dispose => exact ⟨rfl, .inl rfl⟩
  | @reject k hk =>
    have hbound := (List.getElem?_eq_some_iff.mp hk).1
    have hset : (q.deliveries.set k .rejected)[k]? = some .rejected :=
      List.getElem?_set_self hbound
    exact ⟨rfl, .inr (mem_of_getElem? hset)⟩
  | flush | timer | fulfil | react | owner | waiter => cases hends

theorem batches_of_over {ls : List (Action Payload)} (h : Invariant q) (hover : q.Over)
    (hrun : Run Step q ls r) : r.batches = q.batches := by
  induction hrun with
  | nil => rfl
  | cons hstep _ ih =>
    obtain ⟨hbatches, hover⟩ := over_step h hover hstep
    exact (ih (h.step hstep) hover).trans hbatches

/-- While events are pending the timer is armed, or a call that made a delivery still waits for
it. -/
theorem awake_iff (h : Invariant q) (hrunning : q.stopped = false) (hpending : q.pending ≠ []) :
    q.timer = true ∨ ∃ k, q.sending = some k ∧ .owner k ∈ q.suspended ∧
      (q.Quiescent → q.deliveries[k]? = some .inFlight) := by
  rcases h.awake hrunning hpending with hsending | htimer
  · obtain ⟨k, hk⟩ := Option.isSome_iff_exists.mp hsending
    refine .inr ⟨k, hk, ?_⟩
    cases h.promises with
    | idle n hnone =>
      rw [hk] at hnone
      cases hnone
    | busy n d hsome hlast hone _ =>
      rw [hk] at hsome
      obtain rfl := Option.some.inj hsome
      have howner : .owner k ∈ q.suspended := by
        rw [← List.count_pos_iff, hone]
        exact Nat.one_pos
      have hget : q.deliveries[k]? = some d := by
        rw [hlast, List.getElem?_append_right (by rw [length_replicate]),
          length_replicate, Nat.sub_self]
        rfl
      have hmem : d ∈ q.deliveries := mem_of_getElem? hget
      refine ⟨howner, ?_⟩
      rintro ⟨hfulfilled, hrejected, hsettled⟩
      rw [hget]
      cases d with
      | inFlight => rfl
      | fulfilled => exact absurd hmem hfulfilled
      | rejected => exact absurd hmem hrejected
      | settled => exact absurd hget (hsettled k howner)
  · exact .inl htimer

/-- After every run of the queue: the batches are, one after the other, the first pushes that were
not replaced, each of them once; at most one delivery is outstanding; batches and pending events
keep their bounds; after a rejected delivery, an overflow or a `dispose` nothing is delivered; and
while events are pending, the timer is armed or a delivery is under way. -/
theorem inputQueue_sound {ls : List (Action Payload)} (h : Run Step ({} : Queue Payload) ls q) :
    q.delivered <+: q.survivors ∧ (q.delivered.map Entry.seq).Nodup ∧ q.outstanding ≤ 1 ∧
      (∀ batch ∈ q.batches, batch.length ≤ 32) ∧ q.pending.length ≤ 128 ∧
      (∀ a r ks t, Step q a r → q.Ends a → Run Step r ks t → t.batches = q.batches) ∧
      (q.stopped = false → q.pending ≠ [] → q.timer = true ∨
        ∃ k, q.sending = some k ∧ .owner k ∈ q.suspended ∧
          (q.Quiescent → q.deliveries[k]? = some .inFlight)) := by
  have hinv : Invariant q := h.preserves (fun _ _ _ hstep hq => hq.step hstep) invariant_new
  have hdelivered : q.delivered <+: q.survivors :=
    (prefix_append _ _).trans hinv.history.ordered
  refine ⟨hdelivered, ?_, hinv.promises.outstanding_le, hinv.limits.batches, hinv.limits.pending, ?_,
    fun hrunning hpending => awake_iff hinv hrunning hpending⟩
  · have hsorted := (pairwise_survivors q).sublist hdelivered.sublist
    rw [List.Nodup, List.pairwise_map]
    exact hsorted.imp fun {a b} hlt => Nat.ne_of_lt hlt
  · intro a r ks t hstep hends hrun
    obtain ⟨hbatches, hover⟩ := over_of_ends hends hstep
    exact (batches_of_over (hinv.step hstep) hover hrun).trans hbatches

/-- Two moves and a key before the timer fires: the first move is replaced, and one batch brings the
second move and the key. -/
def sampleQueue : Queue Unit :=
  ((({} : Queue Unit).push ⟨"mouse_move", ()⟩).push ⟨"mouse_move", ()⟩).push ⟨"key", ()⟩

theorem run_sampleQueue : Run Step ({} : Queue Unit)
    [.push ⟨"mouse_move", ()⟩, .push ⟨"mouse_move", ()⟩, .push ⟨"key", ()⟩] sampleQueue :=
  .cons (.push _ _) (.cons (.push _ _) (.single (.push _ _)))

/-- The batch of the sample is what the general result says. -/
theorem inputQueue_sound_sample : sampleQueue.delivered.map Entry.seq = [1, 2] ∧
    sampleQueue.delivered <+: sampleQueue.survivors :=
  ⟨by decide, (inputQueue_sound run_sampleQueue).1⟩

end

end Ipms.Portal.InputQueue
