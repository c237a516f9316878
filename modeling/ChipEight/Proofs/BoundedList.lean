import ChipEight.Proofs.Limits
import ChipEight.Size

namespace ChipEight

namespace Size

variable {available : Nat} {n : Int}

theorem eq_of_ofSlots {count : Nat} (h : ofSlots available n = .ok count) : count = n.toNat := by
  rw [ofSlots] at h
  split at h
  · cases h
  · split at h <;> cases h
    rfl

theorem ofSlots_of_fits (h : IsIndex n) (hn : 8 * n < available) :
    ofSlots available n = .ok n.toNat := by
  rw [ofSlots, if_neg (not_not_intro h), if_pos hn]

end Size

namespace CallStack

variable {α σ : Type} {capacity : Nat}

/-- What an operation does to a list of at most `capacity` addresses, with its top at the end. -/
def Operation.onList (capacity : Nat) (l : List α) :
    Operation α → List α × Except Fault (Option α)
  | .reset => ([], .ok none)
  | .push a =>
    if l.length < capacity then (l ++ [a], .ok none) else (l, .error (.full capacity))
  | .pop =>
    match l.getLast? with
    | some a => (l.dropLast, .ok (some a))
    | none => (l, .error .empty)

def trace (step : σ → Operation α → σ × Except Fault (Option α)) (s : σ) :
    List (Operation α) → List (σ × Except Fault (Option α))
  | [] => []
  | op :: history => step s op :: trace step (step s op).1 history

theorem used_eq_nil_iff {s : CallStack α capacity} : s.used = [] ↔ s.depth = 0 := by
  rw [← List.length_eq_zero_iff, length_used]

variable [OfNat α 0]

theorem perform_push_of_lt {s : CallStack α capacity} (h : s.depth < capacity) (a : α) :
    s.perform (.push a) = (⟨s.slots.set s.depth a, s.depth + 1, h⟩, .ok none) := by
  rw [perform, push, dif_pos h]

theorem perform_push_of_full {s : CallStack α capacity} (h : s.depth = capacity) (a : α) :
    s.perform (.push a) = (s, .error (.full capacity)) := by
  rw [perform, push_of_full h]

theorem perform_pop_of_pos {s : CallStack α capacity} (h : 0 < s.depth) :
    ∃ a t, s.perform .pop = (t, .ok (some a)) ∧ s.used = t.used ++ [a] ∧ t.slots = s.slots := by
  have hp : s.pop = .ok _ := dif_pos h
  refine ⟨_, _, ?_, used_of_pop hp, rfl⟩
  rw [perform, hp]

theorem perform_pop_of_empty {s : CallStack α capacity} (h : s.depth = 0) :
    s.perform .pop = (s, .error .empty) := by
  rw [perform, pop_of_empty h]

/-- The addresses in use change as a bounded list does, and the answer is the same. -/
theorem perform_refines (s : CallStack α capacity) (op : Operation α) :
    ((s.perform op).1.used, (s.perform op).2) = op.onList capacity s.used := by
  cases op with
  | reset => exact congrArg (·, _) used_zeroed
  | push a =>
    rw [Operation.onList, length_used]
    rcases Nat.lt_or_eq_of_le s.depth_le with hlt | hfull
    · obtain ⟨t, ht, -⟩ := push_of_lt hlt a
      rw [if_pos hlt, ← used_of_push ht, perform, ht]
    · rw [if_neg (by omega), perform_push_of_full hfull]
  | pop =>
    rw [Operation.onList]
    rcases Nat.eq_zero_or_pos s.depth with hempty | hpos
    · rw [perform_pop_of_empty hempty, used_eq_nil_iff.mpr hempty]
      rfl
    · obtain ⟨a, t, hp, hu, -⟩ := perform_pop_of_pos hpos
      rw [hp, hu, List.getLast?_concat, List.dropLast_concat]

theorem trace_refines (s : CallStack α capacity) (history : List (Operation α)) :
    (trace perform s history).map (fun (s, answer) ↦ (s.used, answer)) =
      trace (fun l op ↦ op.onList capacity l) s.used history := by
  induction history generalizing s with
  | nil => rfl
  | cons op history ih =>
    have hstep := s.perform_refines op
    rw [trace, trace, List.map_cons, ih, ← hstep]

theorem answer_push_eq_error_iff (s : CallStack α capacity) (a : α) (e : Fault) :
    (s.perform (.push a)).2 = .error e ↔ s.used.length = capacity ∧ e = .full capacity := by
  rw [length_used]
  rcases Nat.lt_or_eq_of_le s.depth_le with hlt | hfull
  · rw [perform_push_of_lt hlt]
    exact iff_of_false (by simp) fun h ↦ absurd h.1 (by omega)
  · rw [perform_push_of_full hfull, Except.error.injEq, and_iff_right hfull, eq_comm]

theorem answer_pop_eq_error_iff (s : CallStack α capacity) (e : Fault) :
    (s.perform .pop).2 = .error e ↔ s.used = [] ∧ e = .empty := by
  rw [used_eq_nil_iff]
  rcases Nat.eq_zero_or_pos s.depth with hempty | hpos
  · rw [perform_pop_of_empty hempty, Except.error.injEq, and_iff_right hempty, eq_comm]
  · obtain ⟨a, t, hp, -⟩ := perform_pop_of_pos hpos
    rw [hp]
    exact iff_of_false (by simp) fun h ↦ absurd h.1 (by omega)

theorem perform_of_error {s : CallStack α capacity} {op : Operation α} {e : Fault}
    (h : (s.perform op).2 = .error e) : (s.perform op).1 = s := by
  cases op with
  | reset => cases h
  | push a =>
    have hfull := ((s.answer_push_eq_error_iff a e).mp h).1
    rw [length_used] at hfull
    rw [perform_push_of_full hfull]
  | pop =>
    have hempty := ((s.answer_pop_eq_error_iff e).mp h).1
    rw [perform_pop_of_empty (used_eq_nil_iff.mp hempty)]

theorem slots_perform_push (s : CallStack α capacity) (a : α) {i : Nat} (hi : i ≠ s.depth) :
    (s.perform (.push a)).1.slots.toList[i]? = s.slots.toList[i]? := by
  rcases Nat.lt_or_eq_of_le s.depth_le with hlt | hfull
  · rw [perform_push_of_lt hlt, Vector.toList_set, List.getElem?_set_ne hi.symm]
  · rw [perform_push_of_full hfull]

theorem slots_perform_pop (s : CallStack α capacity) : (s.perform .pop).1.slots = s.slots := by
  rcases Nat.eq_zero_or_pos s.depth with hempty | hpos
  · rw [perform_pop_of_empty hempty]
  · obtain ⟨a, t, hp, -, ht⟩ := perform_pop_of_pos hpos
    rw [hp, ht]

/-- A stack whose slots can be made is a list of at most as many addresses as its size says, none
if that is negative. This holds of what it has in use, of its text and of its answers after
every operation of a history. A failure changes nothing, and besides the one slot that takes
an address only a reset writes to the slots. -/
theorem stack_refines_bounded_list (available : Nat) (size : Int) :
    (Size.IsIndex size → 8 * size < available →
      Size.ofSlots available size = .ok size.toNat) ∧
    (¬ Size.IsIndex size → Size.ofSlots available size = .error .noIndex) ∧
    ∀ capacity, Size.ofSlots available size = .ok capacity →
      (capacity : Int) = max size 0 ∧
      (∀ history : List (Operation Int),
        (trace perform (zeroed capacity : CallStack Int capacity) history).map
            (fun (s, answer) ↦ (s.used, Text.bracketed s.used, answer)) =
          (trace (fun l op ↦ op.onList capacity l) [] history).map
            fun (l, answer) ↦ (l, Text.bracketed l, answer)) ∧
      ∀ s : CallStack Int capacity,
        s.slots.toList.length = capacity ∧
        (∀ a e, (s.perform (.push a)).2 = .error e ↔
          s.used.length = capacity ∧ e = .full capacity) ∧
        (∀ e, (s.perform .pop).2 = .error e ↔ s.used = [] ∧ e = .empty) ∧
        (∀ op e, (s.perform op).2 = .error e → (s.perform op).1 = s) ∧
        (∀ a i, i ≠ s.depth → (s.perform (.push a)).1.slots.toList[i]? = s.slots.toList[i]?) ∧
        (s.perform .pop).1.slots = s.slots ∧
        (s.perform .reset).1.slots.toList = List.replicate capacity 0 := by
  refine ⟨Size.ofSlots_of_fits, fun h ↦ if_pos h, ?_⟩
  intro capacity hsize
  refine ⟨?_, ?_, ?_⟩
  · rw [Size.eq_of_ofSlots hsize, Int.ofNat_toNat]
  · intro history
    have hused : (zeroed capacity : CallStack Int capacity).used = [] := used_zeroed
    rw [← hused, ← trace_refines, List.map_map]
    rfl
  · intro s
    exact ⟨Vector.length_toList, s.answer_push_eq_error_iff, s.answer_pop_eq_error_iff,
      fun _ _ ↦ perform_of_error, fun a _ ↦ s.slots_perform_push a, s.slots_perform_pop,
      Vector.toList_replicate⟩

/-- With one slot the stack is full and empty in turn. The address that was taken off is no longer
in use, though its slot holds it. -/
theorem stack_refines_bounded_list_single :
    Size.ofSlots 64 1 = .ok 1 ∧
      (trace perform (zeroed 1 : CallStack Int 1) [.push 7, .push 8, .pop, .pop, .push (-9)]).map
          (fun (s, answer) ↦ (s.used, Text.bracketed s.used, answer)) =
        [([7], "[7]", .ok none), ([7], "[7]", .error (.full 1)), ([], "[]", .ok (some 7)),
          ([], "[]", .error .empty), ([-9], "[-9]", .ok none)] := by
  have hsize : Size.ofSlots 64 1 = .ok 1 := Size.ofSlots_of_fits (by decide) (by decide)
  refine ⟨hsize, ?_⟩
  rw [((stack_refines_bounded_list 64 1).2.2 1 hsize).2.1]
  rfl

/-- A size below the range of sizes gives no stack, not even one without slots. -/
theorem no_stack_below_sizes :
    (∀ available, Size.ofSlots available (-0x8000000000000001) = .error .noIndex) ∧
      ¬ ∃ available, ∀ size : Int, ∃ capacity, Size.ofSlots available size = .ok capacity ∧
        (capacity : Int) = max size 0 := by
  have hsize (available : Nat) : Size.ofSlots available (-0x8000000000000001) = .error .noIndex :=
    if_pos (by decide)
  refine ⟨hsize, fun ⟨available, h⟩ ↦ ?_⟩
  obtain ⟨capacity, hok, -⟩ := h (-0x8000000000000001)
  rw [hsize] at hok
  cases hok

end CallStack

end ChipEight
