import ChipEight.Machine.Dump
import ChipEight.Proofs.Background
import ChipEight.Proofs.Cycle
import Mathlib.Data.List.Forall2

namespace ChipEight

theorem CallStack.depth_of_used {α : Type} {capacity : Nat} {s t : CallStack α capacity}
    (h : t.used = s.used) : t.depth = s.depth := by
  rw [← t.length_used, ← s.length_used, h]

namespace Machine

/-- The machines differ at most in slots of the stack that are not in use. -/
def Agrees (m n : Machine) : Prop :=
  ∃ s : CallStack Nat 16, s.used = m.stack.used ∧ n = { m with stack := s }

def withStack (m : Machine) (s : CallStack Nat 16) : Machine :=
  { m with stack := s }

end Machine

structure Outcome.Agrees {α : Type} (o p : Outcome α) : Prop where
  machine : o.machine.Agrees p.machine
  notices : p.notices = o.notices
  answer : p.answer = o.answer

namespace Machine

variable {random : Nat → Int} {now : Int} {m n : Machine} {s : CallStack Nat 16}
  {i : Instruction} {a : Action}

theorem Agrees.dump (h : m.Agrees n) : n.dump = m.dump := by
  obtain ⟨s, hs, rfl⟩ := h
  unfold Machine.dump
  dsimp only
  rw [hs]

theorem execute_withStack (random : Nat → Int) (now : Int) (m : Machine) (s : CallStack Nat 16)
    (hc : ∀ nnn, i ≠ .address .call nnn) (hr : i ≠ .plain .ret) :
    (m.withStack s).execute random now i =
      mapResult (withStack · s) (m.execute random now i) := by
  by_cases hi : i.UsesBackground
  · obtain rfl | ⟨nnn, rfl⟩ | ⟨x, nn, rfl⟩ | ⟨x, rfl | rfl | rfl⟩ := hi.cases
    · exact absurd rfl hr
    · exact absurd rfl (hc nnn)
    all_goals rfl
  · exact execute_mapBackground random random now now m (fun b ↦ { b with stack := s }) hi

inductive Alike : Except (Raise Fault) (Machine × List Notice) →
    Except (Raise Fault) (Machine × List Notice) → Prop
  | ok {m n : Machine} (notices : List Notice) (h : m.Agrees n) :
      Alike (.ok (m, notices)) (.ok (n, notices))
  | error {e e' : Raise Fault} (h : e'.fault = e.fault) : Alike (.error e) (.error e')

theorem executeCall_alike (hs : s.used = m.stack.used) (nnn : Address) :
    Alike (m.executeAddress nnn .call) ((m.withStack s).executeAddress nnn .call) := by
  have hd := CallStack.depth_of_used hs
  simp only [executeAddress, withStack]
  by_cases hfull : m.stack.depth = 16
  · rw [CallStack.push_of_full hfull, CallStack.push_of_full (hd.trans hfull)]
    exact .error rfl
  · have hlt : m.stack.depth < 16 := Nat.lt_of_le_of_ne m.stack.depth_le hfull
    obtain ⟨u, hu, -⟩ := CallStack.push_of_lt hlt m.pc
    obtain ⟨v, hv, -⟩ := CallStack.push_of_lt (hd.symm ▸ hlt) m.pc
    rw [hu, hv]
    refine .ok [] ⟨v, ?_, rfl⟩
    rw [CallStack.used_of_push hv, CallStack.used_of_push hu, hs]

theorem executeReturn_alike (hs : s.used = m.stack.used) :
    Alike (m.execute random now (.plain .ret))
      ((m.withStack s).execute random now (.plain .ret)) := by
  have hd := CallStack.depth_of_used hs
  simp only [execute, executePlain, withStack]
  by_cases hempty : m.stack.depth = 0
  · rw [CallStack.pop_of_empty hempty, CallStack.pop_of_empty (hd.trans hempty)]
    exact .error rfl
  · have hpos := Nat.pos_of_ne_zero hempty
    obtain ⟨b, u, hu, -⟩ := CallStack.pop_of_pos hpos
    obtain ⟨c, v, hv, -⟩ := CallStack.pop_of_pos (hd.symm ▸ hpos)
    have huv : v.used ++ [c] = u.used ++ [b] := by
      rw [← CallStack.used_of_pop hu, ← CallStack.used_of_pop hv, hs]
    obtain ⟨hused, rfl⟩ := List.append_singleton_inj.mp huv
    rw [hu, hv]
    exact .ok [] ⟨v, hused, rfl⟩

theorem execute_alike (random : Nat → Int) (now : Int) (h : m.Agrees n) (i : Instruction) :
    Alike (m.execute random now i) (n.execute random now i) := by
  obtain ⟨s, hs, rfl⟩ := h
  by_cases hc : ∃ nnn, i = .address .call nnn
  · obtain ⟨nnn, rfl⟩ := hc
    exact executeCall_alike hs nnn
  · by_cases hr : i = .plain .ret
    · subst hr
      exact executeReturn_alike hs
    · have hc : ∀ nnn, i ≠ .address .call nnn := fun nnn hi ↦ hc ⟨nnn, hi⟩
      have he := execute_withStack random now m s hc hr
      change Alike _ ((m.withStack s).execute random now i)
      rw [he]
      cases hm : m.execute random now i with
      | error e => exact .error rfl
      | ok r =>
        obtain ⟨n, notices⟩ := r
        have hn : n.stack = m.stack := (frame_of_execute hm).stack hc hr
        refine .ok notices ⟨s, ?_, rfl⟩
        rw [hn, hs]

theorem cycle_agrees (random : Nat → Int) (h : m.Agrees n) (t : Moment) :
    (m.cycle random t).Agrees (n.cycle random t) := by
  obtain ⟨s, hs, rfl⟩ := h
  change (m.cycle random t).Agrees ((m.withStack s).cycle random t)
  cases hw : m.waiting with
  | true =>
    rw [cycle_of_waiting hw, cycle_of_waiting (m := m.withStack s) hw]
    exact ⟨⟨s, hs, rfl⟩, rfl, rfl⟩
  | false =>
    by_cases hp : m.pc ≤ 4094
    · have hadvanced : m.advanced.Agrees (m.withStack s).advanced := ⟨s, hs, rfl⟩
      have hx := execute_alike random t.execute hadvanced m.upcoming
      generalize he : m.advanced.execute random t.execute m.upcoming = x at hx
      generalize he' : (m.withStack s).advanced.execute random t.execute m.upcoming = y at hx
      cases hx with
      | error h =>
        rw [cycle_of_execute_error hw hp he, cycle_of_execute_error (m := m.withStack s) hw hp he',
          h]
        exact ⟨hadvanced, rfl, rfl⟩
      | ok notices h =>
        rw [cycle_of_execute_ok hw hp he, cycle_of_execute_ok (m := m.withStack s) hw hp he']
        obtain ⟨u, hu, rfl⟩ := h
        exact ⟨⟨u, hu, rfl⟩, rfl, rfl⟩
    · have hp : 4094 < m.pc := Nat.not_le.mp hp
      rw [cycle_of_lt hw hp, cycle_of_lt (m := m.withStack s) hw hp]
      exact ⟨⟨s, hs, rfl⟩, rfl, rfl⟩

theorem perform_withStack (random : Nat → Int) (m : Machine) (s : CallStack Nat 16)
    (ha : a.Outside) :
    let o := m.perform random a
    (m.withStack s).perform random a = ⟨o.machine.withStack s, o.notices, o.answer⟩ := by
  by_cases hp : ∃ now, a = .poll now
  · obtain ⟨now, rfl⟩ := hp
    rfl
  · have hp : ∀ now, a ≠ .poll now := fun now h ↦ hp ⟨now, h⟩
    exact perform_mapBackground random random m (fun b ↦ { b with stack := s }) ha hp

theorem perform_agrees (h : m.Agrees n) (a : Action) :
    (m.perform random a).Agrees (n.perform random a) := by
  by_cases ha : a.Outside
  · obtain ⟨s, hs, rfl⟩ := h
    have hp := perform_withStack random m s ha
    have hu : (m.perform random a).machine.stack = m.stack := (perform_untouched random m ha).stack
    have hused : s.used = (m.perform random a).machine.stack.used := by
      rw [hu]
      exact hs
    change Outcome.Agrees _ ((m.withStack s).perform random a)
    rw [hp]
    exact ⟨⟨s, hused, rfl⟩, rfl, rfl⟩
  · cases a with
    | cycle t =>
      obtain ⟨hm, hn, ha⟩ := cycle_agrees random h t
      exact ⟨hm, hn, congrArg (Except.map some) ha⟩
    | reset now =>
      obtain ⟨s, -, rfl⟩ := h
      exact ⟨⟨m.stack.clear, rfl, rfl⟩, rfl, rfl⟩
    | _ => exact absurd trivial ha

theorem run_agrees (h : m.Agrees n) (actions : List Action) :
    (m.run random actions).Agrees (n.run random actions) := by
  induction actions generalizing m n with
  | nil => exact h
  | cons a actions ih => exact ih (perform_agrees h a).machine

theorem outcomes_agree (h : m.Agrees n) (actions : List Action) :
    List.Forall₂ Outcome.Agrees (m.outcomes random actions) (n.outcomes random actions) := by
  induction actions generalizing m n with
  | nil => exact .nil
  | cons a actions ih =>
    have ha : (m.perform random a).Agrees (n.perform random a) := perform_agrees h a
    exact .cons ha (ih ha.machine)

end Machine

end ChipEight
