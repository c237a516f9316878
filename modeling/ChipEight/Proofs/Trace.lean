import ChipEight.Proofs.Actions
import ChipEight.Proofs.Cycle

namespace ChipEight

/-- An instruction that has been executed, and the address it was fetched from. -/
structure Step where
  address : Nat
  instruction : Instruction
  deriving DecidableEq

namespace Machine

/-- A cycle that neither waits nor fails executes the instruction at `pc`; nothing else does. -/
def executed? (random : Nat → Int) (m : Machine) : Action → Option Step
  | .cycle t =>
    match m.waiting, (m.cycle random t).answer with
    | false, .ok _ => some ⟨m.pc, m.upcoming⟩
    | _, _ => none
  | _ => none

def trace (random : Nat → Int) (m : Machine) : List Action → List Step
  | [] => []
  | a :: actions =>
    (m.executed? random a).toList ++ (m.perform random a).machine.trace random actions

def gather {α : Type} (random : Nat → Int) (see : Machine → Action → Option α) (m : Machine) :
    List Action → List α
  | [] => []
  | a :: actions => (see m a).toList ++ (m.perform random a).machine.gather random see actions

variable {random : Nat → Int} {m : Machine} {a : Action} {s : Step}

theorem trace_append (random : Nat → Int) (m : Machine) (actions more : List Action) :
    m.trace random (actions ++ more) =
      m.trace random actions ++ (m.run random actions).trace random more := by
  induction actions generalizing m with
  | nil => rfl
  | cons a actions ih =>
    rw [List.cons_append, trace, trace, ih, List.append_assoc]
    rfl

theorem trace_snoc (random : Nat → Int) (m : Machine) (actions : List Action) (a : Action) :
    m.trace random (actions ++ [a]) =
      m.trace random actions ++ ((m.run random actions).executed? random a).toList := by
  rw [trace_append, trace, trace, List.append_nil]

theorem trace_eq_gather (random : Nat → Int) (m : Machine) (actions : List Action) :
    m.trace random actions = m.gather random (executed? random) actions := by
  induction actions generalizing m with
  | nil => rfl
  | cons a actions ih => rw [trace, gather, ih]

/-- What holds of all that is seen of a run is known at each of its steps. -/
theorem run_preserves_of_mem_gather {α : Type} {see : Machine → Action → Option α}
    {P : Machine → Prop} {Q : α → Prop} {actions : List Action}
    (hstep : ∀ a ∈ actions, ∀ m, (∀ s ∈ see m a, Q s) → P m → P (m.perform random a).machine)
    (hq : ∀ s ∈ m.gather random see actions, Q s) (h : P m) : P (m.run random actions) := by
  induction actions generalizing m with
  | nil => exact h
  | cons a actions ih =>
    rw [gather] at hq
    have ha : P (m.perform random a).machine := by
      refine hstep a (List.mem_cons_self ..) m (fun s hs ↦ hq s ?_) h
      exact List.mem_append_left _ (Option.mem_toList.mpr hs)
    exact ih (fun b hb ↦ hstep b (List.mem_cons_of_mem a hb))
      (fun s hs ↦ hq s (List.mem_append_right _ hs)) ha

theorem run_preserves_of_gather {α : Type} {see : Machine → Action → Option α}
    {P : Machine → Prop} {Q : α → Prop} {actions : List Action}
    (hstep : ∀ m a, (∀ s ∈ see m a, Q s) → P m → P (m.perform random a).machine)
    (hq : ∀ s ∈ m.gather random see actions, Q s) (h : P m) : P (m.run random actions) :=
  run_preserves_of_mem_gather (fun a _ m ↦ hstep m a) hq h

theorem run_preserves_of_trace {P : Machine → Prop} {Q : Step → Prop} {actions : List Action}
    (hstep : ∀ a ∈ actions, ∀ m, (∀ s ∈ m.executed? random a, Q s) → P m →
      P (m.perform random a).machine)
    (hq : ∀ s ∈ m.trace random actions, Q s) (h : P m) : P (m.run random actions) := by
  rw [trace_eq_gather] at hq
  exact run_preserves_of_mem_gather hstep hq h

theorem exists_of_executed (h : m.executed? random a = some s) :
    ∃ t n notices, a = .cycle t ∧ s = ⟨m.pc, m.upcoming⟩ ∧ m.waiting = false ∧ m.pc ≤ 4094 ∧
      m.advanced.execute random t.execute m.upcoming = .ok (n, notices) ∧
      Frame m.upcoming m.advanced n ∧
      m.cycle random t = { n with pc := n.pc % 4096 }.finish notices t.poll := by
  cases a with
  | cycle t =>
    rw [executed?] at h
    have hc := m.cycle_course random t
    generalize ho : m.cycle random t = o at h hc
    cases hc with
    | wait hw | unfetched hw | crash _ hw => rw [hw] at h; cases h
    | step n notices hw hp hr he hf =>
      rw [hw, finish_answer] at h
      cases h
      exact ⟨t, n, notices, rfl, rfl, hw, hp, he, hf, ho⟩
  | _ => cases h

theorem executed_of_begins {i : Instruction} (h : m.Begins i) (ho : m.obstacle i = none)
    (t : Moment) : m.executed? random (.cycle t) = some ⟨m.pc, i⟩ := by
  obtain ⟨hw, hp, rfl⟩ := h
  rw [executed?, hw]
  have hc := m.cycle_course random t
  generalize m.cycle random t = o at hc ⊢
  cases hc with
  | wait hw' => cases hw.symm.trans hw'
  | unfetched _ hp' => exact absurd hp (Nat.not_le.mpr hp')
  | crash _ _ _ ho' => cases ho.symm.trans ho'
  | step n notices => rw [finish_answer]

theorem cycle_of_executed_none {t : Moment} (h : m.executed? random (.cycle t) = none) :
    let n := (m.cycle random t).machine
    n = { m with
      pc := n.pc
      opAddress := n.opAddress
      delay := n.delay
      sound := n.sound
      redraw := n.redraw } := by
  rw [executed?] at h
  have hc := m.cycle_course random t
  generalize m.cycle random t = o at h hc ⊢
  cases hc with
  | wait | unfetched | crash => rfl
  | step n notices hw hp hr he hf => rw [hw, finish_answer] at h; cases h

theorem perform_of_executed_none (h : m.executed? random a = none) (ha : ∀ now, a ≠ .reset now) :
    (m.perform random a).machine.stack = m.stack ∧
      ((m.perform random a).machine.waiting = true → m.waiting = true) := by
  by_cases hout : a.Outside
  · have hu := perform_untouched random m hout
    exact ⟨hu.stack, hu.waiting⟩
  · cases a with
    | reset now => exact absurd rfl (ha now)
    | cycle t =>
      have hc := cycle_of_executed_none h
      rw [perform, hc]
      exact ⟨rfl, id⟩
    | _ => exact absurd trivial hout

end Machine

end ChipEight
