import ChipEight.Proofs.Brackets
import ChipEight.Proofs.StaleSlots

namespace ChipEight.Machine

variable {random : Nat → Int} {m : Machine} {a : Action} {s : Step} {actions : List Action}

theorem used_of_call (h : m.executed? random a = some s) (hs : s.IsCall) :
    (m.perform random a).machine.stack.used = m.stack.used ++ [s.address + 2] := by
  obtain ⟨t, n, notices, rfl, rfl, -, -, he, -, hc⟩ := exists_of_executed h
  obtain ⟨nnn, hi⟩ := hs
  change m.upcoming = .address .call nnn at hi
  rw [hi] at he
  obtain ⟨u, hu, rfl⟩ := eq_of_execute_call he
  rw [perform, hc]
  exact CallStack.used_of_push hu

theorem used_of_return (h : m.executed? random a = some s) (hs : s.IsReturn) :
    ∃ v, m.stack.used = (m.perform random a).machine.stack.used ++ [v] ∧
      (m.perform random a).machine.pc = v % 4096 := by
  obtain ⟨t, n, notices, rfl, rfl, -, -, he, -, hc⟩ := exists_of_executed h
  change m.upcoming = .plain .ret at hs
  rw [hs] at he
  obtain ⟨v, u, hu, rfl⟩ := eq_of_execute_ret he
  rw [perform, hc]
  exact ⟨v, CallStack.used_of_pop hu, rfl⟩

theorem stack_of_other (h : m.executed? random a = some s) (hc : ¬ s.IsCall)
    (hr : ¬ s.IsReturn) : (m.perform random a).machine.stack = m.stack := by
  obtain ⟨t, n, notices, rfl, rfl, -, -, -, hf, hn⟩ := exists_of_executed h
  rw [perform, hn]
  exact hf.stack (fun nnn hi ↦ hc ⟨nnn, hi⟩) hr

/-- The addresses on the stack are those behind the calls that are still unmatched. -/
theorem used_run (hn : ∀ now, Action.reset now ∉ actions) (hm : m.stack.used = []) :
    (m.run random actions).stack.used = (unmatched (m.trace random actions)).map (· + 2) := by
  induction actions using List.reverseRecOn with
  | nil => exact hm
  | append_singleton actions a ih =>
    have ih := ih fun now hmem ↦ hn now (List.mem_append_left _ hmem)
    rw [run_snoc, trace_snoc]
    cases hx : (m.run random actions).executed? random a with
    | none =>
      have ha : ∀ now, a ≠ .reset now := by
        rintro now rfl
        exact hn now (by simp)
      rw [(perform_of_executed_none hx ha).1, Option.toList_none, List.append_nil, ih]
    | some s =>
      rw [Option.toList_some]
      by_cases hc : s.IsCall
      · rw [used_of_call hx hc, unmatched_snoc_call hc, ih, List.map_append]
        rfl
      · by_cases hr : s.IsReturn
        · obtain ⟨v, hv, -⟩ := used_of_return hx hr
          rw [unmatched_snoc_return hr, List.map_dropLast, ← ih, hv, List.dropLast_concat]
        · rw [stack_of_other hx hc hr, unmatched_snoc_other hc hr, ih]

theorem pc_of_return {steps : List Step}
    (hused : m.stack.used = (unmatched steps).map (· + 2)) (h : m.executed? random a = some s)
    (hs : s.IsReturn) :
    (∃ c, Innermost steps c) ∧
      ∀ c, Innermost steps c → (m.perform random a).machine.pc = (c.address + 2) % 4096 := by
  obtain ⟨v, hv, hp⟩ := used_of_return h hs
  rw [hused] at hv
  constructor
  · rcases List.eq_nil_or_concat (unmatched steps) with hu | ⟨addresses, b, hu⟩
    · rw [hu, List.map_nil] at hv
      exact absurd hv.symm (by simp)
    · rw [List.concat_eq_append] at hu
      obtain ⟨before, c, inner, hsteps, hc, hi, -⟩ := exists_innermost hu
      exact ⟨c, before, inner, hsteps, hc, hi⟩
  · intro c hc
    obtain ⟨addresses, hu⟩ := unmatched_of_innermost hc
    rw [hu, List.map_append] at hv
    obtain ⟨-, hv⟩ := List.append_singleton_inj.mp hv
    rw [hp, ← hv]

/-- In a run since a reset, calls and returns match like brackets, and no part of the stack but
the addresses in use has any effect. -/
theorem calls_nest (random : Nat → Int) (m : Machine) (now : Int) {actions : List Action}
    (hn : ∀ now, Action.reset now ∉ actions) :
    let r := (m.reset now).run random actions
    let steps := (m.reset now).trace random actions
    r.stack.used = (unmatched steps).map (· + 2) ∧
    (∀ t s, r.executed? random (.cycle t) = some s → s.IsReturn →
      (∃ c, Innermost steps c) ∧
      ∀ c, Innermost steps c → (r.cycle random t).machine.pc = (c.address + 2) % 4096) ∧
    (∀ t, (r.cycle random t).FailsWith .stackOverflow ↔
      (∃ nnn, r.Begins (.address .call nnn)) ∧ (unmatched steps).length = 16) ∧
    (∀ t, (r.cycle random t).FailsWith .stackUnderflow ↔
      r.Begins (.plain .ret) ∧ unmatched steps = []) ∧
    ∀ s : CallStack Nat 16, s.used = r.stack.used → ∀ later,
      List.Forall₂ Outcome.Agrees (r.outcomes random later)
        ({ r with stack := s }.outcomes random later) ∧
      ({ r with stack := s }.run random later).dump = (r.run random later).dump := by
  intro r steps
  have hused : r.stack.used = (unmatched steps).map (· + 2) := used_run hn CallStack.used_zeroed
  have hdepth : r.stack.depth = (unmatched steps).length := by
    rw [← r.stack.length_used, hused, List.length_map]
  refine ⟨hused, ?_, ?_, ?_, ?_⟩
  · intro t s hx hs
    exact pc_of_return hused hx hs
  · intro t
    rw [fails_stackOverflow_iff, hdepth]
  · intro t
    rw [fails_stackUnderflow_iff, hdepth, List.length_eq_zero_iff]
  · intro s hs later
    have h : r.Agrees { r with stack := s } := ⟨s, hs, rfl⟩
    exact ⟨outcomes_agree h later, (run_agrees h later).dump⟩

theorem calls_nest_last_address :
    let actions : List Action := [.load [0x1F, 0xFE, 0x00, 0xEE], .poke 4094 [0x22, 0x02],
      .cycle (.still 0), .cycle (.still 0)]
    (∀ now, Action.reset now ∉ actions) ∧
      (unmatched ((blank.reset 0).trace (fun _ ↦ 0) actions)).map (· + 2) = [4096] := by
  intro actions
  have hn : ∀ now, Action.reset now ∉ actions := by simp [actions]
  have hused := (calls_nest (fun _ ↦ 0) blank 0 hn).1
  exact ⟨hn, hused.symm.trans (by decide +kernel)⟩

end ChipEight.Machine
