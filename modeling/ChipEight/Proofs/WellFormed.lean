import ChipEight.Frontend.Display
import ChipEight.Proofs.Actions
import ChipEight.Proofs.Cycle
import Mathlib.Data.List.Induction

namespace ChipEight.Machine

structure WellFormed (m : Machine) : Prop where
  memory : m.memory.bytes.toList.length = 4096
  registers : m.registers.toList.length = 16 ∧ ∀ v ∈ m.registers.toList, v.toNat ≤ 255
  index : m.index.val ≤ 4095
  pc : m.pc ≤ 4096
  waiting : m.waiting = true → m.pc ≤ 4095
  depth : m.stack.depth ≤ 16
  returns : ∀ a ∈ m.stack.used, a ≤ 4096
  timers : m.delay.count.toNat ≤ 255 ∧ m.sound.count.toNat ≤ 255
  keyRegister : m.keyRegister.val ≤ 15
  lastKey : m.keypad.lastKey.val ≤ 15
  keys : m.keypad.held.toList.length = 16
  pixels : m.screen.levels.length = 2048 ∧ ∀ p ∈ m.screen.levels, p = 0 ∨ p = 1

/-- The part of well-formedness that the types do not carry. -/
structure Bounded (m : Machine) : Prop where
  pc : m.pc ≤ 4096
  waiting : m.waiting = true → m.pc ≤ 4095
  returns : ∀ a ∈ m.stack.used, a ≤ 4096

theorem Bounded.wellFormed {m : Machine} (h : m.Bounded) : m.WellFormed where
  memory := Vector.length_toList
  registers := ⟨Vector.length_toList, fun v _ ↦ Nat.le_of_lt_succ v.toNat_lt⟩
  index := Nat.le_of_lt_succ m.index.isLt
  pc := h.pc
  waiting := h.waiting
  depth := m.stack.depth_le
  returns := h.returns
  timers := ⟨Nat.le_of_lt_succ m.delay.count.toNat_lt, Nat.le_of_lt_succ m.sound.count.toNat_lt⟩
  keyRegister := Nat.le_of_lt_succ m.keyRegister.isLt
  lastKey := Nat.le_of_lt_succ m.keypad.lastKey.isLt
  keys := Vector.length_toList
  pixels := by
    refine ⟨by rw [Screen.levels, List.length_map, Vector.length_toList]; rfl, fun p hp ↦ ?_⟩
    obtain ⟨b, -, rfl⟩ := List.mem_map.mp hp
    cases b
    · exact .inl rfl
    · exact .inr rfl

variable {random : Nat → Int} {m n : Machine}

theorem bounded_reset (m : Machine) (now : Int) : (m.reset now).Bounded where
  pc := show programStart ≤ 4096 by decide
  waiting h := by cases h
  returns a ha := by
    have hs : (m.reset now).stack.used = [] := CallStack.used_zeroed
    rw [hs] at ha
    cases ha

theorem used_of_execute {now : Int} {i : Instruction} {notices : List Notice}
    (h : m.execute random now i = .ok (n, notices)) (hf : Frame i m n) :
    ∀ a ∈ n.stack.used, a ∈ m.stack.used ∨ a = m.pc := by
  intro a ha
  by_cases hc : ∃ nnn, i = .address .call nnn
  · obtain ⟨nnn, rfl⟩ := hc
    obtain ⟨s, hs, rfl⟩ := eq_of_execute_call h
    simpa [CallStack.used_of_push hs] using ha
  · by_cases hr : i = .plain .ret
    · subst hr
      obtain ⟨p, s, hs, rfl⟩ := eq_of_execute_ret h
      rw [CallStack.used_of_pop hs]
      exact .inl (List.mem_append_left _ ha)
    · rw [hf.stack (fun nnn hi ↦ hc ⟨nnn, hi⟩) hr] at ha
      exact .inl ha

theorem Bounded.cycle (h : m.Bounded) (t : Moment) : (m.cycle random t).machine.Bounded := by
  have hc := m.cycle_course random t
  generalize m.cycle random t = o at hc ⊢
  cases hc with
  | wait hw => exact ⟨h.pc, h.waiting, h.returns⟩
  | unfetched hw hp => exact ⟨h.pc, h.waiting, h.returns⟩
  | crash reason hw hp ho =>
    exact ⟨Nat.add_le_add_right hp 2, fun hw' ↦ absurd (hw.symm.trans hw') (by decide), h.returns⟩
  | step n notices hw hp ho he hf =>
    have hlt : n.pc % 4096 ≤ 4095 := Nat.le_of_lt_succ (Nat.mod_lt _ (by decide))
    refine ⟨Nat.le_succ_of_le hlt, fun _ ↦ hlt, fun a ha ↦ ?_⟩
    rcases used_of_execute he hf a ha with ha | rfl
    · exact h.returns a ha
    · exact Nat.add_le_add_right hp 2

theorem Bounded.outside (h : m.Bounded) (hu : Untouched m n) : n.Bounded where
  pc := hu.pc ▸ h.pc
  waiting hw := hu.pc ▸ h.waiting (hu.waiting hw)
  returns := hu.stack ▸ h.returns

theorem Bounded.perform (h : m.Bounded) (a : Action) : (m.perform random a).machine.Bounded := by
  cases a with
  | cycle t => exact h.cycle t
  | reset now => exact m.bounded_reset now
  | poll | press | release | load | poke | sprite =>
    exact h.outside (perform_untouched random m trivial)

theorem bounded_run (random : Nat → Int) (start : Int) (actions : List Action) :
    ((fresh start).run random actions).Bounded :=
  run_preserves (fun a _ _ h ↦ h.perform a) (blank.bounded_reset start)

theorem Bounded.pc_of_answer (h : m.Bounded) {t : Moment} {b : Bool}
    (ha : (m.cycle random t).answer = .ok b) : (m.cycle random t).machine.pc ≤ 4095 := by
  have hc := m.cycle_course random t
  generalize m.cycle random t = o at ha hc ⊢
  cases hc with
  | wait hw => exact h.waiting hw
  | unfetched | crash => cases ha
  | step n notices hw hp ho he hf => exact Nat.le_of_lt_succ (Nat.mod_lt _ (by decide))

/-- A failed cycle has left `pc` at the end of the memory, and none has moved it since. -/
theorem crash_of_pc_eq {start : Int} {actions : List Action}
    (hp : ((fresh start).run random actions).pc = 4096) :
    ∃ before t after c, actions = before ++ .cycle t :: after ∧
      (((fresh start).run random before).cycle random t).answer = .error (.crash c) ∧
      ∀ a ∈ after, a.Outside := by
  induction actions using List.reverseRecOn with
  | nil => cases hp
  | append_singleton actions a ih =>
    rw [run_snoc] at hp
    by_cases ha : a.Outside
    · rw [(perform_untouched random _ ha).pc] at hp
      obtain ⟨before, t, after, c, rfl, hc, hafter⟩ := ih hp
      refine ⟨before, t, after ++ [a], c, by simp, hc, fun b hb ↦ ?_⟩
      rcases List.mem_append.mp hb with hb | hb
      · exact hafter b hb
      · exact List.mem_singleton.mp hb ▸ ha
    · cases a with
      | reset now => cases hp
      -- A cycle that answers has wrapped `pc`, so the last one must have failed.
      | cycle t =>
        cases hr : (((fresh start).run random actions).cycle random t).answer with
        | ok b =>
          have hlt := (bounded_run random start actions).pc_of_answer hr
          exact absurd hp (Nat.ne_of_lt (Nat.lt_succ_of_le hlt))
        | error e =>
          obtain ⟨r, -, ho⟩ := cycle_of_error hr
          rw [ho] at hr
          cases hr
          refine ⟨actions, t, [], ⟨r, _⟩, rfl, congrArg Outcome.answer ho, fun b hb ↦ ?_⟩
          cases hb
      | _ => exact absurd trivial ha

/-- Whatever is done with a machine, and in whatever order, keeps it within its ranges, and its
cycles have four ways to fail. -/
theorem run_wellFormed (random : Nat → Int) (start : Int) (actions : List Action) :
    let m := (fresh start).run random actions
    m.WellFormed ∧
    (m.pc = 4096 → ∃ before t after c, actions = before ++ .cycle t :: after ∧
      (((fresh start).run random before).cycle random t).answer = .error (.crash c) ∧
      ∀ a ∈ after, a.Outside) ∧
    ∀ t,
      (∀ e, (m.cycle random t).answer = .error e →
        ∃ r ∈ [Reason.fetch, .stackOverflow, .stackUnderflow, .memoryAccess],
          e = .crash ⟨r, m.pc⟩) ∧
      ∀ b, (m.cycle random t).answer = .ok b → (m.cycle random t).machine.pc ≤ 4095 := by
  intro m
  have hm : m.Bounded := bounded_run random start actions
  refine ⟨hm.wellFormed, crash_of_pc_eq, ?_⟩
  intro t
  constructor
  · intro e he
    obtain ⟨r, hr, ho⟩ := cycle_of_error he
    rw [ho] at he
    cases he
    exact ⟨r, hr, rfl⟩
  · intro b hb
    exact hm.pc_of_answer hb

-- The bound on `pc` is reached.
example :
    ((fresh 0).run (fun _ ↦ 0) [.load [0x1F, 0xFE], .poke 4094 [0x00, 0xEE], .cycle (.still 0),
      .cycle (.still 0)]).pc = 4096 := by
  decide +kernel

end ChipEight.Machine
