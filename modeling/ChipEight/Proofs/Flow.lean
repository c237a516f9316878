import ChipEight.Proofs.Branching
import ChipEight.Proofs.Diagnostics
import Mathlib.Data.List.Basic

namespace ChipEight

def Instruction.Branches : Instruction → Prop
  | .address .jump _ | .address .call _ | .address .jumpOffset _ | .plain .ret => True
  | _ => False

namespace Machine

/-- Where the program goes on after an instruction at `pc`. Without a call there is nowhere to
return to. -/
def next? (m : Machine) : Instruction → Option Nat
  | .address .jump nnn | .address .call nnn => some nnn
  | .address .jumpOffset nnn => some ((nnn + (m.register 0).toNat) % 4096)
  | .plain .ret => m.stack.used.getLast?.map (· % 4096)
  | i => some (if m.skips i then (m.pc + 4) % 4096 else (m.pc + 2) % 4096)

def stackAfter (m : Machine) : Instruction → Except CallStack.Fault (CallStack Nat 16)
  | .address .call _ => m.stack.push (m.pc + 2)
  | .plain .ret => m.stack.pop.map (·.2)
  | _ => .ok m.stack

variable {random : Nat → Int} {m n : Machine} {i : Instruction} {t : Moment} {now : Int}
  {notices : List Notice} {b : Bool}

theorem next_of_not_branches (hi : ¬ i.Branches) :
    m.next? i = some (if m.skips i then (m.pc + 4) % 4096 else (m.pc + 2) % 4096) := by
  cases i with
  | plain op | address op nnn =>
    cases op <;> first | rfl | exact absurd trivial hi
  | _ => rfl

theorem next_eq (m : Machine) (i : Instruction) :
    m.next? i = (m.advanced.goal? i).map (· % 4096) := by
  have hnnn (nnn : Address) : some nnn.val = some (nnn.val % 4096) := by
    rw [Nat.mod_eq_of_lt nnn.isLt]
  have hnext : some (if m.skips i then (m.pc + 4) % 4096 else (m.pc + 2) % 4096) =
      some ((if m.skips i then m.pc + 4 else m.pc + 2) % 4096) := by
    rw [apply_ite (· % 4096)]
  cases i with
  | plain op => cases op <;> rfl
  | address op nnn =>
    cases op with
    | jump | call => exact hnnn nnn
    | _ => rfl
  | _ => exact hnext

theorem stack_of_execute (h : m.advanced.execute random now i = .ok (n, notices)) :
    m.stackAfter i = .ok n.stack := by
  have hf := frame_of_execute h
  cases i with
  | plain op =>
    cases op with
    | ret =>
      obtain ⟨a, s, hs, rfl⟩ := eq_of_execute_ret h
      exact congrArg (Except.map Prod.snd) hs
    | clear => exact congrArg Except.ok (hf.stack (by simp) (by simp)).symm
  | address op nnn =>
    cases op with
    | call =>
      obtain ⟨s, hs, rfl⟩ := eq_of_execute_call h
      exact hs
    | _ => exact congrArg Except.ok (hf.stack (by simp) (by simp)).symm
  | _ => exact congrArg Except.ok (hf.stack (by simp) (by simp)).symm

theorem exists_of_answer (hw : m.waiting = false) (hi : m.fetch = .ok i)
    (hb : (m.cycle random t).answer = .ok b) :
    ∃ n notices, m.advanced.execute random t.execute i = .ok (n, notices) ∧
      m.cycle random t = { n with pc := n.pc % 4096 }.finish notices t.poll := by
  obtain ⟨-, -, rfl⟩ := begins_of_fetch hw hi
  have hx : m.executed? random (.cycle t) = some ⟨m.pc, m.upcoming⟩ := by rw [executed?, hw, hb]
  obtain ⟨t, n, notices, ht, -, -, -, he, -, hc⟩ := exists_of_executed hx
  cases ht
  exact ⟨n, notices, he, hc⟩

theorem finish_of_flow (hf : n = { m.advanced with pc := n.pc, stack := n.stack })
    (notices : List Notice) (now : Int) :
    { n with pc := n.pc % 4096 }.finish notices now =
      ⟨{ m with
          stack := n.stack
          pc := n.pc % 4096
          opAddress := m.pc
          redraw := false
          delay := m.delay.poll now
          sound := m.sound.poll now },
        notices ++ (m.poll now).2, .ok false⟩ := by
  have hanswer := finish_answer { n with pc := n.pc % 4096 } notices now
  rw [hf] at hanswer ⊢
  exact congrArg (Outcome.mk _ _) hanswer

/-- Where the program goes on after a cycle. An instruction that only moves touches nothing else,
and at the end of the memory the program goes on at its beginning. -/
theorem control_flow_exact (hw : m.waiting = false) (hi : m.fetch = .ok i)
    (hb : (m.cycle random t).answer = .ok b) :
    let o := m.cycle random t
    m.next? i = some o.machine.pc ∧
    (m.pc = 4094 → ¬ i.Branches → o.machine.pc = if m.skips i then 2 else 0) ∧
    (i.IsFlow →
      b = false ∧ m.stackAfter i = .ok o.machine.stack ∧
      o.machine = { m with
        stack := o.machine.stack
        pc := o.machine.pc
        opAddress := m.pc
        redraw := false
        delay := m.delay.poll t.poll
        sound := m.sound.poll t.poll } ∧
      o.notices = Step.notices ⟨m.pc, i⟩ ++ (m.poll t.poll).2 ∧
      ∀ c : Console,
        (∀ word, i = .unknown word → c.stderr o.notices = "Unknown opcode 0x" ++
          Text.hex 4 word.toNat ++ " at address 0x" ++ Text.hex 3 m.pc ++ ", skipping it\n") ∧
        ((∀ word, i ≠ .unknown word) → c.stderr o.notices = "") ∧
        (c.verbose = false → c.stdout o.notices = c.stdout (m.poll t.poll).2)) := by
  intro o
  obtain ⟨n, notices, he, hc⟩ := exists_of_answer hw hi hb
  have hnext : m.next? i = some o.machine.pc := by
    change _ = some (m.cycle random t).machine.pc
    rw [hc, next_eq, execute_goal he]
    rfl
  refine ⟨hnext, ?_, ?_⟩
  · intro hp hbranch
    rw [next_of_not_branches hbranch, hp, Option.some_inj] at hnext
    exact hnext.symm
  · intro hf
    have hflow := execute_flow hf he
    have hstack := stack_of_execute he
    have ho : o = _ := hc.trans (finish_of_flow hflow notices t.poll)
    have hnotices : o.notices = Step.notices ⟨m.pc, i⟩ ++ (m.poll t.poll).2 := by
      rw [ho, notices_of_execute he]
      rfl
    have hanswer : Except.ok b = Except.ok false := hb.symm.trans (congrArg Outcome.answer ho)
    have hstderr (c : Console) : c.stderr o.notices = (Step.warning? ⟨m.pc, i⟩).getD "" := by
      rw [hnotices, c.stderr_append, c.stderr_notices, stderr_poll, String.append_empty]
    refine ⟨Except.ok.inj hanswer, ?_, ?_, hnotices, fun c ↦ ⟨?_, fun hi ↦ ?_, fun hv ↦ ?_⟩⟩
    · rw [ho]
      exact hstack
    · rw [ho]
    · rintro word rfl
      exact hstderr c
    · rw [hstderr c, Step.warning_of_ne hi]
      rfl
    · rw [hnotices, c.stdout_append, Console.stdout_notices hv, String.empty_append]

/-- A skip in the last two bytes of the memory. -/
theorem control_flow_exact_wraps :
    let m := (fresh 0).run (fun _ ↦ 0)
      [.load [0x1F, 0xFE], .poke 4094 [0x30, 0x00], .cycle (.still 0)]
    let o := m.cycle (fun _ ↦ 0) (.still 0)
    m.waiting = false ∧ m.fetch = .ok (.immediate .skipEq 0 0) ∧ m.pc = 4094 ∧
      o.answer = .ok false ∧ o.machine.pc = 2 ∧ o.machine.memory = m.memory := by
  intro m o
  obtain ⟨hw, hp, hupcoming, hskips, ha⟩ :
      m.waiting = false ∧ m.pc = 4094 ∧ m.upcoming = .immediate .skipEq 0 0 ∧
        m.skips (.immediate .skipEq 0 0) = true ∧ o.answer = .ok false := by
    decide +kernel
  have hi : m.fetch = .ok (.immediate .skipEq 0 0) := by
    rw [fetch_of_le (Nat.le_of_eq hp), hupcoming]
  clear_value m
  obtain ⟨-, hlast, hrest⟩ := control_flow_exact hw hi ha
  obtain ⟨-, -, hmachine, -⟩ := hrest (.inl rfl)
  refine ⟨hw, hi, hp, ha, ?_, ?_⟩
  · exact (hlast hp id).trans (if_pos hskips)
  · exact (congrArg Machine.memory hmachine).trans rfl

end Machine

end ChipEight
