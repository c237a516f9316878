import ChipEight.Proofs.Execution

namespace ChipEight

/-- Branches, skips and what is ignored: these instructions work on `pc` and the stack only. -/
def Instruction.IsFlow : Instruction → Prop
  | .plain op => op = .ret
  | .address op _ => op ≠ .setIndex
  | .register op _ => op = .skipKey ∨ op = .skipNotKey
  | .immediate op _ _ => op = .skipEq ∨ op = .skipNe
  | .pair op _ _ => op = .skipEq ∨ op = .skipNe
  | .draw _ _ _ => False
  | .unknown _ => True

namespace Machine

/-- Whether an instruction skips the next one. The low digit of a register names a key. -/
def skips (m : Machine) : Instruction → Bool
  | .immediate .skipEq x nn => m.register x == nn
  | .immediate .skipNe x nn => m.register x != nn
  | .pair .skipEq x y => m.register x == m.register y
  | .pair .skipNe x y => m.register x != m.register y
  | .register .skipKey x => m.keypad.held.get (Nibble.ofNat (m.register x).toNat)
  | .register .skipNotKey x => !m.keypad.held.get (Nibble.ofNat (m.register x).toNat)
  | _ => false

/-- Where an instruction leaves `pc`, which is past it already. Without a call there is nowhere to
return to. -/
def goal? (m : Machine) : Instruction → Option Nat
  | .address .jump nnn | .address .call nnn => some nnn
  | .address .jumpOffset nnn => some (nnn + (m.register 0).toNat)
  | .plain .ret => m.stack.used.getLast?
  | i => some (if m.skips i then m.pc + 2 else m.pc)

variable {random : Nat → Int} {m n : Machine} {i : Instruction} {now : Int}
  {notices : List Notice} {x : Nibble}

theorem goal_skipIf (m : Machine) (p : Bool) :
    some (if p then m.pc + 2 else m.pc) = some (m.skipIf p).pc := by
  cases p <;> rfl

theorem pc_of_writeAtIndex {data : List Byte} (h : m.writeAtIndex data = .ok n) :
    n.pc = m.pc := by
  rw [writeAtIndex] at h
  split at h
  · cases h
    rfl
  · cases h

theorem executeRegister_goal {op : RegisterOp}
    (h : executeRegister now m x op = .ok (n, notices)) :
    m.goal? (.register op x) = some n.pc := by
  cases op with
  | skipKey | skipNotKey =>
    rw [executeRegister, Keypad.isHeld_emod] at h
    cases h
    exact m.goal_skipIf _
  | storeDigits | saveRegisters =>
    obtain ⟨k, hk, h⟩ := exists_of_bind h
    cases h
    exact congrArg some (pc_of_writeAtIndex hk).symm
  | loadRegisters =>
    obtain ⟨data, -, h⟩ := exists_of_bind h
    cases h
    rfl
  | _ =>
    cases h
    rfl

theorem execute_goal (h : m.execute random now i = .ok (n, notices)) :
    m.goal? i = some n.pc := by
  cases i with
  | plain op =>
    cases op with
    | clear =>
      cases h
      rfl
    | ret =>
      obtain ⟨a, s, hs, rfl⟩ := eq_of_execute_ret h
      change m.stack.used.getLast? = some a
      rw [CallStack.used_of_pop hs, List.getLast?_concat]
  | address op nnn =>
    cases op with
    | call =>
      obtain ⟨s, -, rfl⟩ := eq_of_execute_call h
      rfl
    | _ =>
      cases h
      rfl
  | register op x => exact executeRegister_goal h
  | immediate op x nn =>
    cases h
    cases op with
    | skipEq | skipNe => exact m.goal_skipIf _
    | set | add | random => rfl
  | pair op x y =>
    cases h
    cases op with
    | skipEq | skipNe => exact m.goal_skipIf _
    | _ => rfl
  | draw x y k =>
    obtain ⟨drawn, hd, h⟩ := exists_of_bind h
    cases h
    obtain ⟨rows, -, hd⟩ := exists_of_bind hd
    obtain ⟨screen, -, hd⟩ := exists_of_bind hd
    cases hd
    rfl
  | unknown word =>
    cases h
    rfl

theorem skipIf_flow (m : Machine) (p : Bool) :
    m.skipIf p = { m with pc := (m.skipIf p).pc, stack := (m.skipIf p).stack } := by
  cases p <;> rfl

theorem execute_flow (hi : i.IsFlow) (h : m.execute random now i = .ok (n, notices)) :
    n = { m with pc := n.pc, stack := n.stack } := by
  cases i with
  | plain op =>
    cases hi
    obtain ⟨a, s, -, rfl⟩ := eq_of_execute_ret h
    rfl
  | address op nnn =>
    cases op with
    | setIndex => exact absurd rfl hi
    | call =>
      obtain ⟨s, -, rfl⟩ := eq_of_execute_call h
      rfl
    | sys | jump | jumpOffset =>
      cases h
      rfl
  | register op x =>
    rcases hi with rfl | rfl <;>
    · rw [execute, executeRegister, Keypad.isHeld_emod] at h
      cases h
      exact m.skipIf_flow _
  | immediate op x nn | pair op x y =>
    rcases hi with rfl | rfl <;>
    · cases h
      exact m.skipIf_flow _
  | draw x y k => exact hi.elim
  | unknown word =>
    cases h
    rfl

end Machine

end ChipEight
