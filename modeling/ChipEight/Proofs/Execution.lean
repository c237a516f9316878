import ChipEight.Machine.Cycle
import ChipEight.Proofs.Drawing
import ChipEight.Proofs.Limits

namespace ChipEight

def Instruction.span : Instruction → Nat
  | .draw _ _ n => n
  | .register .storeDigits _ => 3
  | .register .saveRegisters x | .register .loadRegisters x => x + 1
  | _ => 0

namespace Machine

def obstacle (m : Machine) : Instruction → Option Reason
  | .plain .ret => if m.stack.depth = 0 then some .stackUnderflow else none
  | .address .call _ => if m.stack.depth = 16 then some .stackOverflow else none
  | i => if 4096 < m.index.val + i.span then some .memoryAccess else none

structure Frame (i : Instruction) (m n : Machine) : Prop where
  memory : (∀ x, i ≠ .register .storeDigits x) → (∀ x, i ≠ .register .saveRegisters x) →
    n.memory = m.memory
  screen : i ≠ .plain .clear → (∀ x y h, i ≠ .draw x y h) →
    n.screen = m.screen ∧ n.redraw = m.redraw
  keypad : n.keypad = m.keypad
  stack : (∀ nnn, i ≠ .address .call nnn) → i ≠ .plain .ret → n.stack = m.stack
  index : (∀ nnn, i ≠ .address .setIndex nnn) → (∀ x, i ≠ .register .addIndex x) →
    (∀ x, i ≠ .register .glyph x) → n.index = m.index
  opAddress : n.opAddress = m.opAddress
  delay : (∀ x, i ≠ .register .setDelay x) → n.delay = m.delay
  sound : (∀ x, i ≠ .register .setSound x) → n.sound = m.sound
  waiting : (∀ x, i ≠ .register .awaitKey x) →
    n.waiting = m.waiting ∧ n.keyRegister = m.keyRegister
  drawn : (∀ x nn, i ≠ .immediate .random x nn) → n.drawn = m.drawn

/-- Most instructions touch nothing but registers and `pc`. -/
theorem Frame.flow (i : Instruction) (m : Machine) (registers : Vector Byte 16) (pc : Nat) :
    Frame i m { m with registers, pc } where
  memory _ _ := rfl
  screen _ _ := ⟨rfl, rfl⟩
  keypad := rfl
  stack _ _ := rfl
  index _ _ _ := rfl
  opAddress := rfl
  delay _ := rfl
  sound _ := rfl
  waiting _ := ⟨rfl, rfl⟩
  drawn _ := rfl

theorem Frame.skipIf (i : Instruction) (m : Machine) (p : Bool) : Frame i m (m.skipIf p) := by
  cases p
  · exact .flow i m m.registers m.pc
  · exact .flow i m m.registers (m.pc + 2)

theorem Frame.setRegister (i : Instruction) (m : Machine) (x : Nibble) (v : Byte) :
    Frame i m (m.setRegister x v) :=
  .flow i m (m.setRegister x v).registers m.pc

theorem Frame.setFlagged (i : Instruction) (m : Machine) (x : Nibble) (v : Byte) (flag : Bool) :
    Frame i m (m.setFlagged x v flag) :=
  .flow i m (m.setFlagged x v flag).registers m.pc

/-- The result of an instruction: an error where there is an obstacle, and else a machine that
keeps what the instruction does not touch. -/
def Obeys (m : Machine) (i : Instruction) (r : Except (Raise Fault) (Machine × List Notice)) :
    Prop :=
  match m.obstacle i with
  | some reason => r = m.crashed reason
  | none => ∃ n notices, r = .ok (n, notices) ∧ Frame i m n

variable {i : Instruction} {m n : Machine} {r : Except (Raise Fault) (Machine × List Notice)}

theorem Obeys.of_ok {notices : List Notice} (h : m.obstacle i = none) (hf : Frame i m n) :
    m.Obeys i (.ok (n, notices)) := by
  rw [Obeys, h]
  exact ⟨n, notices, rfl, hf⟩

theorem Obeys.of_crash {reason : Reason} (h : m.obstacle i = some reason)
    (hr : r = m.crashed reason) : m.Obeys i r := by
  rw [Obeys, h]
  exact hr

theorem fits_nothing (m : Machine) : ¬ 4096 < m.index.val + 0 := by
  omega

theorem writeAtIndex_of_le {data : List Byte} (h : m.index.val + data.length ≤ 4096) :
    m.writeAtIndex data = .ok { m with memory := m.memory.splice m.index data } := by
  have hb := (Memory.inBounds_natCast_iff 4096 m.index.val data.length).mpr (by omega)
  rw [writeAtIndex, m.memory.writeBytes_of_inBounds hb]
  rfl

theorem writeAtIndex_of_lt {data : List Byte} (h : 4096 < m.index.val + data.length) :
    m.writeAtIndex data = m.crashed .memoryAccess := by
  have hb := mt (Memory.inBounds_natCast_iff 4096 m.index.val data.length).mp (by omega)
  rw [writeAtIndex, m.memory.writeBytes_of_not_inBounds hb]

theorem readAtIndex_of_le {count : Nat} (h : m.index.val + count ≤ 4096) :
    m.readAtIndex count =
      .ok ((List.range count).map fun i ↦ m.memory.byteAt (m.index.val + i)) := by
  have hb := (Memory.inBounds_natCast_iff 4096 m.index.val count).mpr (by omega)
  rw [readAtIndex, m.memory.readRange_of_inBounds hb]
  rfl

theorem readAtIndex_of_lt {count : Nat} (h : 4096 < m.index.val + count) :
    m.readAtIndex count = m.crashed .memoryAccess := by
  have hb := mt (Memory.inBounds_natCast_iff 4096 m.index.val count).mp (by omega)
  rw [readAtIndex, m.memory.readRange_of_not_inBounds hb]

theorem length_saved (m : Machine) (x : Nibble) :
    (m.registers.toList.take (x + 1)).length = x + 1 := by
  rw [List.length_take, Vector.length_toList]
  omega

theorem executePlain_obeys (m : Machine) (op : PlainOp) :
    m.Obeys (.plain op) (do return (← m.executePlain op, [])) := by
  cases op with
  | clear =>
    refine .of_ok (if_neg m.fits_nothing) ?_
    exact { Frame.flow _ m m.registers m.pc with screen := fun h _ ↦ absurd rfl h }
  | ret =>
    by_cases hd : m.stack.depth = 0
    · refine .of_crash (if_pos hd) ?_
      simp only [executePlain, CallStack.pop_of_empty hd]
      rfl
    · obtain ⟨a, s, hs, -⟩ := CallStack.pop_of_pos (Nat.pos_of_ne_zero hd)
      simp only [executePlain, hs]
      refine .of_ok (if_neg hd) ?_
      exact { Frame.flow _ m m.registers a with stack := fun _ h ↦ absurd rfl h }

theorem executeAddress_obeys (m : Machine) (nnn : Address) (op : AddressOp) :
    m.Obeys (.address op nnn) (m.executeAddress nnn op) := by
  cases op with
  | sys => exact .of_ok (if_neg m.fits_nothing) (.flow _ m m.registers m.pc)
  | jump => exact .of_ok (if_neg m.fits_nothing) (.flow _ m m.registers nnn)
  | call =>
    by_cases hd : m.stack.depth = 16
    · refine .of_crash (if_pos hd) ?_
      simp only [executeAddress, CallStack.push_of_full hd]
    · have hlt : m.stack.depth < 16 := Nat.lt_of_le_of_ne m.stack.depth_le hd
      obtain ⟨s, hs, -⟩ := CallStack.push_of_lt hlt m.pc
      simp only [executeAddress, hs]
      refine .of_ok (if_neg hd) ?_
      exact { Frame.flow _ m m.registers nnn with stack := fun h _ ↦ absurd rfl (h nnn) }
  | setIndex =>
    refine .of_ok (if_neg m.fits_nothing) ?_
    exact { Frame.flow _ m m.registers m.pc with index := fun h _ _ ↦ absurd rfl (h nnn) }
  | jumpOffset =>
    exact .of_ok (if_neg m.fits_nothing) (.flow _ m m.registers (nnn + (m.register 0).toNat))

theorem executeImmediate_obeys (random : Nat → Int) (m : Machine) (x : Nibble) (nn : Byte)
    (op : ImmediateOp) :
    m.Obeys (.immediate op x nn) (.ok (executeImmediate random m x nn op, [])) := by
  refine .of_ok (if_neg m.fits_nothing) ?_
  cases op with
  | skipEq | skipNe => exact .skipIf _ m _
  | set | add => exact .setRegister _ m x _
  | random =>
    exact { Frame.flow _ m m.registers m.pc with drawn := fun h ↦ absurd rfl (h x nn) }

theorem executePair_obeys (m : Machine) (x y : Nibble) (op : PairOp) :
    m.Obeys (.pair op x y) (.ok (m.executePair x y op, [])) := by
  refine .of_ok (if_neg m.fits_nothing) ?_
  cases op with
  | skipEq | skipNe => exact .skipIf _ m _
  | copy | or | and | xor => exact .setRegister _ m x _
  | add | sub | subReverse => exact .setFlagged _ m x _ _

theorem executeDraw_obeys (m : Machine) (x y n : Nibble) :
    m.Obeys (.draw x y n) (do return (← m.executeDraw x y n, [])) := by
  by_cases hb : 4096 < m.index.val + n.val
  · refine .of_crash (if_pos hb) ?_
    rw [executeDraw, readAtIndex_of_lt hb]
    rfl
  · rw [executeDraw, readAtIndex_of_le (Nat.not_lt.mp hb)]
    obtain ⟨⟨hit, s⟩, hs⟩ := m.screen.draw_of_pos (m.register x).toNat (m.register y).toNat
      (((List.range n.val).map fun i ↦ m.memory.byteAt (m.index.val + i)).map
        fun row ↦ (row.toNat : Int)) (by decide) (by decide)
    have hdraw := congrArg (Except.mapError fun e ↦ (⟨m, .screen e⟩ : Raise Fault)) hs
    change _ = Except.ok (hit, s) at hdraw
    simp only [bind, Except.bind, hdraw]
    refine .of_ok (if_neg hb) ?_
    exact { Frame.flow _ m m.registers m.pc with screen := fun _ h ↦ absurd rfl (h x y n) }

theorem executeRegister_obeys (now : Int) (m : Machine) (x : Nibble) (op : RegisterOp) :
    m.Obeys (.register op x) (executeRegister now m x op) := by
  have hsaved := m.length_saved x
  cases op with
  | shiftRight | shiftLeft =>
    rw [executeRegister]
    exact .of_ok (if_neg m.fits_nothing) (.setFlagged _ m x _ _)
  | getDelay => exact .of_ok (if_neg m.fits_nothing) (.setRegister _ m x _)
  | skipKey | skipNotKey =>
    simp only [executeRegister, Keypad.isHeld_emod]
    exact .of_ok (if_neg m.fits_nothing) (.skipIf _ m _)
  | awaitKey =>
    refine .of_ok (if_neg m.fits_nothing) ?_
    exact { Frame.flow _ m m.registers m.pc with waiting := fun h ↦ absurd rfl (h x) }
  | setDelay =>
    refine .of_ok (if_neg m.fits_nothing) ?_
    exact { Frame.flow _ m m.registers m.pc with delay := fun h ↦ absurd rfl (h x) }
  | setSound =>
    refine .of_ok (if_neg m.fits_nothing) ?_
    exact { Frame.flow _ m m.registers m.pc with sound := fun h ↦ absurd rfl (h x) }
  | addIndex =>
    refine .of_ok (if_neg m.fits_nothing) ?_
    exact { Frame.flow _ m m.registers m.pc with index := fun _ h _ ↦ absurd rfl (h x) }
  | glyph =>
    refine .of_ok (if_neg m.fits_nothing) ?_
    exact { Frame.flow _ m m.registers m.pc with index := fun _ _ h ↦ absurd rfl (h x) }
  | storeDigits =>
    by_cases hb : 4096 < m.index.val + 3
    · refine .of_crash (if_pos hb) ?_
      rw [executeRegister, writeAtIndex_of_lt hb]
      rfl
    · rw [executeRegister, writeAtIndex_of_le (Nat.not_lt.mp hb)]
      refine .of_ok (if_neg hb) ?_
      exact { Frame.flow _ m m.registers m.pc with memory := fun h _ ↦ absurd rfl (h x) }
  | saveRegisters =>
    by_cases hb : 4096 < m.index.val + (x.val + 1)
    · refine .of_crash (if_pos hb) ?_
      rw [executeRegister, writeAtIndex_of_lt (by rw [hsaved]; exact hb)]
      rfl
    · rw [executeRegister, writeAtIndex_of_le (by rw [hsaved]; exact Nat.not_lt.mp hb)]
      refine .of_ok (if_neg hb) ?_
      exact { Frame.flow _ m m.registers m.pc with memory := fun _ h ↦ absurd rfl (h x) }
  | loadRegisters =>
    by_cases hb : 4096 < m.index.val + (x.val + 1)
    · refine .of_crash (if_pos hb) ?_
      rw [executeRegister, readAtIndex_of_lt hb]
      rfl
    · rw [executeRegister, readAtIndex_of_le (Nat.not_lt.mp hb)]
      exact .of_ok (if_neg hb) (.flow _ m _ m.pc)

/-- An instruction fails exactly where there is an obstacle; else it is executed. -/
theorem execute_obeys (random : Nat → Int) (now : Int) (m : Machine) (i : Instruction) :
    m.Obeys i (execute random now m i) := by
  cases i with
  | plain op => exact m.executePlain_obeys op
  | address op nnn => exact m.executeAddress_obeys nnn op
  | register op x => exact executeRegister_obeys now m x op
  | immediate op x nn => exact executeImmediate_obeys random m x nn op
  | pair op x y => exact m.executePair_obeys x y op
  | draw x y n => exact m.executeDraw_obeys x y n
  | unknown word => exact .of_ok (if_neg m.fits_nothing) (.flow _ m m.registers m.pc)

theorem frame_of_execute {random : Nat → Int} {now : Int} {notices : List Notice}
    (h : m.execute random now i = .ok (n, notices)) : Frame i m n := by
  have ho := execute_obeys random now m i
  rw [Obeys, h] at ho
  split at ho
  · cases ho
  · obtain ⟨_, _, he, hf⟩ := ho
    cases he
    exact hf

/-- An instruction that fails has changed nothing. -/
theorem machine_of_execute_error {random : Nat → Int} {now : Int} {e : Raise Fault}
    (h : m.execute random now i = .error e) : e.machine = m := by
  have ho := execute_obeys random now m i
  rw [Obeys, h] at ho
  split at ho
  · cases ho
    rfl
  · obtain ⟨_, _, he, -⟩ := ho
    cases he

theorem eq_of_execute_call {random : Nat → Int} {now : Int} {notices : List Notice}
    {nnn : Address} (h : m.execute random now (.address .call nnn) = .ok (n, notices)) :
    ∃ s, m.stack.push m.pc = .ok s ∧ n = { m with stack := s, pc := nnn } := by
  rw [execute, executeAddress] at h
  cases hs : m.stack.push m.pc with
  | error e => rw [hs] at h; cases h
  | ok s => rw [hs] at h; cases h; exact ⟨s, rfl, rfl⟩

theorem eq_of_execute_ret {random : Nat → Int} {now : Int} {notices : List Notice}
    (h : m.execute random now (.plain .ret) = .ok (n, notices)) :
    ∃ a s, m.stack.pop = .ok (a, s) ∧ n = { m with stack := s, pc := a } := by
  rw [execute, executePlain] at h
  cases hs : m.stack.pop with
  | error e => rw [hs] at h; cases h
  | ok p => obtain ⟨a, s⟩ := p; rw [hs] at h; cases h; exact ⟨a, s, rfl, rfl⟩

end Machine

end ChipEight
