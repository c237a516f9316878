import ChipEight.Proofs.Actions
import ChipEight.Proofs.Execution

namespace ChipEight

/-- The parts of a machine that most instructions have nothing to do with. -/
structure Background where
  stack : CallStack Nat 16
  delay : Timer
  sound : Timer
  drawn : Nat

def Instruction.UsesBackground : Instruction → Prop
  | .plain .ret | .address .call _ | .immediate .random _ _ | .register .getDelay _
  | .register .setDelay _ | .register .setSound _ => True
  | _ => False

theorem Instruction.UsesBackground.cases {i : Instruction} (h : i.UsesBackground) :
    i = .plain .ret ∨ (∃ nnn, i = .address .call nnn) ∨
      (∃ x nn, i = .immediate .random x nn) ∨
      ∃ x, i = .register .getDelay x ∨ i = .register .setDelay x ∨ i = .register .setSound x := by
  cases i with
  | plain op => cases op <;> simp_all [UsesBackground]
  | address op nnn => cases op <;> simp_all [UsesBackground]
  | register op x => cases op <;> simp_all [UsesBackground]
  | immediate op x nn => cases op <;> simp_all [UsesBackground]
  | _ => exact h.elim

def Raise.map {ε : Type} (f : Machine → Machine) (e : Raise ε) : Raise ε :=
  ⟨f e.machine, e.fault⟩

namespace Machine

def mapResult (f : Machine → Machine) (r : Except (Raise Fault) (Machine × List Notice)) :
    Except (Raise Fault) (Machine × List Notice) :=
  (r.mapError (.map f)).map fun (m, notices) ↦ (f m, notices)

def background (m : Machine) : Background :=
  ⟨m.stack, m.delay, m.sound, m.drawn⟩

def mapBackground (f : Background → Background) (m : Machine) : Machine :=
  let b := f m.background
  { m with stack := b.stack, delay := b.delay, sound := b.sound, drawn := b.drawn }

variable {random random' : Nat → Int} {now now' : Int} {m : Machine}
  {f : Background → Background} {i : Instruction} {a : Action}

theorem skipIf_mapBackground (p : Bool) :
    (m.mapBackground f).skipIf p = (m.skipIf p).mapBackground f := by
  cases p <;> rfl

theorem readAtIndex_mapBackground (count : Nat) :
    (m.mapBackground f).readAtIndex count =
      (m.readAtIndex count).mapError (.map (mapBackground f)) := by
  simp only [readAtIndex, mapBackground]
  cases m.memory.readRange m.index count <;> rfl

theorem writeAtIndex_mapBackground (data : List Byte) :
    (m.mapBackground f).writeAtIndex data =
      ((m.writeAtIndex data).mapError (.map (mapBackground f))).map (mapBackground f) := by
  simp only [writeAtIndex, mapBackground]
  cases m.memory.writeBytes m.index data <;> rfl

theorem mapResult_silent {r r' : Except (Raise Fault) Machine}
    (h : r' = (r.mapError (.map (mapBackground f))).map (mapBackground f)) :
    (do return (← r', []) : Except (Raise Fault) (Machine × List Notice)) =
      mapResult (mapBackground f) (do return (← r, [])) := by
  subst h
  cases r <;> rfl

theorem executeDraw_mapBackground (x y h : Nibble) :
    (m.mapBackground f).executeDraw x y h =
      ((m.executeDraw x y h).mapError (.map (mapBackground f))).map (mapBackground f) := by
  rw [executeDraw, executeDraw, readAtIndex_mapBackground]
  cases m.readAtIndex h with
  | error e => rfl
  | ok rows =>
    simp only [mapError_ok, bind, Except.bind, register, mapBackground]
    cases m.screen.draw (m.registers.get x).toNat (m.registers.get y).toNat
      (rows.map fun row ↦ (row.toNat : Int)) <;> rfl

theorem executeRegister_mapBackground (x : Nibble) (op : RegisterOp)
    (hi : ¬ (Instruction.register op x).UsesBackground) :
    executeRegister now' (m.mapBackground f) x op =
      mapResult (mapBackground f) (executeRegister now m x op) := by
  cases op with
  | getDelay | setDelay | setSound => exact absurd trivial hi
  | skipKey | skipNotKey =>
    simp only [executeRegister, Keypad.isHeld_emod]
    exact congrArg (fun n ↦ Except.ok (n, [])) (skipIf_mapBackground _)
  | storeDigits | saveRegisters => exact mapResult_silent (writeAtIndex_mapBackground _)
  | loadRegisters =>
    rw [executeRegister, executeRegister, readAtIndex_mapBackground]
    cases m.readAtIndex (x + 1) <;> rfl
  | _ => rfl

/-- What most instructions do is independent of the background, the clock and the random
numbers. -/
theorem execute_mapBackground (random random' : Nat → Int) (now now' : Int) (m : Machine)
    (f : Background → Background) (hi : ¬ i.UsesBackground) :
    (m.mapBackground f).execute random' now' i =
      mapResult (mapBackground f) (m.execute random now i) := by
  cases i with
  | plain op =>
    cases op with
    | clear => rfl
    | ret => exact absurd trivial hi
  | address op nnn =>
    cases op with
    | call => exact absurd trivial hi
    | _ => rfl
  | register op x => exact executeRegister_mapBackground x op hi
  | immediate op x nn =>
    cases op with
    | skipEq | skipNe => exact congrArg (fun n ↦ Except.ok (n, [])) (skipIf_mapBackground _)
    | random => exact absurd trivial hi
    | _ => rfl
  | pair op x y =>
    cases op with
    | skipEq | skipNe => exact congrArg (fun n ↦ Except.ok (n, [])) (skipIf_mapBackground _)
    | _ => rfl
  | draw x y h =>
    exact mapResult_silent (executeDraw_mapBackground x y h)
  | unknown word => rfl

theorem press_mapBackground (k : Int) :
    (m.mapBackground f).press k = mapResult (mapBackground f) (m.press k) := by
  by_cases hk : Keypad.IsKey k
  · obtain ⟨d, rfl⟩ := exists_nibble_of_isKey hk
    cases hw : m.waiting with
    | true =>
      rw [press_of_waiting hw, press_of_waiting (m := m.mapBackground f) hw]
      rfl
    | false =>
      rw [press_of_not_waiting hw, press_of_not_waiting (m := m.mapBackground f) hw]
      rfl
  · rw [press_of_not_isKey hk, press_of_not_isKey hk]
    rfl

theorem release_mapBackground (k : Int) :
    (m.mapBackground f).release k = (m.release k).map (mapBackground f) := by
  simp only [release, mapBackground]
  cases (m.keypad.release k).mapError Fault.keypad <;> rfl

theorem load_mapBackground (rom : List Byte) :
    (m.mapBackground f).load rom = (m.load rom).map (mapBackground f) := by
  simp only [load, mapBackground]
  cases m.memory.writeBytes programStart rom <;> rfl

theorem perform_mapBackground (random random' : Nat → Int) (m : Machine)
    (f : Background → Background) (ha : a.Outside) (hp : ∀ now, a ≠ .poll now) :
    let o := m.perform random a
    (m.mapBackground f).perform random' a = ⟨o.machine.mapBackground f, o.notices, o.answer⟩ := by
  cases a with
  | cycle t | reset now => exact ha.elim
  | poll now => exact absurd rfl (hp now)
  | press k =>
    simp only [perform, press_mapBackground]
    cases m.press k <;> rfl
  | release k =>
    simp only [perform, release_mapBackground]
    cases m.release k <;> rfl
  | load rom =>
    simp only [perform, load_mapBackground]
    cases m.load rom <;> rfl
  | poke address data =>
    simp only [perform, mapBackground]
    cases (m.memory.writeRange address data).mapError Fault.memory <;> rfl
  | sprite x y rows =>
    simp only [perform, mapBackground]
    cases (m.screen.draw x y rows).mapError Fault.screen <;> rfl

end Machine

end ChipEight
