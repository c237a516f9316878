import ChipEight.Proofs.Trace

namespace ChipEight

def Instruction.MovesStore : Instruction → Prop
  | .address .setIndex _ | .register .addIndex _ | .register .glyph _ | .register .storeDigits _
  | .register .saveRegisters _ => True
  | _ => False

def Action.MovesStore : Action → Prop
  | .reset _ | .load _ | .poke _ _ => True
  | _ => False

namespace Machine

def SameStore (m n : Machine) : Prop :=
  n.memory = m.memory ∧ n.index = m.index

variable {random : Nat → Int} {m n p : Machine} {a : Action} {actions : List Action} {t : Moment}
  {i : Instruction} {x : Nibble} {address : Nat}

theorem SameStore.trans (h : SameStore m n) (hp : SameStore n p) : SameStore m p :=
  ⟨hp.1.trans h.1, hp.2.trans h.2⟩

theorem Frame.sameStore (h : Frame i m n) (hi : ¬ i.MovesStore) : SameStore m n := by
  constructor
  · apply h.memory
    · rintro x rfl
      exact hi trivial
    · rintro x rfl
      exact hi trivial
  · apply h.index
    · rintro nnn rfl
      exact hi trivial
    · rintro x rfl
      exact hi trivial
    · rintro x rfl
      exact hi trivial

theorem cycle_sameStore (hs : ∀ s ∈ m.executed? random (.cycle t), ¬ s.instruction.MovesStore) :
    SameStore m (m.cycle random t).machine := by
  cases hx : m.executed? random (.cycle t) with
  | none =>
    rw [cycle_of_executed_none hx]
    exact ⟨rfl, rfl⟩
  | some s =>
    obtain ⟨t', n, notices, ht, rfl, -, -, -, hf, hc⟩ := exists_of_executed hx
    cases ht
    have hn : SameStore m.advanced n := hf.sameStore (hs _ hx)
    rw [hc]
    exact hn

theorem perform_sameStore (ha : ¬ a.MovesStore)
    (hs : ∀ s ∈ m.executed? random a, ¬ s.instruction.MovesStore) :
    SameStore m (m.perform random a).machine := by
  cases a with
  | cycle t => exact cycle_sameStore hs
  | poll now => exact ⟨rfl, rfl⟩
  | press k =>
    rw [perform]
    cases hp : m.press k with
    | error e =>
      change SameStore m e.machine
      rw [machine_of_press_error hp]
      exact ⟨rfl, rfl⟩
    | ok r =>
      change SameStore m r.1
      rw [eq_of_press hp]
      exact ⟨rfl, rfl⟩
  | release k =>
    rw [perform]
    cases hr : m.release k with
    | error e => exact ⟨rfl, rfl⟩
    | ok n =>
      obtain ⟨held, rfl⟩ := eq_of_release hr
      exact ⟨rfl, rfl⟩
  | sprite x y rows =>
    rw [perform]
    cases (m.screen.draw x y rows).mapError Fault.screen <;> exact ⟨rfl, rfl⟩
  | load | poke | reset => exact absurd trivial ha

theorem run_sameStore (ha : ∀ a ∈ actions, ¬ a.MovesStore)
    (hs : ∀ s ∈ m.trace random actions, ¬ s.instruction.MovesStore) :
    SameStore m (m.run random actions) := by
  refine run_preserves_of_trace (P := SameStore m) ?_ hs ⟨rfl, rfl⟩
  intro a hmem n hn h
  exact h.trans (perform_sameStore (ha a hmem) hn)

/-- The registers of `m` up to `x` are saved in `n`, from its index on. -/
structure Saved (x : Nibble) (m n : Machine) : Prop where
  fits : n.index.val + (x.val + 1) ≤ 4096
  byte : ∀ y ≤ x, n.memory.byteAt (n.index + y) = m.register y

theorem Saved.sameStore (h : Saved x m n) (hp : SameStore n p) : Saved x m p := by
  obtain ⟨hmemory, hindex⟩ := hp
  refine ⟨?_, fun y hy ↦ ?_⟩
  · rw [hindex]
    exact h.fits
  · rw [hmemory, hindex]
    exact h.byte y hy

theorem byteAt_saved (m : Machine) (hb : m.index.val + (x.val + 1) ≤ 4096) {y : Nibble}
    (hy : y.val ≤ x.val) :
    (m.memory.splice m.index (m.registers.toList.take (x + 1))).byteAt (m.index + y) =
      m.register y := by
  have hlength := m.length_saved x
  rw [Memory.byteAt_splice_add _ (by omega), List.getElem?_take_of_lt (by omega),
    Vector.getElem?_toList, Vector.getElem?_eq_getElem y.isLt]
  rfl

theorem saved_cycle
    (h : m.executed? random (.cycle t) = some ⟨address, .register .saveRegisters x⟩) :
    Saved x m (m.cycle random t).machine ∧ (m.cycle random t).machine.index = m.index := by
  obtain ⟨t', n, notices, ht, hs, -, -, he, -, hc⟩ := exists_of_executed h
  cases ht
  injection hs with _ hi
  rw [← hi, execute, executeRegister] at he
  have hlength := m.advanced.length_saved x
  by_cases hb : 4096 < m.index.val + (x.val + 1)
  · rw [writeAtIndex_of_lt (by rw [hlength]; exact hb)] at he
    cases he
  · have hle := Nat.not_lt.mp hb
    rw [writeAtIndex_of_le (by rw [hlength]; exact hle)] at he
    cases he
    rw [hc]
    exact ⟨⟨hle, fun y hy ↦ m.byteAt_saved hle hy⟩, rfl⟩

theorem sameStore_registers (m : Machine) (registers : Vector Byte 16) :
    SameStore m { m with registers } :=
  ⟨rfl, rfl⟩

theorem register_fillRegisters (m : Machine) (f : Nat → Byte) (x y : Nibble) :
    (m.fillRegisters ((List.range (x + 1)).map f)).register y =
      if y ≤ x then f y else m.register y := by
  change (Vector.ofFn fun i : Fin 16 ↦
    ((List.range (x + 1)).map f)[i.val]?.getD (m.registers.get i))[y.val] = _
  rw [Vector.getElem_ofFn, List.getElem?_map]
  by_cases hy : y ≤ x
  · have hlt : y.val < x.val + 1 := Nat.lt_succ_of_le hy
    rw [if_pos hy, List.getElem?_range hlt]
    rfl
  · have hlt : ¬ y.val < x.val + 1 := fun h ↦ hy (Nat.le_of_lt_succ h)
    rw [if_neg hy, List.getElem?_eq_none (by simpa using hlt)]
    rfl

theorem cycle_loadRegisters (h : m.Begins (.register .loadRegisters x))
    (hb : m.index.val + (x.val + 1) ≤ 4096) (random : Nat → Int) (t : Moment) :
    (m.cycle random t).answer = .ok false ∧
      SameStore m (m.cycle random t).machine ∧
      ∀ y, (m.cycle random t).machine.register y =
        if y ≤ x then m.memory.byteAt (m.index + y) else m.register y := by
  obtain ⟨hw, hp, hi⟩ := h
  obtain ⟨n, hn⟩ : ∃ n, n = m.advanced.fillRegisters ((List.range (x + 1)).map fun i ↦
    m.memory.byteAt (m.index.val + i)) := ⟨_, rfl⟩
  have he : m.advanced.execute random t.execute m.upcoming = .ok (n, []) := by
    rw [hi, execute, executeRegister, readAtIndex_of_le (m := m.advanced) hb]
    exact congrArg (fun n ↦ Except.ok (n, [])) hn.symm
  have hredraw : n.redraw = false := by
    rw [hn]
    rfl
  have hstore : SameStore m.advanced n := by
    rw [hn]
    exact m.advanced.sameStore_registers _
  have hregisters : ∀ y, n.register y =
      if y ≤ x then m.memory.byteAt (m.index + y) else m.register y := by
    rw [hn]
    exact m.advanced.register_fillRegisters (fun i ↦ m.memory.byteAt (m.index.val + i)) x
  rw [cycle_of_execute_ok hw hp he]
  refine ⟨?_, hstore, hregisters⟩
  rw [finish_answer, hredraw]

/-- `n` is what `p` becomes when the registers of `m` up to `x` are loaded. -/
structure Restored (x : Nibble) (m p n : Machine) : Prop where
  loaded : ∀ y ≤ x, n.register y = m.register y
  others : ∀ y > x, n.register y = p.register y
  store : SameStore p n

theorem Saved.load (h : Saved x m p) {x' : Nibble} (hx : x' ≤ x)
    (hp : p.Begins (.register .loadRegisters x')) (random : Nat → Int) (t : Moment) :
    (p.cycle random t).answer = .ok false ∧ Restored x' m p (p.cycle random t).machine := by
  have hfits : p.index.val + (x'.val + 1) ≤ 4096 := by
    have := h.fits
    have : x'.val ≤ x.val := hx
    omega
  obtain ⟨hanswer, hstore, hregisters⟩ := cycle_loadRegisters hp hfits random t
  refine ⟨hanswer, ?_, ?_, hstore⟩
  · intro y hy
    rw [hregisters, if_pos hy, h.byte y (Fin.le_trans hy hx)]
  · intro y hy
    rw [hregisters, if_neg (Fin.not_le.mpr hy)]

/-- Registers that are saved come back when they are loaded, whatever is done in between, as long
as nothing sets the index or writes to memory. -/
theorem saved_registers_return {random : Nat → Int} {m : Machine} {t : Moment} {address : Nat}
    {x x' : Nibble} {actions : List Action}
    (hsave : m.executed? random (.cycle t) = some ⟨address, .register .saveRegisters x⟩)
    (hactions : ∀ a ∈ actions, ¬ a.MovesStore)
    (hsteps : ∀ s ∈ (m.cycle random t).machine.trace random actions, ¬ s.instruction.MovesStore)
    (hx : x' ≤ x)
    (hload : ((m.cycle random t).machine.run random actions).Begins
      (.register .loadRegisters x'))
    (t' : Moment) :
    let saved := (m.cycle random t).machine
    let before := saved.run random actions
    let o := before.cycle random t'
    o.answer = .ok false ∧
    (∀ y ≤ x', o.machine.register y = m.register y) ∧
    (∀ y > x', o.machine.register y = before.register y) ∧
    SameStore saved before ∧ SameStore saved o.machine ∧ saved.index = m.index := by
  intro saved before o
  obtain ⟨hsaved, hindex⟩ := saved_cycle hsave
  have hsame : SameStore saved before := run_sameStore hactions hsteps
  have hbefore : Saved x m before := hsaved.sameStore hsame
  obtain ⟨hanswer, hrestored⟩ := hbefore.load hx hload random t'
  exact ⟨hanswer, hrestored.loaded, hrestored.others, hsame, hsame.trans hrestored.store, hindex⟩

/-- Of two registers that are saved and then overwritten the first is loaded again. -/
theorem saved_registers_return_partial :
    let m := (fresh 0).run (fun _ ↦ 0)
      [.load [0xA3, 0x00, 0x60, 0x07, 0xF1, 0x55, 0x60, 0x09, 0x61, 0x0A, 0xF0, 0x65],
        .cycle (.still 0), .cycle (.still 0)]
    let saved := (m.cycle (fun _ ↦ 0) (.still 0)).machine
    let before := saved.run (fun _ ↦ 0) [.cycle (.still 0), .press 3, .cycle (.still 0)]
    let o := before.cycle (fun _ ↦ 0) (.still 0)
    m.executed? (fun _ ↦ 0) (.cycle (.still 0)) = some ⟨0x204, .register .saveRegisters 1⟩ ∧
      before.Begins (.register .loadRegisters 0) ∧ before.register 0 = 9 ∧
      o.answer = .ok false ∧ o.machine.register 0 = 7 ∧ o.machine.register 1 = 0xA := by
  intro m saved before o
  obtain ⟨hsave, htrace, hwaiting, hpc, hupcoming, hzero⟩ :
      m.executed? (fun _ ↦ 0) (.cycle (.still 0)) = some ⟨0x204, .register .saveRegisters 1⟩ ∧
        saved.trace (fun _ ↦ 0) [.cycle (.still 0), .press 3, .cycle (.still 0)] =
          [⟨0x206, .immediate .set 0 9⟩, ⟨0x208, .immediate .set 1 0xA⟩] ∧
        before.waiting = false ∧ before.pc ≤ 4094 ∧
        before.upcoming = .register .loadRegisters 0 ∧
        (m.register 0 = 7 ∧ before.register 0 = 9 ∧ before.register 1 = 0xA) := by
    decide +kernel
  have hactions : ∀ a ∈ [Action.cycle (.still 0), .press 3, .cycle (.still 0)],
      ¬ a.MovesStore := by simp [Action.MovesStore]
  have hsteps : ∀ s ∈ saved.trace (fun _ ↦ 0) [.cycle (.still 0), .press 3, .cycle (.still 0)],
      ¬ s.instruction.MovesStore := by
    rw [htrace]
    simp [Instruction.MovesStore]
  have hload : before.Begins (.register .loadRegisters 0) := ⟨hwaiting, hpc, hupcoming⟩
  obtain ⟨hanswer, hloaded, hothers, -⟩ := saved_registers_return hsave hactions hsteps
    (Fin.zero_le 1) hload (.still 0)
  refine ⟨hsave, hload, hzero.2.1, hanswer, ?_, ?_⟩
  · exact (hloaded 0 (Fin.le_refl 0)).trans hzero.1
  · exact (hothers 1 (by decide)).trans hzero.2.2

end Machine

end ChipEight
