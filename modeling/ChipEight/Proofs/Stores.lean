import ChipEight.Proofs.SavedRegisters

namespace ChipEight

def Instruction.IsStore : Instruction → Prop
  | .register .storeDigits _ | .register .saveRegisters _ => True
  | _ => False

namespace Machine

/-- What a cycle does that stores bytes. They go to consecutive addresses from the index on. Of
the rest of the machine nothing changes but `pc` and the timers. -/
structure Stores (m : Machine) (now : Int) (data : List Byte) (o : Outcome Bool) : Prop where
  answer : o.answer = .ok false
  written : ∀ k b, data[k]? = some b → o.machine.memory.byteAt (m.index + k) = b
  outside : ∀ a, a < m.index.val ∨ m.index + data.length ≤ a →
    o.machine.memory.byteAt a = m.memory.byteAt a
  rest : o.machine = { m with
    memory := o.machine.memory
    pc := (m.pc + 2) % 4096
    opAddress := m.pc
    redraw := false
    delay := m.delay.poll now
    sound := m.sound.poll now }

variable {random : Nat → Int} {m : Machine} {a : Action} {actions : List Action} {t : Moment}
  {i : Instruction} {x : Nibble} {data : List Byte}

theorem memory_perform (ha : ¬ a.MovesStore)
    (hs : ∀ s ∈ m.executed? random a, ¬ s.instruction.IsStore) :
    (m.perform random a).machine.memory = m.memory := by
  cases hx : m.executed? random a with
  | none => exact (perform_sameStore ha (by simp [hx])).1
  | some s =>
    have hi := hs s hx
    obtain ⟨t, n, notices, rfl, rfl, -, -, -, hf, hc⟩ := exists_of_executed hx
    rw [perform, hc]
    apply hf.memory
    · intro x h
      exact hi (h ▸ trivial)
    · intro x h
      exact hi (h ▸ trivial)

theorem memory_run (ha : ∀ a ∈ actions, ¬ a.MovesStore)
    (hs : ∀ s ∈ m.trace random actions, ¬ s.instruction.IsStore) :
    (m.run random actions).memory = m.memory := by
  refine run_preserves_of_trace (P := fun n ↦ n.memory = m.memory) ?_ hs rfl
  intro a hmem n hn h
  rw [memory_perform (ha a hmem) hn, h]

theorem stores_of_begins (h : m.Begins i) (hb : m.index.val + data.length ≤ 4096)
    (he : m.advanced.execute random t.execute i = do return (← m.advanced.writeAtIndex data, [])) :
    m.Stores t.poll data (m.cycle random t) := by
  obtain ⟨hw, hp, rfl⟩ := h
  rw [writeAtIndex_of_le (m := m.advanced) hb] at he
  rw [cycle_of_execute_ok hw hp he]
  refine ⟨finish_answer .., ?_, ?_, rfl⟩
  · intro k b hk
    refine (m.memory.byteAt_splice_add hb k).trans ?_
    rw [hk, Option.getD_some]
  · intro a ha
    exact m.memory.byteAt_splice_of_outside ha

theorem decimalDigits_eq (v : Byte) :
    ∃ d₂ d₁ d₀ : Byte, decimalDigits v = [d₂, d₁, d₀] ∧ (d₂ ≤ 9 ∧ d₁ ≤ 9 ∧ d₀ ≤ 9) ∧
      100 * d₂.toNat + 10 * d₁.toNat + d₀.toNat = v.toNat := by
  have hv := v.toNat_lt
  have h₂ : (v / 100).toNat = v.toNat / 100 := UInt8.toNat_div ..
  have h₁ : (v / 10 % 10).toNat = v.toNat / 10 % 10 := by
    rw [UInt8.toNat_mod, UInt8.toNat_div]
    rfl
  have h₀ : (v % 10).toNat = v.toNat % 10 := UInt8.toNat_mod ..
  have h₉ : (9 : Byte).toNat = 9 := rfl
  refine ⟨v / 100, v / 10 % 10, v % 10, rfl, ?_, ?_⟩
  · simp only [UInt8.le_iff_toNat_le, h₂, h₁, h₀, h₉]
    omega
  · omega

/-- A cycle changes memory only if it executes a store. A store puts the decimal digits of a
register, or the registers up to one, at the index and leaves all other bytes as they are, wherever
the index points to, unless they would go past the end of memory; to load registers is to read
only. Besides the cycles, memory is changed by what is loaded from outside and by nothing else. -/
theorem memory_changes_exactly (random : Nat → Int) (t : Moment) (m : Machine) :
    let o := m.cycle random t
    (o.machine.memory ≠ m.memory →
      ∃ s, m.executed? random (.cycle t) = some s ∧ s.instruction.IsStore) ∧
    (∀ i, m.Begins i → 4096 < m.index.val + i.span → o.FailsWith .memoryAccess) ∧
    (∀ x, m.Begins (.register .storeDigits x) → m.index.val + 3 ≤ 4096 →
      ∃ d₂ d₁ d₀ : Byte, (d₂ ≤ 9 ∧ d₁ ≤ 9 ∧ d₀ ≤ 9) ∧
        100 * d₂.toNat + 10 * d₁.toNat + d₀.toNat = (m.register x).toNat ∧
        m.Stores t.poll [d₂, d₁, d₀] o) ∧
    (∀ x, m.Begins (.register .saveRegisters x) → m.index.val + (x.val + 1) ≤ 4096 →
      ∃ data, data.length = x.val + 1 ∧ (∀ y ≤ x, data[y.val]? = some (m.register y)) ∧
        m.Stores t.poll data o) ∧
    (∀ x, m.Begins (.register .loadRegisters x) → m.index.val + (x.val + 1) ≤ 4096 →
      o.answer = .ok false ∧ SameStore m o.machine ∧
        ∀ y, o.machine.register y =
          if y ≤ x then m.memory.byteAt (m.index + y) else m.register y) ∧
    ∀ actions, (∀ a ∈ actions, ¬ a.MovesStore) →
      (∀ s ∈ m.trace random actions, ¬ s.instruction.IsStore) →
      (m.run random actions).memory = m.memory := by
  intro o
  refine ⟨?_, ?_, ?_, ?_, ?_, fun _ ↦ memory_run⟩
  · intro h
    refine Classical.byContradiction fun hs ↦ h ?_
    exact memory_perform (a := .cycle t) id fun s hx hi ↦ hs ⟨s, hx, hi⟩
  · rintro i ⟨hw, hp, rfl⟩ hi
    exact failsWith_iff.mpr ⟨hw, .inr ⟨hp, obstacle_eq_memoryAccess_iff.mpr hi⟩⟩
  · intro x hx hb
    obtain ⟨d₂, d₁, d₀, hdigits, hle, hsum⟩ := decimalDigits_eq (m.register x)
    refine ⟨d₂, d₁, d₀, hle, hsum, ?_⟩
    rw [← hdigits]
    exact stores_of_begins hx hb rfl
  · intro x hx hb
    have hlength := m.length_saved x
    refine ⟨m.registers.toList.take (x + 1), hlength, ?_, ?_⟩
    · intro y hy
      have hlt : y.val < x.val + 1 := Nat.lt_succ_of_le hy
      rw [List.getElem?_take_of_lt hlt, Vector.getElem?_toList, Vector.getElem?_eq_getElem y.isLt]
      rfl
    · exact stores_of_begins hx (by rw [hlength]; exact hb) rfl
  · intro x hx hb
    exact cycle_loadRegisters hx hb random t

/-- The digits of 254 are stored over the very instruction that stores them, and behind it. -/
theorem memory_changes_exactly_own_instruction :
    let m := (fresh 0).run (fun _ ↦ 0)
      [.load [0x60, 0xFE, 0xA2, 0x04, 0xF0, 0x33], .cycle (.still 0), .cycle (.still 0)]
    let o := m.cycle (fun _ ↦ 0) (.still 0)
    m.Begins (.register .storeDigits 0) ∧ m.index.val + 3 ≤ 4096 ∧ m.pc = m.index ∧
      (m.register 0).toNat = 254 ∧ o.answer = .ok false ∧ o.machine.pc = 0x206 ∧
      ∃ d₂ d₁ d₀ : Byte, 100 * d₂.toNat + 10 * d₁.toNat + d₀.toNat = 254 ∧
        o.machine.memory.byteAt 0x204 = d₂ ∧ o.machine.memory.byteAt 0x205 = d₁ ∧
        o.machine.memory.byteAt 0x206 = d₀ ∧ o.machine.memory.byteAt 0x203 = 0x04 := by
  intro m o
  obtain ⟨hw, hp, hupcoming, hindex, hv, hbyte⟩ :
      m.waiting = false ∧ m.pc = 0x204 ∧ m.upcoming = .register .storeDigits 0 ∧
        m.index.val = 0x204 ∧ (m.register 0).toNat = 254 ∧ m.memory.byteAt 0x203 = 0x04 := by
    decide +kernel
  clear_value m
  have hx : m.Begins (.register .storeDigits 0) := ⟨hw, by omega, hupcoming⟩
  have hb : m.index.val + 3 ≤ 4096 := by omega
  obtain ⟨-, -, hdigits, -⟩ := memory_changes_exactly (fun _ ↦ 0) (.still 0) m
  obtain ⟨d₂, d₁, d₀, -, hsum, hstores⟩ := hdigits 0 hx hb
  have hwritten := hstores.written
  rw [hindex] at hwritten
  refine ⟨hx, hb, hp.trans hindex.symm, hv, hstores.answer, ?_, d₂, d₁, d₀, hsum.trans hv,
    hwritten 0 d₂ rfl, hwritten 1 d₁ rfl, hwritten 2 d₀ rfl, ?_⟩
  · have hpc : o.machine.pc = (m.pc + 2) % 4096 := congrArg Machine.pc hstores.rest
    rw [hpc, hp]
  · rw [hstores.outside 0x203 (.inl (by omega)), hbyte]

end Machine

end ChipEight
