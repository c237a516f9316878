import ChipEight.Proofs.Execution

namespace ChipEight

def Outcome.FailsWith {α : Type} (o : Outcome α) (r : Reason) : Prop :=
  ∃ a, o.answer = .error (.crash ⟨r, a⟩)

namespace Machine

def upcoming (m : Machine) : Instruction :=
  decode (.ofBytes (m.memory.byteAt m.pc) (m.memory.byteAt (m.pc + 1)))

def Begins (m : Machine) (i : Instruction) : Prop :=
  m.waiting = false ∧ m.pc ≤ 4094 ∧ m.upcoming = i

inductive Course (random : Nat → Int) (t : Moment) (m : Machine) : Outcome Bool → Prop
  | wait (hw : m.waiting = true) :
      Course random t m ({ m with redraw := false }.finish [] t.poll)
  | unfetched (hw : m.waiting = false) (hp : 4094 < m.pc) :
      Course random t m
        ⟨{ m with redraw := false, opAddress := m.pc }, [], .error (.crash ⟨.fetch, m.pc⟩)⟩
  | crash (reason : Reason) (hw : m.waiting = false) (hp : m.pc ≤ 4094)
      (ho : m.obstacle m.upcoming = some reason) :
      Course random t m ⟨m.advanced, [], .error (.crash ⟨reason, m.pc⟩)⟩
  | step (n : Machine) (notices : List Notice) (hw : m.waiting = false) (hp : m.pc ≤ 4094)
      (ho : m.obstacle m.upcoming = none)
      (he : m.advanced.execute random t.execute m.upcoming = .ok (n, notices))
      (hf : Frame m.upcoming m.advanced n) :
      Course random t m ({ n with pc := n.pc % 4096 }.finish notices t.poll)

theorem fetch_of_le {m : Machine} (h : m.pc ≤ 4094) : m.fetch = .ok m.upcoming := by
  have hb := (Memory.inBounds_natCast_iff 4096 m.pc 2).mpr (by omega)
  rw [fetch, m.memory.readWord_of_inBounds hb]
  rfl

theorem fetch_of_lt {m : Machine} (h : 4094 < m.pc) :
    m.fetch = .error (.outOfBounds m.pc 2) := by
  have hb := mt (Memory.inBounds_natCast_iff 4096 m.pc 2).mp (by omega)
  rw [fetch, m.memory.readWord_of_not_inBounds hb]
  rfl

theorem begins_of_fetch {m : Machine} {i : Instruction} (hw : m.waiting = false)
    (h : m.fetch = .ok i) : m.Begins i := by
  by_cases hp : m.pc ≤ 4094
  · rw [fetch_of_le hp] at h
    exact ⟨hw, hp, Except.ok.inj h⟩
  · rw [fetch_of_lt (Nat.not_le.mp hp)] at h
    cases h

section

variable {random : Nat → Int} {m n : Machine} {t : Moment}

theorem cycle_of_waiting (hw : m.waiting = true) (t : Moment) :
    m.cycle random t = { m with redraw := false }.finish [] t.poll :=
  if_pos hw

theorem cycle_of_lt (hw : m.waiting = false) (hp : 4094 < m.pc) (t : Moment) :
    m.cycle random t =
      ⟨{ m with redraw := false, opAddress := m.pc }, [], .error (.crash ⟨.fetch, m.pc⟩)⟩ := by
  rw [cycle, if_neg (ne_true_of_eq_false hw)]
  simp only [fetch_of_lt hp]

theorem cycle_of_execute_error {e : Raise Fault} (hw : m.waiting = false) (hp : m.pc ≤ 4094)
    (he : m.advanced.execute random t.execute m.upcoming = .error e) :
    m.cycle random t = ⟨m.advanced, [], .error e.fault⟩ := by
  rw [cycle, if_neg (ne_true_of_eq_false hw)]
  simp only [fetch_of_le hp, he, machine_of_execute_error he]

theorem cycle_of_execute_ok {notices : List Notice} (hw : m.waiting = false) (hp : m.pc ≤ 4094)
    (he : m.advanced.execute random t.execute m.upcoming = .ok (n, notices)) :
    m.cycle random t = { n with pc := n.pc % 4096 }.finish notices t.poll := by
  rw [cycle, if_neg (ne_true_of_eq_false hw)]
  simp only [fetch_of_le hp, he]

end

theorem obstacle_advanced (m : Machine) (i : Instruction) :
    m.advanced.obstacle i = m.obstacle i := by
  cases i with
  | plain op | address op => cases op <;> rfl
  | _ => rfl

theorem cycle_course (random : Nat → Int) (t : Moment) (m : Machine) :
    Course random t m (m.cycle random t) := by
  cases hw : m.waiting with
  | true =>
    rw [cycle_of_waiting hw]
    exact .wait hw
  | false =>
    by_cases hp : m.pc ≤ 4094
    · have h := execute_obeys random t.execute m.advanced m.upcoming
      rw [Obeys, obstacle_advanced] at h
      cases ho : m.obstacle m.upcoming with
      | some reason =>
        rw [ho] at h
        rw [cycle_of_execute_error hw hp h]
        exact .crash reason hw hp ho
      | none =>
        rw [ho] at h
        obtain ⟨n, notices, he, hf⟩ := h
        rw [cycle_of_execute_ok hw hp he]
        exact .step n notices hw hp ho he hf
    · have hp : 4094 < m.pc := Nat.not_le.mp hp
      rw [cycle_of_lt hw hp]
      exact .unfetched hw hp

section

variable {m : Machine} {i : Instruction}

theorem obstacle_ne_fetch : m.obstacle i ≠ some .fetch := by
  unfold obstacle
  split <;> split <;> simp

theorem obstacle_eq_stackOverflow_iff :
    m.obstacle i = some .stackOverflow ↔ (∃ nnn, i = .address .call nnn) ∧ m.stack.depth = 16 := by
  unfold obstacle
  split <;> simp_all

theorem obstacle_eq_stackUnderflow_iff :
    m.obstacle i = some .stackUnderflow ↔ i = .plain .ret ∧ m.stack.depth = 0 := by
  unfold obstacle
  split <;> simp_all

theorem span_lt_iff :
    4096 < m.index.val + i.span ↔
      (∃ x y n, i = .draw x y n ∧ 4096 < m.index.val + n.val) ∨
      (∃ x, i = .register .storeDigits x ∧ 4096 < m.index.val + 3) ∨
      (∃ x, (i = .register .saveRegisters x ∨ i = .register .loadRegisters x) ∧
        4096 < m.index.val + x.val + 1) := by
  constructor
  · intro h
    cases i with
    | draw x y n => exact .inl ⟨x, y, n, rfl, h⟩
    | register op x =>
      cases op with
      | storeDigits => exact .inr (.inl ⟨x, rfl, h⟩)
      | saveRegisters => exact .inr (.inr ⟨x, .inl rfl, h⟩)
      | loadRegisters => exact .inr (.inr ⟨x, .inr rfl, h⟩)
      | _ => exact absurd h m.fits_nothing
    | _ => exact absurd h m.fits_nothing
  · rintro (⟨x, y, n, rfl, h⟩ | ⟨x, rfl, h⟩ | ⟨x, rfl | rfl, h⟩) <;> exact h

theorem obstacle_eq_memoryAccess_iff :
    m.obstacle i = some .memoryAccess ↔ 4096 < m.index.val + i.span := by
  unfold obstacle
  split
  · simp [Instruction.span]
  · simp [Instruction.span]
  · simp

theorem failsWith_iff {random : Nat → Int} {t : Moment} {r : Reason} :
    (m.cycle random t).FailsWith r ↔ m.waiting = false ∧
      (4094 < m.pc ∧ r = .fetch ∨ m.pc ≤ 4094 ∧ m.obstacle m.upcoming = some r) := by
  have h := m.cycle_course random t
  generalize m.cycle random t = o at h ⊢
  cases h with
  | wait hw => simp [Outcome.FailsWith, hw]
  | unfetched hw hp => simp [Outcome.FailsWith, hw, hp, Nat.not_le.mpr hp, eq_comm]
  | crash reason hw hp ho => simp [Outcome.FailsWith, hw, hp, Nat.not_lt.mpr hp, ho]
  | step n notices hw hp ho he hf =>
    simp [Outcome.FailsWith, hw, hp, Nat.not_lt.mpr hp, ho]

theorem fails_fetch_iff {random : Nat → Int} {t : Moment} :
    (m.cycle random t).FailsWith .fetch ↔ m.waiting = false ∧ 4094 < m.pc := by
  rw [failsWith_iff]
  simp [obstacle_ne_fetch]

theorem fails_stackOverflow_iff {random : Nat → Int} {t : Moment} :
    (m.cycle random t).FailsWith .stackOverflow ↔
      (∃ nnn, m.Begins (.address .call nnn)) ∧ m.stack.depth = 16 := by
  rw [failsWith_iff, obstacle_eq_stackOverflow_iff]
  simp [Begins, and_assoc]

theorem fails_stackUnderflow_iff {random : Nat → Int} {t : Moment} :
    (m.cycle random t).FailsWith .stackUnderflow ↔
      m.Begins (.plain .ret) ∧ m.stack.depth = 0 := by
  rw [failsWith_iff, obstacle_eq_stackUnderflow_iff]
  simp [Begins, and_assoc]

theorem fails_memoryAccess_iff {random : Nat → Int} {t : Moment} :
    (m.cycle random t).FailsWith .memoryAccess ↔
      (∃ x y n, m.Begins (.draw x y n) ∧ 4096 < m.index.val + n.val) ∨
      (∃ x, m.Begins (.register .storeDigits x) ∧ 4096 < m.index.val + 3) ∨
      (∃ x, (m.Begins (.register .saveRegisters x) ∨ m.Begins (.register .loadRegisters x)) ∧
        4096 < m.index.val + x.val + 1) := by
  rw [failsWith_iff, obstacle_eq_memoryAccess_iff, span_lt_iff]
  constructor
  · rintro ⟨hw, ⟨-, h⟩ | ⟨hp, h⟩⟩
    · cases h
    · rcases h with ⟨x, y, n, hi, hb⟩ | ⟨x, hi, hb⟩ | ⟨x, hi, hb⟩
      · exact .inl ⟨x, y, n, ⟨hw, hp, hi⟩, hb⟩
      · exact .inr (.inl ⟨x, ⟨hw, hp, hi⟩, hb⟩)
      · exact .inr (.inr ⟨x, hi.imp (⟨hw, hp, ·⟩) (⟨hw, hp, ·⟩), hb⟩)
  · rintro (⟨x, y, n, ⟨hw, hp, hi⟩, hb⟩ | ⟨x, ⟨hw, hp, hi⟩, hb⟩ | ⟨x, hi, hb⟩)
    · exact ⟨hw, .inr ⟨hp, .inl ⟨x, y, n, hi, hb⟩⟩⟩
    · exact ⟨hw, .inr ⟨hp, .inr (.inl ⟨x, hi, hb⟩)⟩⟩
    · rcases hi with ⟨hw, hp, hi⟩ | ⟨hw, hp, hi⟩
      · exact ⟨hw, .inr ⟨hp, .inr (.inr ⟨x, .inl hi, hb⟩)⟩⟩
      · exact ⟨hw, .inr ⟨hp, .inr (.inr ⟨x, .inr hi, hb⟩)⟩⟩

/-- A cycle that fails leaves everything but `redraw`, `opAddress` and `pc` as it was. -/
theorem cycle_of_error {random : Nat → Int} {t : Moment} {e : Fault}
    (h : (m.cycle random t).answer = .error e) :
    ∃ r ∈ [Reason.fetch, .stackOverflow, .stackUnderflow, .memoryAccess],
      m.cycle random t =
        ⟨{ m with
            redraw := false
            opAddress := m.pc
            pc := if r = .fetch then m.pc else m.pc + 2 },
          [], .error (.crash ⟨r, m.pc⟩)⟩ := by
  have hc := m.cycle_course random t
  generalize m.cycle random t = o at h hc ⊢
  cases hc with
  | wait hw =>
    rw [finish_answer] at h
    cases h
  | unfetched hw hp => exact ⟨.fetch, by decide, rfl⟩
  | crash reason hw hp ho =>
    have hr : reason ≠ .fetch := fun hr ↦ obstacle_ne_fetch (hr ▸ ho)
    refine ⟨reason, ?_, by rw [if_neg hr]; rfl⟩
    cases reason with
    | fetch => exact absurd rfl hr
    | stackOverflow | stackUnderflow | memoryAccess => decide
    | unspecified | romTooLarge =>
      unfold obstacle at ho
      split at ho <;> split at ho <;> cases ho
  | step n notices hw hp ho he hf =>
    rw [finish_answer] at h
    cases h

end

/-- In every state, when a cycle fails, for which reason, with which address and what it leaves
behind. In all other cases it answers. -/
theorem cycle_fails_exactly (random : Nat → Int) (t : Moment) (m : Machine) :
    let o := m.cycle random t
    (o.FailsWith .fetch ↔ m.waiting = false ∧ 4094 < m.pc) ∧
    (o.FailsWith .stackOverflow ↔
      (∃ nnn, m.Begins (.address .call nnn)) ∧ m.stack.depth = 16) ∧
    (o.FailsWith .stackUnderflow ↔ m.Begins (.plain .ret) ∧ m.stack.depth = 0) ∧
    (o.FailsWith .memoryAccess ↔
      (∃ x y n, m.Begins (.draw x y n) ∧ 4096 < m.index.val + n.val) ∨
      (∃ x, m.Begins (.register .storeDigits x) ∧ 4096 < m.index.val + 3) ∨
      (∃ x, (m.Begins (.register .saveRegisters x) ∨ m.Begins (.register .loadRegisters x)) ∧
        4096 < m.index.val + x.val + 1)) ∧
    ((∃ b, o.answer = .ok b) ∨
      ∃ r ∈ [Reason.fetch, .stackOverflow, .stackUnderflow, .memoryAccess],
        o.answer = .error (.crash ⟨r, m.pc⟩) ∧ o.notices = [] ∧
        o.machine =
          { m with
            redraw := false
            opAddress := m.pc
            pc := if r = .fetch then m.pc else m.pc + 2 }) := by
  intro o
  refine ⟨fails_fetch_iff, fails_stackOverflow_iff, fails_stackUnderflow_iff,
    fails_memoryAccess_iff, ?_⟩
  cases ha : o.answer with
  | ok b => exact .inl ⟨b, rfl⟩
  | error e =>
    obtain ⟨r, hr, ho⟩ := cycle_of_error ha
    have hanswer : o.answer = .error (.crash ⟨r, m.pc⟩) := congrArg Outcome.answer ho
    rw [← ha, hanswer]
    exact .inr ⟨r, hr, rfl, congrArg Outcome.notices ho, congrArg Outcome.machine ho⟩

end Machine

end ChipEight
