import ChipEight.Machine.Run
import ChipEight.Proofs.Limits

namespace ChipEight

def Keypad.IsKey (k : Int) : Prop :=
  0 ≤ k ∧ k ≤ 15

def Action.Outside : Action → Prop
  | .cycle _ | .reset _ => False
  | _ => True

def Action.EndsWait : Action → Prop
  | .press k => Keypad.IsKey k
  | .reset _ => True
  | _ => False

namespace Machine

/-- What actions from outside leave as it is. They can end a wait but start none. -/
structure Untouched (m n : Machine) : Prop where
  stack : n.stack = m.stack
  index : n.index = m.index
  pc : n.pc = m.pc
  opAddress : n.opAddress = m.opAddress
  redraw : n.redraw = m.redraw
  keyRegister : n.keyRegister = m.keyRegister
  drawn : n.drawn = m.drawn
  waiting : n.waiting = true → m.waiting = true

/-- `n` differs from `m` at most in what actions from outside work on. -/
def Aside (m n : Machine) : Prop :=
  n = { m with
    memory := n.memory
    screen := n.screen
    keypad := n.keypad
    delay := n.delay
    sound := n.sound }

variable {random : Nat → Int} {m n : Machine}

theorem Aside.registers (h : Aside m n) : n.registers = m.registers := by
  rw [h]

theorem Aside.untouched (h : Aside m n) : Untouched m n := by
  rw [h]
  exact ⟨rfl, rfl, rfl, rfl, rfl, rfl, rfl, id⟩

theorem run_snoc (random : Nat → Int) (m : Machine) (actions : List Action) (a : Action) :
    m.run random (actions ++ [a]) = ((m.run random actions).perform random a).machine :=
  run_append random m actions [a]

theorem run_preserves {P : Machine → Prop} {actions : List Action}
    (hstep : ∀ a ∈ actions, ∀ m, P m → P (m.perform random a).machine) (h : P m) :
    P (m.run random actions) := by
  induction actions generalizing m with
  | nil => exact h
  | cons a actions ih =>
    have ha := hstep a (List.mem_cons_self ..) m h
    exact ih (fun b hb ↦ hstep b (List.mem_cons_of_mem _ hb)) ha

theorem exists_nibble_of_isKey {k : Int} (h : Keypad.IsKey k) : ∃ d : Nibble, k = d.val := by
  obtain ⟨h₀, h₁⟩ := h
  exact ⟨⟨k.toNat, by omega⟩, (Int.toNat_of_nonneg h₀).symm⟩

theorem press_of_not_isKey {k : Int} (h : ¬ Keypad.IsKey k) :
    m.press k = .error ⟨m, .keypad ⟨k⟩⟩ := by
  have hk : Keypad.key? k = .error ⟨k⟩ := dif_neg (by simp only [Keypad.IsKey] at h; omega)
  rw [press, Keypad.press, hk]
  rfl

theorem press_of_waiting (hw : m.waiting = true) (k : Nibble) :
    m.press k =
      .ok ({ m.setRegister m.keyRegister (.ofNat k) with
          keypad := ⟨m.keypad.held.setIfInBounds k true, k⟩, waiting := false },
        [.keyStored k m.keyRegister]) := by
  rw [press, Keypad.press, Keypad.key?_eq_ok_iff.mpr rfl]
  exact if_pos hw

theorem press_of_not_waiting (hw : m.waiting = false) (k : Nibble) :
    m.press k = .ok ({ m with keypad := ⟨m.keypad.held.setIfInBounds k true, k⟩ }, []) := by
  rw [press, Keypad.press, Keypad.key?_eq_ok_iff.mpr rfl]
  exact if_neg (ne_true_of_eq_false hw)

theorem release_natCast (m : Machine) (k : Nibble) :
    m.release k =
      .ok { m with keypad := ⟨m.keypad.held.setIfInBounds k false, m.keypad.lastKey⟩ } := by
  rw [release, Keypad.release, Keypad.key?_eq_ok_iff.mpr rfl]
  rfl

theorem eq_of_press {k : Int} {notices : List Notice} (h : m.press k = .ok (n, notices)) :
    n = { m with registers := n.registers, keypad := n.keypad, waiting := n.waiting } := by
  obtain ⟨keypad, -, h⟩ := exists_of_bind h
  dsimp only at h
  split at h <;> cases h <;> rfl

theorem machine_of_press_error {k : Int} {e : Raise Fault} (h : m.press k = .error e) :
    e.machine = m := by
  rcases error_of_bind h with h | ⟨keypad, -, h⟩
  · obtain ⟨e, -, rfl⟩ := exists_of_mapError h
    rfl
  · dsimp only at h
    split at h <;> cases h

theorem eq_of_release {k : Int} (h : m.release k = .ok n) :
    ∃ held, n = { m with keypad := ⟨held, m.keypad.lastKey⟩ } := by
  rw [release, Keypad.release] at h
  cases hk : Keypad.key? k with
  | error e => rw [hk] at h; cases h
  | ok d => rw [hk] at h; cases h; exact ⟨_, rfl⟩

theorem eq_of_load {rom : List Byte} (h : m.load rom = .ok n) :
    ∃ memory, n = { m with memory } := by
  rw [load] at h
  split at h
  · cases h; exact ⟨_, rfl⟩
  · cases h

theorem perform_poll (random : Nat → Int) (m : Machine) (now : Int) :
    m.perform random (.poll now) = ⟨(m.poll now).machine, (m.poll now).notices, .ok none⟩ := by
  rw [perform, poll_answer]
  rfl

theorem perform_press_of_waiting (random : Nat → Int) (hw : m.waiting = true) (k : Nibble) :
    m.perform random (.press k.val) =
      ⟨{ m.setRegister m.keyRegister (.ofNat k) with
          keypad := ⟨m.keypad.held.setIfInBounds k true, k⟩, waiting := false },
        [.keyStored k m.keyRegister], .ok none⟩ := by
  rw [perform, press_of_waiting hw]
  rfl

theorem perform_aside {a : Action} (random : Nat → Int) (ha : a.Outside)
    (hw : a.EndsWait → m.waiting = false) : Aside m (m.perform random a).machine := by
  cases a with
  | cycle t | reset now => exact ha.elim
  | poll now => rfl
  | press k =>
    by_cases hk : Keypad.IsKey k
    · obtain ⟨d, rfl⟩ := exists_nibble_of_isKey hk
      rw [perform, press_of_not_waiting (hw hk)]
      rfl
    · rw [perform, press_of_not_isKey hk]
      rfl
  | release k =>
    rw [perform]
    cases hr : m.release k with
    | error e => rfl
    | ok n =>
      obtain ⟨held, rfl⟩ := eq_of_release hr
      rfl
  | load rom =>
    rw [perform]
    cases hl : m.load rom with
    | error e => rfl
    | ok n =>
      obtain ⟨memory, rfl⟩ := eq_of_load hl
      rfl
  | poke address data =>
    rw [perform]
    cases (m.memory.writeRange address data).mapError Fault.memory <;> rfl
  | sprite x y rows =>
    rw [perform]
    cases (m.screen.draw x y rows).mapError Fault.screen <;> rfl

theorem perform_untouched {a : Action} (random : Nat → Int) (m : Machine) (ha : a.Outside) :
    Untouched m (m.perform random a).machine := by
  cases hw : m.waiting with
  | false => exact (perform_aside random ha fun _ ↦ hw).untouched
  | true =>
    by_cases hend : a.EndsWait
    · cases a with
      | press k =>
        obtain ⟨d, rfl⟩ := exists_nibble_of_isKey hend
        rw [perform_press_of_waiting random hw]
        exact ⟨rfl, rfl, rfl, rfl, rfl, rfl, rfl, fun _ ↦ hw⟩
      | reset now => exact ha.elim
      | _ => exact hend.elim
    · exact (perform_aside random ha fun h ↦ absurd h hend).untouched

end Machine

end ChipEight
