import ChipEight.Proofs.Trace
import Mathlib.Data.List.Induction

namespace ChipEight

namespace Action

/-- What a machine that waits for a key sits through with only its timers going on. -/
def Idle : Action → Prop
  | .cycle _ | .poll _ | .release _ => True
  | .press k => ¬ Keypad.IsKey k
  | _ => False

def polls : Action → List Action
  | .cycle t => [.poll t.poll]
  | .poll now => [.poll now]
  | _ => []

end Action

namespace Machine

/-- `n` differs from `m` at most in the keys held, the timers and `redraw`. -/
def Unmoved (m n : Machine) : Prop :=
  n = { m with
    keypad := ⟨n.keypad.held, m.keypad.lastKey⟩
    delay := n.delay
    sound := n.sound
    redraw := n.redraw }

variable {random : Nat → Int} {m n p : Machine} {a : Action} {actions : List Action}

theorem Unmoved.trans (h : Unmoved m n) (hp : Unmoved n p) : Unmoved m p := by
  rw [Unmoved] at h hp ⊢
  rw [h] at hp
  exact hp

theorem Unmoved.waiting (h : Unmoved m n) : n.waiting = m.waiting := by
  rw [h]

theorem perform_idle (ha : a.Idle) (hw : m.waiting = true) :
    Unmoved m (m.perform random a).machine := by
  cases a with
  | cycle t =>
    rw [perform, cycle_of_waiting hw]
    rfl
  | poll now => rfl
  | press k =>
    rw [perform, press_of_not_isKey ha]
    rfl
  | release k =>
    rw [perform]
    cases hr : m.release k with
    | error e => rfl
    | ok n =>
      obtain ⟨held, rfl⟩ := eq_of_release hr
      rfl
  | _ => exact ha.elim

theorem run_idle (hi : ∀ a ∈ actions, a.Idle) (hw : m.waiting = true) :
    Unmoved m (m.run random actions) := by
  induction actions generalizing m with
  | nil => rfl
  | cons a actions ih =>
    have ha : Unmoved m (m.perform random a).machine := perform_idle (hi a (by simp)) hw
    refine ha.trans (ih ?_ (ha.waiting.trans hw))
    intro b hb
    exact hi b (List.mem_cons_of_mem a hb)

theorem perform_idle_timers (random : Nat → Int) (ha : a.Idle) (hw : m.waiting = true)
    (hd : p.delay = m.delay) (hs : p.sound = m.sound) :
    (p.run random a.polls).delay = (m.perform random a).machine.delay ∧
      (p.run random a.polls).sound = (m.perform random a).machine.sound := by
  cases a with
  | cycle t =>
    rw [perform, cycle_of_waiting hw]
    exact ⟨congrArg (·.poll t.poll) hd, congrArg (·.poll t.poll) hs⟩
  | poll now => exact ⟨congrArg (·.poll now) hd, congrArg (·.poll now) hs⟩
  | press k =>
    rw [perform, press_of_not_isKey ha]
    exact ⟨hd, hs⟩
  | release k =>
    rw [perform]
    cases hr : m.release k with
    | error e => exact ⟨hd, hs⟩
    | ok n =>
      obtain ⟨held, rfl⟩ := eq_of_release hr
      exact ⟨hd, hs⟩
  | _ => exact ha.elim

theorem run_idle_timers (random : Nat → Int) (hi : ∀ a ∈ actions, a.Idle) (hw : m.waiting = true)
    (hd : p.delay = m.delay) (hs : p.sound = m.sound) :
    (p.run random (actions.flatMap Action.polls)).delay = (m.run random actions).delay ∧
      (p.run random (actions.flatMap Action.polls)).sound = (m.run random actions).sound := by
  induction actions generalizing m p with
  | nil => exact ⟨hd, hs⟩
  | cons a actions ih =>
    have ha : Unmoved m (m.perform random a).machine := perform_idle (hi a (by simp)) hw
    obtain ⟨hd', hs'⟩ := perform_idle_timers random (hi a (by simp)) hw hd hs
    rw [List.flatMap_cons, run_append]
    refine ih ?_ (ha.waiting.trans hw) hd' hs'
    intro b hb
    exact hi b (List.mem_cons_of_mem a hb)

theorem perform_of_not_endsWait (random : Nat → Int) (ha : ¬ a.EndsWait) (hw : m.waiting = true) :
    let n := (m.perform random a).machine
    n.waiting = true ∧ n.keyRegister = m.keyRegister ∧ n.registers = m.registers ∧ n.pc = m.pc := by
  intro n
  by_cases hout : a.Outside
  · have hn : Aside m n := perform_aside random hout fun h ↦ absurd h ha
    rw [hn]
    exact ⟨hw, rfl, rfl, rfl⟩
  · cases a with
    | cycle t =>
      have hn : Unmoved m n := perform_idle trivial hw
      rw [hn]
      exact ⟨hw, rfl, rfl, rfl⟩
    | reset now => exact absurd trivial ha
    | _ => exact absurd trivial hout

theorem waiting_of_endsWait (ha : a.EndsWait) (hw : m.waiting = true) :
    (m.perform random a).machine.waiting = false := by
  cases a with
  | press k =>
    obtain ⟨d, rfl⟩ := exists_nibble_of_isKey ha
    rw [perform_press_of_waiting random hw]
  | reset now => rfl
  | _ => exact ha.elim

/-- Only an instruction that awaits a key makes the machine wait. -/
theorem awaits_of_waiting (hw : m.waiting = false)
    (hn : (m.perform random a).machine.waiting = true) :
    ∃ x, m.executed? random a = some ⟨m.pc, .register .awaitKey x⟩ := by
  cases hx : m.executed? random a with
  | none =>
    have ha : ∀ now, a ≠ .reset now := by
      rintro now rfl
      cases hn
    have hm := (perform_of_executed_none hx ha).2 hn
    exact absurd (hw.symm.trans hm) (by decide)
  | some s =>
    obtain ⟨t, n, notices, rfl, rfl, -, -, -, hf, hc⟩ := exists_of_executed hx
    by_cases hi : ∃ x, m.upcoming = .register .awaitKey x
    · obtain ⟨x, hi⟩ := hi
      exact ⟨x, by rw [hi]⟩
    · have hwn := (hf.waiting fun x hx ↦ hi ⟨x, hx⟩).1
      rw [perform, hc] at hn
      exact absurd (hw.symm.trans (hwn.symm.trans hn)) (by decide)

theorem waiting_run (hw : m.waiting = false)
    (hs : ∀ s ∈ m.trace random actions, ∀ x, s.instruction ≠ .register .awaitKey x) :
    (m.run random actions).waiting = false := by
  induction actions generalizing m with
  | nil => exact hw
  | cons a actions ih =>
    rw [trace] at hs
    refine ih ?_ fun s hsa ↦ hs s (List.mem_append_right _ hsa)
    refine eq_false_of_ne_true fun hn ↦ ?_
    obtain ⟨x, hx⟩ := awaits_of_waiting hw hn
    exact hs _ (List.mem_append_left _ (by rw [hx]; exact List.mem_singleton_self _)) x rfl

theorem cycle_awaitKey {t : Moment} {address : Nat} {x : Nibble}
    (h : m.executed? random (.cycle t) = some ⟨address, .register .awaitKey x⟩) :
    address = m.pc ∧ m.cycle random t =
      { m with
        redraw := false
        opAddress := m.pc
        pc := (m.pc + 2) % 4096
        waiting := true
        keyRegister := x }.finish [.awaitingKey m.pc] t.poll := by
  obtain ⟨t', n, notices, ht, hs, -, -, he, -, hc⟩ := exists_of_executed h
  cases ht
  injection hs with ha hi
  rw [← hi, execute, executeRegister] at he
  cases he
  exact ⟨ha, hc⟩

/-- A wait has begun with an instruction that awaits a key, and since then no key has been
pressed. -/
theorem wait_origin {start : Int} (hw : ((fresh start).run random actions).waiting = true) :
    ∃ before t after address, actions = before ++ .cycle t :: after ∧
      ((fresh start).run random before).executed? random (.cycle t) =
        some ⟨address, .register .awaitKey ((fresh start).run random actions).keyRegister⟩ ∧
      (∀ b ∈ after, ¬ b.EndsWait) ∧
      ((fresh start).run random actions).registers = ((fresh start).run random before).registers ∧
      ((fresh start).run random actions).pc = (address + 2) % 4096 := by
  induction actions using List.reverseRecOn with
  | nil => cases hw
  | append_singleton actions a ih =>
    rw [run_snoc] at hw ⊢
    -- Either the last action has kept a wait that was there before, or it has begun it.
    cases hm : ((fresh start).run random actions).waiting with
    | true =>
      have ha : ¬ a.EndsWait := fun ha ↦
        absurd (hw.symm.trans (waiting_of_endsWait ha hm)) (by decide)
      obtain ⟨before, t, after, address, rfl, hx, hafter, hr, hp⟩ := ih hm
      obtain ⟨-, hk', hr', hp'⟩ := perform_of_not_endsWait random ha hm
      refine ⟨before, t, after ++ [a], address, by simp, by rw [hk']; exact hx, ?_,
        hr'.trans hr, hp'.trans hp⟩
      intro b hb
      rcases List.mem_append.mp hb with hb | hb
      · exact hafter b hb
      · exact List.mem_singleton.mp hb ▸ ha
    | false =>
      obtain ⟨x, hx⟩ := awaits_of_waiting hm hw
      obtain ⟨t, -, -, rfl, -⟩ := exists_of_executed hx
      obtain ⟨-, hc⟩ := cycle_awaitKey hx
      refine ⟨actions, t, [], ((fresh start).run random actions).pc, rfl, ?_, by simp, ?_, ?_⟩
      · rw [perform, hc]
        exact hx
      · rw [perform, hc]
        rfl
      · rw [perform, hc]
        rfl

structure Blocked (random : Nat → Int) (m : Machine) (idle : List Action) : Prop where
  unmoved : Unmoved m (m.run random idle)
  delay : (m.run random idle).delay = (m.run random (idle.flatMap Action.polls)).delay
  sound : (m.run random idle).sound = (m.run random (idle.flatMap Action.polls)).sound
  answer : ∀ t, ((m.run random idle).cycle random t).answer = .ok false
  notices : ∀ t,
    ((m.run random idle).cycle random t).notices = ((m.run random idle).poll t.poll).2
  refusal : ∀ k, ¬ Keypad.IsKey k →
    (m.run random idle).press k = .error ⟨m.run random idle, .keypad ⟨k⟩⟩

structure Resumed (random : Nat → Int) (m n : Machine) (k : Nibble) : Prop where
  stored : (n.register m.keyRegister).toNat = k
  others : ∀ x ≠ m.keyRegister, n.register x = m.register x
  waiting : n.waiting = false
  pc : n.pc = m.pc
  fetch : ∀ t, (n.cycle random t).machine.opAddress = m.pc
  settled : ∀ later, (∀ s ∈ n.trace random later, ∀ x, s.instruction ≠ .register .awaitKey x) →
    ∀ k', ((n.run random later).perform random (.press k')).machine.registers =
      (n.run random later).registers

theorem blocked_of_idle (hw : m.waiting = true) (hi : ∀ a ∈ actions, a.Idle) :
    Blocked random m actions := by
  have hu : Unmoved m (m.run random actions) := run_idle hi hw
  have hw' : (m.run random actions).waiting = true := hu.waiting.trans hw
  obtain ⟨hd, hs⟩ := run_idle_timers random hi hw rfl rfl
  refine ⟨hu, hd.symm, hs.symm, ?_, ?_, ?_⟩
  · intro t
    rw [cycle_of_waiting hw', finish_answer]
  · intro t
    rw [cycle_of_waiting hw']
    rfl
  · intro k hk
    exact press_of_not_isKey hk

theorem opAddress_cycle (hw : m.waiting = false) (t : Moment) :
    (m.cycle random t).machine.opAddress = m.pc := by
  have hc := m.cycle_course random t
  generalize m.cycle random t = o at hc ⊢
  cases hc with
  | wait hw' => exact absurd (hw.symm.trans hw') (by decide)
  | unfetched | crash => rfl
  | step n notices _ hp hr he hf => exact hf.opAddress

theorem resumed_of_press (hw : m.waiting = true) (hi : ∀ a ∈ actions, a.Idle) (k : Nibble) :
    Resumed random m ((m.run random actions).perform random (.press k.val)).machine k := by
  have hu : Unmoved m (m.run random actions) := run_idle hi hw
  generalize m.run random actions = w at hu
  have hw' : w.waiting = true := hu.waiting.trans hw
  have hk : w.keyRegister = m.keyRegister := by rw [hu]
  have hv : w.registers = m.registers := by rw [hu]
  have hp : w.pc = m.pc := by rw [hu]
  rw [perform_press_of_waiting random hw']
  refine ⟨?_, ?_, rfl, hp, ?_, ?_⟩
  · change ((w.setRegister w.keyRegister (.ofNat k)).register m.keyRegister).toNat = k
    rw [register_setRegister, hk, if_pos rfl, UInt8.toNat_ofNat']
    omega
  · intro x hx
    change (w.setRegister w.keyRegister (.ofNat k)).register x = m.register x
    rw [register_setRegister, hk, if_neg hx.symm, register, register, hv]
  · intro t
    exact (opAddress_cycle rfl t).trans hp
  · intro later hs k'
    have ha : Action.Outside (.press k') := trivial
    apply Aside.registers
    apply perform_aside random ha
    intro _
    exact waiting_run rfl hs

/-- An instruction that awaits a key makes the machine wait whatever keys are held. It waits
through everything but a key pressed from then on, which goes to the register of the instruction
and to no other, and execution goes on behind the instruction. -/
theorem key_wait_blocks (random : Nat → Int) (start : Int) (history : List Action) :
    let m := (fresh start).run random history
    (∀ t address x, m.executed? random (.cycle t) = some ⟨address, .register .awaitKey x⟩ →
      let n := (m.cycle random t).machine
      n.waiting = true ∧ n.keyRegister = x ∧ n.registers = m.registers ∧ n.keypad = m.keypad ∧
        n.pc = (address + 2) % 4096) ∧
    (m.waiting = true →
      (∃ before t after address, history = before ++ .cycle t :: after ∧
        ((fresh start).run random before).executed? random (.cycle t) =
          some ⟨address, .register .awaitKey m.keyRegister⟩ ∧
        (∀ b ∈ after, ¬ b.EndsWait) ∧
        m.registers = ((fresh start).run random before).registers ∧
        m.pc = (address + 2) % 4096) ∧
      ∀ idle, (∀ a ∈ idle, a.Idle) →
        Blocked random m idle ∧
        ∀ k : Nibble,
          Resumed random m ((m.run random idle).perform random (.press k.val)).machine k) := by
  intro m
  constructor
  · intro t address x hx
    obtain ⟨rfl, hc⟩ := cycle_awaitKey hx
    rw [hc]
    exact ⟨rfl, rfl, rfl, rfl, rfl⟩
  · intro hw
    refine ⟨wait_origin hw, ?_⟩
    intro idle hi
    exact ⟨blocked_of_idle hw hi, resumed_of_press hw hi⟩

theorem key_wait_blocks_early_press :
    let m := (fresh 0).run (fun _ ↦ 0) [.load [0xF3, 0x0A], .press 4, .cycle (.still 0)]
    m.waiting = true ∧
      ∀ k : Nibble,
        let w := m.run (fun _ ↦ 0) [.release 4, .press 16]
        Resumed (fun _ ↦ 0) m (w.perform (fun _ ↦ 0) (.press k.val)).machine k := by
  have hw : ((fresh 0).run (fun _ ↦ 0)
      [.load [0xF3, 0x0A], .press 4, .cycle (.still 0)]).waiting = true := by decide +kernel
  have hi : ∀ a ∈ [Action.release 4, .press 16], a.Idle := by simp [Action.Idle, Keypad.IsKey]
  obtain ⟨-, hblocked⟩ := (key_wait_blocks (fun _ ↦ 0) 0 _).2 hw
  exact ⟨hw, (hblocked _ hi).2⟩

end Machine

end ChipEight
