import ChipEight.Proofs.Correspondence

namespace ChipEight

def Correspondence.unrelated : Correspondence where
  readings _ _ := True
  timers _ _ := True
  notices l l' := l'.filter (·.beepAt?.isNone) = l.filter (·.beepAt?.isNone)
  start _ _ := trivial
  poll _ _ := trivial
  beep _ _ := by split <;> split <;> rfl
  same _ := rfl
  append h h' := by rw [List.filter_append, List.filter_append, h, h']

structure Outcome.SameButTimers {α : Type} (o p : Outcome α) : Prop where
  machine : ∃ delay sound, p.machine = { o.machine with delay, sound }
  notices : p.notices.filter (·.beepAt?.isNone) = o.notices.filter (·.beepAt?.isNone)
  answer : p.answer = o.answer

theorem Outcome.Corresponds.sameButTimers {α : Type} {o p : Outcome α}
    (h : o.Corresponds .unrelated p) : o.SameButTimers p := by
  obtain ⟨⟨d, s, -, -, hm⟩, hl, ha⟩ := h
  exact ⟨⟨d, s, hm⟩, hl, ha⟩

theorem Action.corresponds_of_timeless {a b : Action} (h : b.timeless = a.timeless) :
    a.Corresponds .unrelated b := by
  cases a with
  | cycle t =>
    cases b <;> cases h
    exact .cycle trivial trivial
  | poll now =>
    cases b <;> cases h
    exact .poll trivial
  | reset now =>
    cases b <;> cases h
    exact .reset trivial
  | press | release | load | poke | sprite =>
    cases b <;> cases h
    exact .untimed trivial (by simp)

theorem Action.forall₂_corresponds {actions actions' : List Action}
    (h : actions'.map Action.timeless = actions.map Action.timeless) :
    List.Forall₂ (Action.Corresponds .unrelated) actions actions' := by
  induction actions generalizing actions' with
  | nil =>
    rw [List.map_nil, List.map_eq_nil_iff] at h
    rw [h]
    exact .nil
  | cons a actions ih =>
    obtain ⟨b, actions', rfl, hb, hrest⟩ := List.map_eq_cons_iff.mp h
    exact .cons (corresponds_of_timeless hb) (ih hrest)

/-- A random number that a program takes, by its position, and the bits that it keeps of it. -/
structure Draw where
  position : Nat
  mask : Byte
  deriving DecidableEq

def Draw.number (random : Nat → Int) (d : Draw) : Byte :=
  UInt8.ofInt (random d.position) &&& d.mask

def Instruction.mask? : Instruction → Option Byte
  | .immediate .random _ nn => some nn
  | _ => none

namespace Machine

def draw? (random : Nat → Int) (m : Machine) (a : Action) : Option Draw := do
  return ⟨m.drawn, ← (← m.executed? random a).instruction.mask?⟩

def draws (random : Nat → Int) (m : Machine) (actions : List Action) : List Draw :=
  m.gather random (draw? random) actions

variable {random random' : Nat → Int} {now : Int} {m : Machine} {i : Instruction} {a : Action}
  {t : Moment} {actions : List Action}

theorem draw_of_begins {nn : Byte} (h : m.Begins i) (hi : i.mask? = some nn) (t : Moment) :
    m.draw? random (.cycle t) = some ⟨m.drawn, nn⟩ := by
  have ho : m.obstacle i = none := by
    cases i with
    | immediate op x nn => exact if_neg m.fits_nothing
    | _ => cases hi
  simp [draw?, executed_of_begins h ho, hi]

theorem execute_congr_random
    (h : ∀ nn ∈ i.mask?, Draw.number random' ⟨m.drawn, nn⟩ = Draw.number random ⟨m.drawn, nn⟩) :
    m.execute random' now i = m.execute random now i := by
  cases i with
  | immediate op x nn =>
    cases op with
    | random =>
      have hnumber := h nn rfl
      simp only [Draw.number] at hnumber
      rw [execute, execute, executeImmediate, executeImmediate, hnumber]
    | _ => rfl
  | _ => rfl

theorem cycle_congr_random
    (h : ∀ d ∈ m.draw? random (.cycle t), d.number random' = d.number random) :
    m.cycle random' t = m.cycle random t := by
  cases hw : m.waiting with
  | true => rw [cycle_of_waiting hw, cycle_of_waiting hw]
  | false =>
    by_cases hp : m.pc ≤ 4094
    · have he : m.advanced.execute random' t.execute m.upcoming =
          m.advanced.execute random t.execute m.upcoming := by
        refine execute_congr_random fun nn hnn ↦ h ⟨m.drawn, nn⟩ ?_
        exact draw_of_begins ⟨hw, hp, rfl⟩ hnn t
      rw [cycle, cycle, fetch_of_le hp]
      simp only [he]
    · have hp : 4094 < m.pc := Nat.not_le.mp hp
      rw [cycle_of_lt hw hp, cycle_of_lt hw hp]

theorem perform_congr_random (h : ∀ d ∈ m.draw? random a, d.number random' = d.number random) :
    m.perform random' a = m.perform random a := by
  cases a with
  | cycle t => rw [perform, perform, cycle_congr_random h]
  | _ => rfl

theorem outcomes_congr_random
    (h : ∀ d ∈ m.draws random actions, d.number random' = d.number random) :
    m.outcomes random' actions = m.outcomes random actions := by
  induction actions generalizing m with
  | nil => rfl
  | cons a actions ih =>
    rw [draws, gather] at h
    have hstep : m.perform random' a = m.perform random a := by
      refine perform_congr_random fun d hd ↦ ?_
      exact h d (List.mem_append_left _ (Option.mem_toList.mpr hd))
    rw [outcomes, outcomes, hstep, ih fun d hd ↦ h d (List.mem_append_right _ hd)]

/-- Runs under different clocks differ in timers and beeps at most, as long as the program does
not read the delay timer. Random numbers make no difference but by the bits that a program keeps
of those it takes. -/
theorem clock_and_chance_noninterference (random random' : Nat → Int) (start start' : Int)
    (actions actions' : List Action) :
    (actions'.map Action.timeless = actions.map Action.timeless →
      (∀ s ∈ (fresh start).trace random actions, ¬ s.instruction.ReadsDelay) →
      List.Forall₂ Outcome.SameButTimers ((fresh start).outcomes random actions)
        ((fresh start').outcomes random actions')) ∧
    ((∀ d ∈ (fresh start).draws random actions, d.number random' = d.number random) →
      (fresh start).outcomes random' actions = (fresh start).outcomes random actions) := by
  constructor
  · intro hactions hdelay
    have hstart : (fresh start).Corresponds .unrelated (fresh start') :=
      reset_corresponds trivial blank blank rfl
    have h := outcomes_correspond hstart (Action.forall₂_corresponds hactions) (.inr hdelay)
    exact h.imp fun _ _ ↦ Outcome.Corresponds.sameButTimers
  · exact outcomes_congr_random

/-- The clocks of two runs disagree so much that one delay timer has gone down and the other has
not, and the random numbers differ in bits that are not kept. -/
theorem clock_and_chance_noninterference_late_poll :
    let rom : List Byte := [0x60, 0x05, 0xF0, 0x15, 0xC1, 0x0F]
    let early : List Action :=
      [.load rom, .cycle (.still 0), .cycle (.still 0), .cycle (.still 0)]
    let late : List Action :=
      [.load rom, .cycle (.still 3), .cycle (.still 5), .cycle (.still 20000000)]
    ((fresh 0).run (fun _ ↦ 0x13) early).delay.count = 5 ∧
      ((fresh 7).run (fun _ ↦ 0x13) late).delay.count = 4 ∧
      List.Forall₂ Outcome.SameButTimers ((fresh 0).outcomes (fun _ ↦ 0x13) early)
        ((fresh 7).outcomes (fun _ ↦ 0x13) late) ∧
      (fresh 0).outcomes (fun _ ↦ 0x23) early = (fresh 0).outcomes (fun _ ↦ 0x13) early := by
  intro rom early late
  obtain ⟨hearly, hlate, htrace, hdraws⟩ :
      ((fresh 0).run (fun _ ↦ 0x13) early).delay.count = 5 ∧
        ((fresh 7).run (fun _ ↦ 0x13) late).delay.count = 4 ∧
        (fresh 0).trace (fun _ ↦ 0x13) early =
          [⟨0x200, .immediate .set 0 5⟩, ⟨0x202, .register .setDelay 0⟩,
            ⟨0x204, .immediate .random 1 0xF⟩] ∧
        (fresh 0).draws (fun _ ↦ 0x13) early = [⟨0, 0xF⟩] := by
    decide +kernel
  obtain ⟨hclock, hchance⟩ :=
    clock_and_chance_noninterference (fun _ ↦ 0x13) (fun _ ↦ 0x23) 0 7 early late
  refine ⟨hearly, hlate, hclock rfl ?_, hchance ?_⟩
  · rw [htrace]
    simp [Instruction.ReadsDelay]
  · rw [hdraws]
    decide

end Machine

end ChipEight
