import ChipEight.Proofs.Timeline

namespace ChipEight.Machine

/-- A run that begins with a cycle which sets a timer to `v` at `t₀`. After that the timer is not
set again and the machine not reset. -/
inductive Stretch (random : Nat → Int) (w : TimerKind) (m : Machine) :
    List Action → Byte → Int → Prop
  | intro (t : Moment) (address : Nat) (x : Nibble) (actions : List Action)
      (hx : m.executed? random (.cycle t) = some ⟨address, .register w.setter x⟩)
      (hr : ∀ now, Action.reset now ∉ actions)
      (hs : ∀ s ∈ (m.cycle random t).machine.trace random actions,
        ∀ y, s.instruction ≠ .register w.setter y) :
      Stretch random w m (.cycle t :: actions) (m.register x) t.execute

/-- What the clock leaves of a count that is set to `v` at `t₀`. -/
def clockCount (v : Byte) (t₀ now : Int) : Int :=
  max 0 (v.toNat - (now - t₀) / Timer.period)

def Frequent (readings : List Int) : Prop :=
  List.IsChain (fun a b ↦ a ≤ b ∧ b - a < Timer.period) readings

instance (readings : List Int) : Decidable (Frequent readings) :=
  inferInstanceAs (Decidable (List.IsChain _ readings))

namespace Stretch

variable {random : Nat → Int} {w : TimerKind} {m : Machine} {actions : List Action}
  {v : Byte} {t₀ : Int} {p : Timer.Poll}

theorem timeline_eq (h : Stretch random w m actions v t₀) :
    m.timeline random w actions = .set v t₀ :: (m.polls random w actions).map .poll := by
  obtain ⟨t, address, x, actions, hx, hr, hs⟩ := h
  have hc : m.change? random w (.cycle t) = some (.set (m.register x) t.execute) := by
    rw [change?, hx]
    exact if_pos rfl
  -- Behind the setting there are polls only, in the same cycle and in all that follows.
  obtain ⟨log, hlog, hpolls⟩ : ∃ log,
      m.timeline random w (.cycle t :: actions) = .set (m.register x) t.execute :: log ∧
        ∀ e ∈ log, e.poll?.isSome := by
    refine ⟨_, by rw [timeline, timerEvents, hc]; rfl, fun e he ↦ ?_⟩
    rcases List.mem_append.mp he with he | he
    · obtain ⟨r, -, rfl⟩ := List.mem_map.mp he
      rfl
    · exact poll_of_mem_timeline hr hs he
  rw [polls, hlog, List.filterMap_cons_none rfl, Timer.map_poll_filterMap hpolls]

theorem countdown (h : Stretch random w m actions v t₀) :
    Timer.Countdown (.start v t₀) (m.polls random w actions)
      ((m.run random actions).timer w) := by
  have hlog := log_run random w m actions
  rw [h.timeline_eq] at hlog
  cases hlog with
  | set _ _ hlog => exact hlog.countdown

theorem clockCount_le (h : Stretch random w m actions v t₀)
    (hg : Frequent (t₀ :: (m.polls random w actions).map (·.reading)))
    (hp : p ∈ m.polls random w actions) : clockCount v t₀ p.reading ≤ p.after.toNat := by
  have hm := List.IsChain.imp (fun _ _ h ↦ h.1) hg
  have hs := h.countdown.since_add_le (Int.le_refl t₀) hm hp
  simp only [Timer.start, Timer.period_eq] at hs
  simp only [clockCount, Timer.period_eq]
  omega

theorem after_le (h : Stretch random w m actions v t₀)
    (hg : Frequent (t₀ :: (m.polls random w actions).map (·.reading)))
    (hp : p ∈ m.polls random w actions) :
    (p.after.toNat : Int) ≤
      max 0 (v.toNat - (p.reading - t₀ + Timer.period - 2) / (2 * Timer.period - 2)) := by
  by_cases h0 : 0 < p.after
  · have hgap : List.IsChain (fun a b ↦ a ≤ b ∧ b ≤ a + (Timer.period - 1))
        (t₀ :: (m.polls random w actions).map (·.reading)) := by
      refine List.IsChain.imp (fun a b hab ↦ ?_) hg
      omega
    have hlag := h.countdown.elapsed_lt (by simp [Timer.start, Timer.period_pos]) hgap hp h0
    simp only [Timer.start, Timer.period_eq] at hlag ⊢
    omega
  · have hzero : p.after.toNat = 0 := by
      rw [UInt8.lt_iff_toNat_lt] at h0
      exact Nat.eq_zero_of_not_pos h0
    rw [hzero]
    exact Int.le_max_left 0 _

theorem after_eq_clockCount (h : Stretch random w m actions v t₀)
    (hg : Frequent (t₀ :: (m.polls random w actions).map (·.reading)))
    (hp : p ∈ m.polls random w actions)
    (hb : Timer.Punctual t₀ v.toNat p.reading ((m.polls random w actions).map (·.reading))) :
    (p.after.toNat : Int) = clockCount v t₀ p.reading := by
  have hm := List.IsChain.imp (fun _ _ h ↦ h.1) hg
  have hl : t₀ < t₀ + Timer.period := Int.lt_add_of_pos_right t₀ Timer.period_pos
  exact h.countdown.after_of_punctual (Int.le_refl t₀) hl hm hp hb

end Stretch

/-- From the moment it is set, a timer goes down by ones and never ahead of the clock. How far it
can fall behind depends on the gap between polls, and on nothing else that the machine does. -/
theorem timer_keeps_pace {random : Nat → Int} {w : TimerKind} {m : Machine}
    {actions : List Action} {v : Byte} {t₀ : Int} (h : Stretch random w m actions v t₀) :
    let polls := m.polls random w actions
    (∀ p ∈ polls, p.after ≤ p.before ∧ p.before.toNat ≤ p.after.toNat + 1) ∧
    polls.map (·.before) = (v :: polls.map (·.after)).dropLast ∧
    ((m.run random actions).timer w).count = (polls.map (·.after)).getLastD v ∧
    (∀ k p, (polls.filter Timer.Poll.drops)[k]? = some p →
      p.after.toNat + (k + 1) = v.toNat ∧ t₀ + (k + 1) * Timer.period ≤ p.reading) ∧
    ∀ g, List.IsChain (fun a b ↦ a ≤ b ∧ b ≤ a + g) (t₀ :: polls.map (·.reading)) →
      ∀ p ∈ polls, 0 < p.after →
        p.reading - t₀ <
          Timer.period + ((v.toNat : Int) - p.after.toNat) * (Timer.period + g - 1) := by
  intro polls
  have hc : Timer.Countdown (.start v t₀) polls ((m.run random actions).timer w) := h.countdown
  refine ⟨fun p hp ↦ hc.after_le_before hp, hc.before_eq, hc.count_eq, ?_, ?_⟩
  · intro k p hp
    exact hc.drops_filter hp
  · intro g hg p hp h0
    have hstart : t₀ - (Timer.start v t₀).since < Timer.period := by
      rw [Timer.start, sub_self]
      exact Timer.period_pos
    exact hc.elapsed_lt hstart hg hp h0

def aboutToCount : Machine :=
  (fresh 0).run (fun _ ↦ 0)
    [.load [0x60, 0x02, 0xF0, 0x15, 0xF0, 0x18, 0xF1, 0x0A], .cycle (.still 0)]

def cyclesAt (readings : List Int) : List Action :=
  readings.map fun now ↦ .cycle (.still now)

theorem stretch_aboutToCount {readings : List Int} {polls : List Timer.Poll}
    (h : aboutToCount.executed? (fun _ ↦ 0) (.cycle (.still 0)) =
        some ⟨0x202, .register .setDelay 0⟩ ∧
      (∀ s ∈ (aboutToCount.cycle (fun _ ↦ 0) (.still 0)).machine.trace (fun _ ↦ 0)
        (cyclesAt readings), ∀ y, s.instruction ≠ .register .setDelay y) ∧
      aboutToCount.register 0 = 2 ∧
      aboutToCount.polls (fun _ ↦ 0) .delay (cyclesAt (0 :: readings)) = polls) :
    Stretch (fun _ ↦ 0) .delay aboutToCount (cyclesAt (0 :: readings)) 2 0 ∧
      aboutToCount.polls (fun _ ↦ 0) .delay (cyclesAt (0 :: readings)) = polls := by
  obtain ⟨hx, hs, hv, hpolls⟩ := h
  refine ⟨?_, hpolls⟩
  rw [← hv]
  exact .intro (.still 0) 0x202 0 _ hx (by simp) hs

theorem late_polls :
    Stretch (fun _ ↦ 0) .delay aboutToCount (cyclesAt [0, 16666665, 33333330, 49999995]) 2 0 ∧
      aboutToCount.polls (fun _ ↦ 0) .delay (cyclesAt [0, 16666665, 33333330, 49999995]) =
        [⟨0, 2, 2⟩, ⟨16666665, 2, 2⟩, ⟨33333330, 2, 1⟩, ⟨49999995, 1, 1⟩] := by
  apply stretch_aboutToCount
  decide +kernel

/-- The lag is as long as polls so far apart allow, to the nanosecond. -/
theorem timer_keeps_pace_late_polls :
    let p : Timer.Poll := ⟨49999995, 1, 1⟩
    p ∈ aboutToCount.polls (fun _ ↦ 0) .delay (cyclesAt [0, 16666665, 33333330, 49999995]) ∧
      p.reading - 0 <
        Timer.period + (((2 : Byte).toNat : Int) - p.after.toNat) *
          (Timer.period + 16666665 - 1) := by
  intro p
  obtain ⟨h, hpolls⟩ := late_polls
  have hp : p ∈ aboutToCount.polls (fun _ ↦ 0) .delay
      (cyclesAt [0, 16666665, 33333330, 49999995]) := by
    rw [hpolls]
    decide
  obtain ⟨-, -, -, -, hlag⟩ := timer_keeps_pace h
  rw [hpolls] at hlag
  exact ⟨hp, hlag 16666665 (by decide) p (hpolls ▸ hp) (by decide)⟩

/-- Polled with gaps below a period, a timer never runs ahead of the clock and keeps at least half
its speed. It shows what the clock leaves of the count when it is polled at the end of every
period; in any case the readings of the polls alone decide what it shows. -/
theorem timer_follows_clock {random : Nat → Int} {w : TimerKind} {m : Machine}
    {actions : List Action} {v : Byte} {t₀ : Int} (h : Stretch random w m actions v t₀)
    (hg : Frequent (t₀ :: (m.polls random w actions).map (·.reading))) :
    let polls := m.polls random w actions
    let readings := polls.map (·.reading)
    (∀ p ∈ polls, clockCount v t₀ p.reading ≤ p.after.toNat ∧
      (p.after.toNat : Int) ≤
        max 0 (v.toNat - (p.reading - t₀ + Timer.period - 2) / (2 * Timer.period - 2))) ∧
    (∀ p ∈ polls, Timer.Punctual t₀ v.toNat p.reading readings →
      (p.after.toNat : Int) = clockCount v t₀ p.reading) ∧
    ∀ random' w' m' actions', Stretch random' w' m' actions' v t₀ →
      let polls' := m'.polls random' w' actions'
      let readings' := polls'.map (·.reading)
      (Frequent (t₀ :: readings') →
        ∀ p ∈ polls, Timer.Punctual t₀ v.toNat p.reading readings →
          ∀ p' ∈ polls', Timer.Punctual t₀ v.toNat p'.reading readings' →
            p.reading = p'.reading → p.after = p'.after) ∧
      (readings = readings' → polls = polls') := by
  intro polls readings
  refine ⟨?_, ?_, ?_⟩
  · intro p hp
    exact ⟨h.clockCount_le hg hp, h.after_le hg hp⟩
  · intro p hp hb
    exact h.after_eq_clockCount hg hp hb
  · intro random' w' m' actions' h' polls' readings'
    constructor
    · intro hg' p hp hb p' hp' hb' hr
      have hafter := h.after_eq_clockCount hg hp hb
      have hafter' := h'.after_eq_clockCount hg' hp' hb'
      rw [← hr, ← hafter] at hafter'
      exact UInt8.toNat_inj.mp (Int.ofNat_inj.mp hafter'.symm)
    · intro hr
      exact h.countdown.eq_of_readings h'.countdown hr

theorem prompt_polls :
    Stretch (fun _ ↦ 0) .delay aboutToCount
        (cyclesAt [0, 16666665, 16666666, 33333331, 33333332, 49999995]) 2 0 ∧
      aboutToCount.polls (fun _ ↦ 0) .delay
          (cyclesAt [0, 16666665, 16666666, 33333331, 33333332, 49999995]) =
        [⟨0, 2, 2⟩, ⟨16666665, 2, 2⟩, ⟨16666666, 2, 1⟩, ⟨33333331, 1, 1⟩, ⟨33333332, 1, 0⟩,
          ⟨49999995, 0, 0⟩] := by
  apply stretch_aboutToCount
  decide +kernel

/-- Each period ends with a poll. -/
theorem timer_follows_clock_prompt_polls :
    let polls := aboutToCount.polls (fun _ ↦ 0) .delay
      (cyclesAt [0, 16666665, 16666666, 33333331, 33333332, 49999995])
    let p : Timer.Poll := ⟨33333332, 1, 0⟩
    p ∈ polls ∧ Timer.Punctual 0 2 p.reading (polls.map (·.reading)) ∧
      (p.after.toNat : Int) = clockCount 2 0 p.reading := by
  intro polls p
  obtain ⟨h, hpolls⟩ := prompt_polls
  change polls = _ at hpolls
  have hp : p ∈ polls := by
    rw [hpolls]
    decide
  have hb : Timer.Punctual 0 2 p.reading (polls.map (·.reading)) := by
    intro k hk hk2 _
    rw [hpolls]
    obtain rfl | rfl : k = 1 ∨ k = 2 := by omega
    · decide
    · decide
  have hg : Frequent (0 :: polls.map (·.reading)) := by
    rw [hpolls]
    decide
  obtain ⟨-, hclock, -⟩ := timer_follows_clock h hg
  exact ⟨hp, hb, hclock p hp hb⟩

/-- Gaps below a period are not enough to follow the clock: two runs with such gaps differ at a
reading that both have, where nothing is left of the count by the clock. -/
theorem frequent_polls_lag :
    let late := aboutToCount.polls (fun _ ↦ 0) .delay
      (cyclesAt [0, 16666665, 33333330, 49999995])
    let prompt := aboutToCount.polls (fun _ ↦ 0) .delay
      (cyclesAt [0, 16666665, 16666666, 33333331, 33333332, 49999995])
    Stretch (fun _ ↦ 0) .delay aboutToCount (cyclesAt [0, 16666665, 33333330, 49999995]) 2 0 ∧
      Frequent (0 :: late.map (·.reading)) ∧
      Stretch (fun _ ↦ 0) .delay aboutToCount
        (cyclesAt [0, 16666665, 16666666, 33333331, 33333332, 49999995]) 2 0 ∧
      Frequent (0 :: prompt.map (·.reading)) ∧
      ⟨49999995, 1, 1⟩ ∈ late ∧ ⟨49999995, 0, 0⟩ ∈ prompt ∧ clockCount 2 0 49999995 = 0 := by
  intro late prompt
  obtain ⟨hlate, hl⟩ := late_polls
  obtain ⟨hprompt, hp⟩ := prompt_polls
  change late = _ at hl
  change prompt = _ at hp
  rw [hl, hp]
  exact ⟨hlate, by decide, hprompt, by decide, by decide, by decide, by decide⟩

end ChipEight.Machine
