import ChipEight.Proofs.Notices
import ChipEight.Proofs.Timeline

namespace ChipEight

namespace Timer

def Poll.expires (p : Poll) : Bool :=
  p.before = 1 ∧ p.after = 0

/-- How often a timer can run out before it is set again. -/
def pending (t : Timer) : Nat :=
  if t.count = 0 then 0 else 1

variable {s t u : Timer} {log before mid more : List Event} {polls : List Poll} {p : Poll}
  {v : Byte} {t₀ : Int}

theorem expires_poll (t : Timer) (now : Int) :
    Poll.expires ⟨now, t.count, (t.poll now).count⟩ = decide (t.Expires now) := by
  by_cases hd : t.Due now
  · simp only [Poll.expires, Expires, hd, poll_of_due hd, true_and, decide_eq_decide,
      and_iff_left_iff_imp]
    intro h
    rw [h]
    rfl
  · simp only [Poll.expires, Expires, hd, poll_of_not_due hd, false_and, decide_false,
      decide_eq_false_iff_not, not_and]
    intro h
    rw [h]
    decide

theorem pending_poll (t : Timer) (now : Int) :
    (t.poll now).pending +
      (if Poll.expires ⟨now, t.count, (t.poll now).count⟩ then 1 else 0) = t.pending := by
  rw [expires_poll]
  by_cases hd : t.Due now
  · have hc : t.count ≠ 0 := by
      intro h0
      exact absurd hd.1 (by rw [h0]; decide)
    by_cases h1 : t.count = 1
    · simp [pending, poll_of_due hd, h1, Expires, hd]
    · have hleft : t.count - 1 ≠ 0 := by
        intro h0
        have hdrop := toNat_count_of_due hd
        rw [h0] at hdrop
        exact h1 (UInt8.toNat_inj.mp hdrop)
      simp [pending, poll_of_due hd, h1, hc, hleft, Expires]
  · simp [pending, poll_of_not_due hd, Expires, hd]

namespace Log

end Log

end Timer

def Notice.beeps (notices : List Notice) : List Int :=
  notices.filterMap beepAt?

namespace Machine

def beeps (random : Nat → Int) (m : Machine) (actions : List Action) : List Int :=
  (m.outcomes random actions).flatMap fun o ↦ Notice.beeps o.notices

variable {random : Nat → Int} {m n : Machine} {a : Action} {t : Moment} {notices : List Notice}

theorem beeps_execute {now : Int} {i : Instruction}
    (h : m.execute random now i = .ok (n, notices)) : Notice.beeps notices = [] := by
  rw [notices_of_execute h]
  exact List.filterMap_eq_nil_iff.mpr fun note hnote ↦ Step.beepAt_of_mem_notices hnote

theorem beeps_finish (now : Int) (h : Notice.beeps notices = []) :
    Notice.beeps (n.finish notices now).notices =
      ([⟨now, n.sound.count, (n.sound.poll now).count⟩].filter Timer.Poll.expires).map
        (·.reading) := by
  rw [finish, Notice.beeps, List.filterMap_append, ← Notice.beeps, h, poll, List.filter_singleton,
    Timer.expires_poll]
  by_cases he : n.sound.Expires now <;> simp [he, Notice.beepAt?]

theorem polls_change (random : Nat → Int) (w : TimerKind) (m : Machine) (a : Action) :
    (m.change? random w a).toList.filterMap Timer.Event.poll? = [] := by
  cases a with
  | cycle t =>
    rw [change?]
    cases m.executed? random (.cycle t) with
    | none => rfl
    | some s =>
      change (m.setting? w t.execute s.instruction).toList.filterMap _ = []
      unfold setting?
      split
      · split <;> rfl
      · rfl
  | _ => rfl

theorem polls_timerEvents (random : Nat → Int) (w : TimerKind) (m : Machine) (a : Action) :
    (m.timerEvents random w a).filterMap Timer.Event.poll? =
      (m.polling? random a).toList.map fun (n, now) ↦
        ⟨now, (n.timer w).count, ((m.perform random a).machine.timer w).count⟩ := by
  rw [timerEvents, List.filterMap_append, polls_change, List.nil_append]
  cases m.polling? random a <;> rfl

theorem beeps_perform (random : Nat → Int) (m : Machine) (a : Action) :
    Notice.beeps (m.perform random a).notices =
      (((m.timerEvents random .sound a).filterMap Timer.Event.poll?).filter
        Timer.Poll.expires).map (·.reading) := by
  rw [polls_timerEvents]
  cases a with
  | cycle t =>
    cases m.polling_cycle random t with
    | fail n e hc hn hx hp =>
      rw [hp, perform, hc]
      rfl
    | wait hc hx hp =>
      have hb : Notice.beeps [] = [] := rfl
      simp only [hp, perform, hc]
      exact beeps_finish t.poll hb
    | step n notices he hc hx hp =>
      simp only [hp, perform, hc]
      exact beeps_finish t.poll (beeps_execute he)
  | poll now =>
    have hb : Notice.beeps [] = [] := rfl
    exact beeps_finish now hb
  | reset now => rfl
  | _ =>
    refine List.filterMap_eq_nil_iff.mpr fun note hnote ↦ ?_
    rcases notices_perform_of_outside random m (by trivial) note hnote with ⟨_, hp, -⟩ | ⟨k, x, rfl⟩
    · cases hp
    · rfl

example : (fresh 0).beeps (fun _ ↦ 0)
    [.load [0x60, 0x02, 0xF0, 0x18], .cycle (.still 0), .cycle (.still 0), .poll 16666666,
      .poll 33333332, .poll 50000000] = [33333332] := by
  decide +kernel

end Machine

end ChipEight
