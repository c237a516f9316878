import ChipEight.Proofs.Countdown
import ChipEight.Proofs.Trace

namespace ChipEight

namespace Timer

inductive Event
  | set (count : Byte) (now : Int)
  | reset (now : Int)
  | poll (p : Poll)
  deriving DecidableEq

def Event.poll? : Event → Option Poll
  | .poll p => some p
  | _ => none

/-- The events that take one timer to another. -/
inductive Log : Timer → List Event → Timer → Prop
  | nil (t : Timer) : Log t [] t
  | set {t u : Timer} {log : List Event} (v : Byte) (now : Int) (h : Log (.start v now) log u) :
      Log t (.set v now :: log) u
  | reset {t u : Timer} {log : List Event} (now : Int) (h : Log (.stopped now) log u) :
      Log t (.reset now :: log) u
  | poll {t u : Timer} {log : List Event} (now : Int) (h : Log (t.poll now) log u) :
      Log t (.poll ⟨now, t.count, (t.poll now).count⟩ :: log) u

variable {s t u : Timer} {log more : List Event} {polls : List Poll}

theorem Log.append (h : Log s log t) (h' : Log t more u) : Log s (log ++ more) u := by
  induction h with
  | nil => exact h'
  | set v now _ ih => exact .set v now (ih h')
  | reset now _ ih => exact .reset now (ih h')
  | poll now _ ih => exact .poll now (ih h')

theorem Log.split (h : Log s (log ++ more) u) : ∃ t, Log s log t ∧ Log t more u := by
  induction log generalizing s with
  | nil => exact ⟨s, .nil s, h⟩
  | cons e log ih =>
    cases h with
    | set v now h =>
      obtain ⟨t, hlog, hmore⟩ := ih h
      exact ⟨t, .set v now hlog, hmore⟩
    | reset now h =>
      obtain ⟨t, hlog, hmore⟩ := ih h
      exact ⟨t, .reset now hlog, hmore⟩
    | poll now h =>
      obtain ⟨t, hlog, hmore⟩ := ih h
      exact ⟨t, .poll now hlog, hmore⟩

theorem map_poll_filterMap (h : ∀ e ∈ log, e.poll?.isSome) :
    (log.filterMap Event.poll?).map .poll = log := by
  induction log with
  | nil => rfl
  | cons e log ih =>
    have hrest := ih fun e' he' ↦ h e' (List.mem_cons_of_mem e he')
    cases e with
    | poll p => simpa [Event.poll?] using hrest
    | set v now | reset now => cases h _ (List.mem_cons_self ..)

theorem Log.countdown (h : Log t (polls.map .poll) u) : Countdown t polls u := by
  induction polls generalizing t with
  | nil =>
    cases h
    exact .nil _
  | cons p polls ih =>
    cases h with
    | poll now h => exact (ih h).cons

end Timer

inductive TimerKind
  | delay | sound
  deriving DecidableEq

def TimerKind.setter : TimerKind → RegisterOp
  | .delay => .setDelay
  | .sound => .setSound

namespace Machine

def timer (m : Machine) : TimerKind → Timer
  | .delay => m.delay
  | .sound => m.sound

def setting? (w : TimerKind) (m : Machine) (now : Int) : Instruction → Option Timer.Event
  | .register op x => if op = w.setter then some (.set (m.register x) now) else none
  | _ => none

def change? (random : Nat → Int) (w : TimerKind) (m : Machine) : Action → Option Timer.Event
  | .cycle t => do m.setting? w t.execute (← m.executed? random (.cycle t)).instruction
  | .reset now => some (.reset now)
  | _ => none

/-- The machine right before an action polls its timers, and the clock reading of the poll. A
cycle polls after it has executed its instruction. -/
def polling? (random : Nat → Int) (m : Machine) : Action → Option (Machine × Int)
  | .cycle t =>
    if m.waiting then some (m, t.poll)
    else
      match m.fetch with
      | .error _ => none
      | .ok i =>
        match m.advanced.execute random t.execute i with
        | .error _ => none
        | .ok (n, _) => some (n, t.poll)
  | .poll now => some (m, now)
  | _ => none

def timerEvents (random : Nat → Int) (w : TimerKind) (m : Machine) (a : Action) :
    List Timer.Event :=
  (m.change? random w a).toList ++ (m.polling? random a).toList.map fun (n, now) ↦
    .poll ⟨now, (n.timer w).count, ((m.perform random a).machine.timer w).count⟩

def timeline (random : Nat → Int) (w : TimerKind) (m : Machine) :
    List Action → List Timer.Event
  | [] => []
  | a :: actions =>
    m.timerEvents random w a ++ (m.perform random a).machine.timeline random w actions

def polls (random : Nat → Int) (w : TimerKind) (m : Machine) (actions : List Action) :
    List Timer.Poll :=
  (m.timeline random w actions).filterMap Timer.Event.poll?

variable {random : Nat → Int} {w : TimerKind} {m n : Machine} {a : Action} {t : Moment}
  {actions : List Action}

theorem timer_finish (n : Machine) (notices : List Notice) (now : Int) (w : TimerKind) :
    (n.finish notices now).machine.timer w = (n.timer w).poll now := by
  cases w <;> rfl

theorem timer_of_frame {i : Instruction} (hf : Frame i m n)
    (hi : ∀ x, i ≠ .register w.setter x) : n.timer w = m.timer w := by
  cases w with
  | delay => exact hf.delay hi
  | sound => exact hf.sound hi

theorem timer_of_setter {now : Int} {x : Nibble} {notices : List Notice}
    (h : m.execute random now (.register w.setter x) = .ok (n, notices)) :
    n.timer w = .start (m.register x) now := by
  cases w <;> cases h <;> rfl

theorem setting_of_ne {now : Int} {i : Instruction} (hi : ∀ x, i ≠ .register w.setter x) :
    m.setting? w now i = none := by
  cases i with
  | register op x =>
    refine if_neg ?_
    rintro rfl
    exact hi x rfl
  | _ => rfl

theorem log_execute {now : Int} {i : Instruction} {notices : List Notice}
    (h : m.execute random now i = .ok (n, notices)) :
    Timer.Log (m.timer w) (m.setting? w now i).toList (n.timer w) := by
  by_cases hi : ∃ x, i = .register w.setter x
  · obtain ⟨x, rfl⟩ := hi
    have hset : m.setting? w now (.register w.setter x) = some (.set (m.register x) now) :=
      if_pos rfl
    rw [timer_of_setter h, hset]
    exact .set _ now (.nil _)
  · have hi : ∀ x, i ≠ .register w.setter x := fun x hx ↦ hi ⟨x, hx⟩
    rw [timer_of_frame (frame_of_execute h) hi, setting_of_ne hi]
    exact .nil _

/-- What a cycle does to the timers: nothing when it fails, and else it ends with a poll. -/
inductive Polling (random : Nat → Int) (m : Machine) (t : Moment) : Prop
  | fail (n : Machine) (e : Fault) (hc : m.cycle random t = ⟨n, [], .error e⟩)
      (hn : ∀ w, n.timer w = m.timer w) (hx : m.executed? random (.cycle t) = none)
      (hp : m.polling? random (.cycle t) = none)
  | wait (hc : m.cycle random t = { m with redraw := false }.finish [] t.poll)
      (hx : m.executed? random (.cycle t) = none)
      (hp : m.polling? random (.cycle t) = some (m, t.poll))
  | step (n : Machine) (notices : List Notice)
      (he : m.advanced.execute random t.execute m.upcoming = .ok (n, notices))
      (hc : m.cycle random t = { n with pc := n.pc % 4096 }.finish notices t.poll)
      (hx : m.executed? random (.cycle t) = some ⟨m.pc, m.upcoming⟩)
      (hp : m.polling? random (.cycle t) = some (n, t.poll))

theorem polling_cycle (random : Nat → Int) (m : Machine) (t : Moment) : m.Polling random t := by
  cases hw : m.waiting with
  | true =>
    refine .wait (cycle_of_waiting hw t) ?_ ?_
    · rw [executed?, hw]
    · rw [polling?, hw, if_pos rfl]
  | false =>
    by_cases hp : m.pc ≤ 4094
    · have hf := fetch_of_le hp
      cases he : m.advanced.execute random t.execute m.upcoming with
      | error e =>
        have hc := cycle_of_execute_error hw hp he
        refine .fail m.advanced e.fault hc (fun w ↦ by cases w <;> rfl) ?_ ?_
        · simp only [executed?, hw, hc]
        · simp [polling?, hw, hf, he]
      | ok r =>
        obtain ⟨n, notices⟩ := r
        have hc := cycle_of_execute_ok hw hp he
        refine .step n notices he hc ?_ ?_
        · simp only [executed?, hw, hc, finish_answer]
        · simp [polling?, hw, hf, he]
    · have hp : 4094 < m.pc := Nat.not_le.mp hp
      have hc : m.cycle random t = _ := cycle_of_lt hw hp t
      refine .fail _ _ hc (fun w ↦ by cases w <;> rfl) ?_ ?_
      · simp only [executed?, hw, hc]
      · simp [polling?, hw, fetch_of_lt hp]

theorem log_cycle (random : Nat → Int) (w : TimerKind) (m : Machine) (t : Moment) :
    Timer.Log (m.timer w) (m.timerEvents random w (.cycle t))
      ((m.cycle random t).machine.timer w) := by
  cases m.polling_cycle random t with
  | fail n e hc hn hx hp =>
    rw [timerEvents, change?, hx, hp, hc, hn]
    exact .nil _
  | wait hc hx hp =>
    simp only [timerEvents, change?, hx, hp, perform, hc, timer_finish]
    cases w <;> exact .poll t.poll (.nil _)
  | step n notices he hc hx hp =>
    have hlog : Timer.Log (m.advanced.timer w) _ (n.timer w) := log_execute he
    simp only [timerEvents, change?, hx, hp, perform, hc, timer_finish]
    cases w <;> exact hlog.append (.poll t.poll (.nil _))

theorem timerEvents_of_outside (ha : a.Outside) (hp : ∀ now, a ≠ .poll now) :
    m.timerEvents random w a = [] := by
  cases a with
  | cycle t | reset now => exact ha.elim
  | poll now => exact absurd rfl (hp now)
  | _ => rfl

theorem timer_of_outside (ha : a.Outside) (hp : ∀ now, a ≠ .poll now) :
    (m.perform random a).machine.timer w = m.timer w := by
  cases a with
  | cycle t | reset now => exact ha.elim
  | poll now => exact absurd rfl (hp now)
  | press k =>
    by_cases hk : Keypad.IsKey k
    · obtain ⟨d, rfl⟩ := exists_nibble_of_isKey hk
      cases hw : m.waiting with
      | true =>
        rw [perform_press_of_waiting random hw]
        cases w <;> rfl
      | false =>
        rw [perform, press_of_not_waiting hw]
        cases w <;> rfl
    · rw [perform, press_of_not_isKey hk]
      rfl
  | release k =>
    rw [perform]
    cases hr : m.release k with
    | error e => rfl
    | ok n =>
      obtain ⟨held, rfl⟩ := eq_of_release hr
      cases w <;> rfl
  | load rom =>
    rw [perform]
    cases hl : m.load rom with
    | error e => rfl
    | ok n =>
      obtain ⟨memory, rfl⟩ := eq_of_load hl
      cases w <;> rfl
  | poke address data =>
    rw [perform]
    cases (m.memory.writeRange address data).mapError Fault.memory <;> cases w <;> rfl
  | sprite x y rows =>
    rw [perform]
    cases (m.screen.draw x y rows).mapError Fault.screen <;> cases w <;> rfl

theorem log_perform (random : Nat → Int) (w : TimerKind) (m : Machine) (a : Action) :
    Timer.Log (m.timer w) (m.timerEvents random w a) ((m.perform random a).machine.timer w) := by
  by_cases ha : a.Outside
  · by_cases hp : ∃ now, a = .poll now
    · obtain ⟨now, rfl⟩ := hp
      cases w <;> exact .poll now (.nil _)
    · have hp : ∀ now, a ≠ .poll now := fun now hn ↦ hp ⟨now, hn⟩
      rw [timerEvents_of_outside ha hp, timer_of_outside ha hp]
      exact .nil _
  · cases a with
    | cycle t => exact log_cycle random w m t
    | reset now => cases w <;> exact .reset now (.nil _)
    | _ => exact absurd trivial ha

/-- The timeline of a run accounts for the whole course of a timer. -/
theorem log_run (random : Nat → Int) (w : TimerKind) (m : Machine) (actions : List Action) :
    Timer.Log (m.timer w) (m.timeline random w actions) ((m.run random actions).timer w) := by
  induction actions generalizing m with
  | nil => exact .nil _
  | cons a actions ih => exact (log_perform random w m a).append (ih _)

theorem poll_of_mem_timerEvents {e : Timer.Event} (hc : m.change? random w a = none)
    (he : e ∈ m.timerEvents random w a) : e.poll?.isSome := by
  rw [timerEvents, hc, Option.toList_none, List.nil_append] at he
  obtain ⟨r, -, rfl⟩ := List.mem_map.mp he
  rfl

theorem change_eq_none (ha : ∀ now, a ≠ .reset now)
    (hs : ∀ s, m.executed? random a = some s → ∀ x, s.instruction ≠ .register w.setter x) :
    m.change? random w a = none := by
  cases a with
  | cycle t =>
    rw [change?]
    cases hx : m.executed? random (.cycle t) with
    | none => rfl
    | some s => exact setting_of_ne (hs s hx)
  | reset now => exact absurd rfl (ha now)
  | _ => rfl

/-- A timer that is neither set nor reset in a run is only polled. -/
theorem poll_of_mem_timeline {e : Timer.Event} (hr : ∀ now, Action.reset now ∉ actions)
    (hs : ∀ s ∈ m.trace random actions, ∀ x, s.instruction ≠ .register w.setter x)
    (he : e ∈ m.timeline random w actions) : e.poll?.isSome := by
  induction actions generalizing m with
  | nil => cases he
  | cons a actions ih =>
    rw [trace] at hs
    rw [timeline] at he
    rcases List.mem_append.mp he with he | he
    · refine poll_of_mem_timerEvents (change_eq_none ?_ ?_) he
      · rintro now rfl
        exact hr now (List.mem_cons_self ..)
      · intro s hx
        exact hs s (List.mem_append_left _ (by rw [hx]; exact List.mem_singleton_self s))
    · refine ih ?_ ?_ he
      · intro now hnow
        exact hr now (List.mem_cons_of_mem a hnow)
      · intro s hmem
        exact hs s (List.mem_append_right _ hmem)

end Machine

end ChipEight
