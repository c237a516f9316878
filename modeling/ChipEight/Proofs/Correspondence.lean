import ChipEight.Proofs.Beeps
import ChipEight.Proofs.Renewal
import Mathlib.Data.List.Forall2

namespace ChipEight

/-- Two courses of time. Readings, timers and notices of the one may correspond to those of the
other, and what is done to corresponding timers keeps them so. -/
structure Correspondence where
  readings : Int → Int → Prop
  timers : Timer → Timer → Prop
  notices : List Notice → List Notice → Prop
  start {a b : Int} (v : Byte) (h : readings a b) : timers (.start v a) (.start v b)
  poll {t u : Timer} {a b : Int} (ht : timers t u) (h : readings a b) :
    timers (t.poll a) (u.poll b)
  beep {t u : Timer} {a b : Int} (ht : timers t u) (h : readings a b) :
    notices (if t.Expires a then [.beep a] else []) (if u.Expires b then [.beep b] else [])
  same {l : List Notice} (h : Notice.beeps l = []) : notices l l
  append {l l' k k' : List Notice} (h : notices l l') (h' : notices k k') :
    notices (l ++ k) (l' ++ k')

namespace Correspondence

def KeepsCounts (R : Correspondence) : Prop :=
  ∀ t u, R.timers t u → u.count = t.count

end Correspondence

def Instruction.ReadsDelay (i : Instruction) : Prop :=
  ∃ x, i = .register .getDelay x

def Action.mapReadings (f : Int → Int) : Action → Action
  | .cycle t => .cycle ⟨f t.execute, f t.poll⟩
  | .poll now => .poll (f now)
  | .reset now => .reset (f now)
  | a => a

def Action.timeless : Action → Action :=
  mapReadings fun _ ↦ 0

inductive Action.Corresponds (R : Correspondence) : Action → Action → Prop
  | cycle {t t' : Moment} (he : R.readings t.execute t'.execute)
      (hp : R.readings t.poll t'.poll) : Corresponds R (.cycle t) (.cycle t')
  | poll {a b : Int} (h : R.readings a b) : Corresponds R (.poll a) (.poll b)
  | reset {a b : Int} (h : R.readings a b) : Corresponds R (.reset a) (.reset b)
  | untimed {a : Action} (ha : a.Outside) (hp : ∀ now, a ≠ .poll now) : Corresponds R a a

namespace Machine

def withTimers (m : Machine) (delay sound : Timer) : Machine :=
  { m with delay, sound }

/-- The machines differ in their timers at most, and these correspond. -/
def Corresponds (R : Correspondence) (m n : Machine) : Prop :=
  ∃ delay sound, R.timers m.delay delay ∧ R.timers m.sound sound ∧ n = m.withTimers delay sound

end Machine

structure Outcome.Corresponds {α : Type} (R : Correspondence) (o p : Outcome α) : Prop where
  machine : o.machine.Corresponds R p.machine
  notices : R.notices o.notices p.notices
  answer : p.answer = o.answer

namespace Machine

inductive Matches (R : Correspondence) :
    Except (Raise Fault) (Machine × List Notice) →
      Except (Raise Fault) (Machine × List Notice) → Prop
  | ok {m n : Machine} (notices : List Notice) (h : m.Corresponds R n) :
      Matches R (.ok (m, notices)) (.ok (n, notices))
  | error {e e' : Raise Fault} (h : e'.fault = e.fault) : Matches R (.error e) (.error e')

variable {R : Correspondence} {random : Nat → Int} {m n : Machine} {i : Instruction}
  {a b : Action} {actions actions' : List Action} {l l' : List Notice}

theorem execute_corresponds {now now' : Int} (h : m.Corresponds R n) (hn : R.readings now now')
    (hr : R.KeepsCounts ∨ ¬ i.ReadsDelay) :
    Matches R (m.execute random now i) (n.execute random now' i) := by
  obtain ⟨d, s, hd, hs, rfl⟩ := h
  by_cases hi : i.UsesBackground
  · obtain rfl | ⟨nnn, rfl⟩ | ⟨x, nn, rfl⟩ | ⟨x, rfl | rfl | rfl⟩ := hi.cases
    · simp only [execute, executePlain, withTimers]
      cases m.stack.pop with
      | error e => exact .error rfl
      | ok r => exact .ok _ ⟨d, s, hd, hs, rfl⟩
    · simp only [execute, executeAddress, withTimers]
      cases m.stack.push m.pc with
      | error e => exact .error rfl
      | ok r => exact .ok _ ⟨d, s, hd, hs, rfl⟩
    · exact .ok _ ⟨d, s, hd, hs, rfl⟩
    · have hc : R.KeepsCounts := hr.resolve_right fun h ↦ h ⟨x, rfl⟩
      have hcount : d.count = m.delay.count := hc _ _ hd
      refine .ok _ ⟨d, s, hd, hs, ?_⟩
      rw [show (m.withTimers d s).delay.count = m.delay.count from hcount]
      rfl
    · exact .ok _ ⟨.start (m.register x) now', s, R.start _ hn, hs, rfl⟩
    · exact .ok _ ⟨d, .start (m.register x) now', hd, R.start _ hn, rfl⟩
  · have he := execute_mapBackground random random now now' m
      (fun b ↦ { b with delay := d, sound := s }) hi
    change Matches R _ ((m.mapBackground fun b ↦ { b with delay := d, sound := s }).execute
      random now' i)
    rw [he]
    cases hm : m.execute random now i with
    | error e => exact .error rfl
    | ok r =>
      obtain ⟨p, notices⟩ := r
      have hf : Frame i m p := frame_of_execute hm
      have hdelay : p.delay = m.delay := by
        refine hf.delay ?_
        rintro x rfl
        exact hi trivial
      have hsound : p.sound = m.sound := by
        refine hf.sound ?_
        rintro x rfl
        exact hi trivial
      exact .ok notices ⟨d, s, hdelay ▸ hd, hsound ▸ hs, rfl⟩

theorem finish_corresponds {now now' : Int} (h : m.Corresponds R n)
    (hl : R.notices l l') (hn : R.readings now now') :
    (m.finish l now).Corresponds R (n.finish l' now') := by
  obtain ⟨d, s, hd, hs, rfl⟩ := h
  refine ⟨⟨d.poll now', s.poll now', R.poll hd hn, R.poll hs hn, rfl⟩,
    R.append hl (R.beep hs hn), ?_⟩
  rw [finish_answer, finish_answer]
  rfl

theorem cycle_corresponds {t t' : Moment} (h : m.Corresponds R n)
    (he : R.readings t.execute t'.execute) (hp : R.readings t.poll t'.poll)
    (hr : R.KeepsCounts ∨ ∀ s ∈ m.executed? random (.cycle t), ¬ s.instruction.ReadsDelay) :
    (m.cycle random t).Corresponds R (n.cycle random t') := by
  obtain ⟨d, s, hd, hs, rfl⟩ := h
  have hnil : R.notices [] [] := R.same rfl
  cases hw : m.waiting with
  | true =>
    rw [cycle_of_waiting hw, cycle_of_waiting (m := m.withTimers d s) hw]
    exact finish_corresponds ⟨d, s, hd, hs, rfl⟩ hnil hp
  | false =>
    by_cases hpc : m.pc ≤ 4094
    · have hadvanced : m.advanced.Corresponds R (m.withTimers d s).advanced :=
        ⟨d, s, hd, hs, rfl⟩
      have hr : R.KeepsCounts ∨ ¬ m.upcoming.ReadsDelay := by
        refine hr.imp_right fun hr ↦ ?_
        rintro ⟨x, hi⟩
        have ho : m.obstacle m.upcoming = none := by
          rw [hi]
          exact if_neg m.fits_nothing
        exact hr _ (executed_of_begins ⟨hw, hpc, rfl⟩ ho t) ⟨x, hi⟩
      have hx : Matches R (m.advanced.execute random t.execute m.upcoming)
          ((m.withTimers d s).advanced.execute random t'.execute m.upcoming) :=
        execute_corresponds hadvanced he hr
      generalize hm : m.advanced.execute random t.execute m.upcoming = r at hx
      generalize hn : (m.withTimers d s).advanced.execute random t'.execute m.upcoming = r' at hx
      cases hx with
      | error h =>
        rw [cycle_of_execute_error hw hpc hm,
          cycle_of_execute_error (m := m.withTimers d s) hw hpc hn, h]
        exact ⟨hadvanced, hnil, rfl⟩
      | ok notices h =>
        rw [cycle_of_execute_ok hw hpc hm, cycle_of_execute_ok (m := m.withTimers d s) hw hpc hn]
        obtain ⟨d', s', hd', hs', rfl⟩ := h
        exact finish_corresponds ⟨d', s', hd', hs', rfl⟩ (R.same (beeps_execute hm)) hp
    · have hpc : 4094 < m.pc := Nat.not_le.mp hpc
      rw [cycle_of_lt hw hpc, cycle_of_lt (m := m.withTimers d s) hw hpc]
      exact ⟨⟨d, s, hd, hs, rfl⟩, hnil, rfl⟩

theorem reset_corresponds {now now' : Int} (hn : R.readings now now') (m n : Machine)
    (hdrawn : n.drawn = m.drawn) : (m.reset now).Corresponds R (n.reset now') := by
  refine ⟨.stopped now', .stopped now', R.start 0 hn, R.start 0 hn, ?_⟩
  rw [n.reset_eq m, hdrawn, withTimers, reset, reset]

theorem beeps_of_outside (ha : a.Outside) (hp : ∀ now, a ≠ .poll now) :
    Notice.beeps (m.perform random a).notices = [] := by
  rw [beeps_perform, timerEvents_of_outside ha hp]
  rfl

theorem perform_corresponds (h : m.Corresponds R n) (ha : a.Corresponds R b)
    (hr : R.KeepsCounts ∨ ∀ s ∈ m.executed? random a, ¬ s.instruction.ReadsDelay) :
    (m.perform random a).Corresponds R (n.perform random b) := by
  cases ha with
  | cycle he hp =>
    obtain ⟨hm, hl, ha⟩ := cycle_corresponds h he hp hr
    exact ⟨hm, hl, congrArg (Except.map some) ha⟩
  | poll hn =>
    obtain ⟨d, s, hd, hs, rfl⟩ := h
    rw [perform_poll, perform_poll]
    exact ⟨⟨_, _, R.poll hd hn, R.poll hs hn, rfl⟩, R.beep hs hn, rfl⟩
  | reset hn =>
    obtain ⟨d, s, hd, hs, rfl⟩ := h
    exact ⟨reset_corresponds hn m (m.withTimers d s) rfl, R.same rfl, rfl⟩
  | untimed ha hp =>
    obtain ⟨d, s, hd, hs, rfl⟩ := h
    have he := perform_mapBackground random random m
      (fun b ↦ { b with delay := d, sound := s }) ha hp
    have hdelay : (m.perform random a).machine.timer .delay = m.delay := timer_of_outside ha hp
    have hsound : (m.perform random a).machine.timer .sound = m.sound := timer_of_outside ha hp
    change Outcome.Corresponds R _ ((m.mapBackground fun b ↦
      { b with delay := d, sound := s }).perform random a)
    rw [he]
    rw [← hdelay] at hd
    rw [← hsound] at hs
    exact ⟨⟨d, s, hd, hs, rfl⟩, R.same (beeps_of_outside ha hp), rfl⟩

/-- Corresponding clocks lead to corresponding outcomes, as long as the program does not get to
know counts that differ. -/
theorem outcomes_correspond (h : m.Corresponds R n)
    (ha : List.Forall₂ (Action.Corresponds R) actions actions')
    (hr : R.KeepsCounts ∨ ∀ s ∈ m.trace random actions, ¬ s.instruction.ReadsDelay) :
    List.Forall₂ (Outcome.Corresponds R) (m.outcomes random actions)
      (n.outcomes random actions') := by
  induction ha generalizing m n with
  | nil => exact .nil
  | @cons a b actions actions' hab _ ih =>
    rw [trace] at hr
    have hstep : (m.perform random a).Corresponds R (n.perform random b) := by
      refine perform_corresponds h hab (hr.imp_right fun hr s hs ↦ ?_)
      exact hr s (List.mem_append_left _ (Option.mem_toList.mpr hs))
    refine .cons hstep (ih hstep.machine (hr.imp_right fun hr s hs ↦ ?_))
    exact hr s (List.mem_append_right _ hs)

end Machine

end ChipEight
