import ChipEight.Frontend.Headless
import ChipEight.Frontend.Playback
import ChipEight.Proofs.Actions
import ChipEight.Proofs.Consoles
import ChipEight.Proofs.Cycle
import Mathlib.Data.List.Basic

namespace ChipEight

theorem Event.isQuit_iff {e : Event} : e.isQuit ↔ e = .quit ∨ e = .keyDown Keyboard.escape := by
  cases e <;> simp [isQuit]

theorem Machine.handle_answer (m : Machine) (e : Event) :
    (m.handle e).answer = .ok (!e.isQuit) := by
  cases hq : e.isQuit with
  | true => exact congrArg Outcome.answer (if_pos hq)
  | false =>
    refine (congrArg Outcome.answer (if_neg (ne_true_of_eq_false hq))).trans ?_
    cases e with
    | quit => cases hq
    | other => rfl
    | keyDown code =>
      cases hk : Keyboard.key? code with
      | none => simp only [hk, Bool.not_false]
      | some k =>
        cases hw : m.waiting with
        | true => simp only [hk, press_of_waiting hw, Outcome.of, Bool.not_false]
        | false => simp only [hk, press_of_not_waiting hw, Outcome.of, Bool.not_false]
    | keyUp code =>
      cases hk : Keyboard.key? code with
      | none => simp only [hk, Bool.not_false]
      | some k => simp only [hk, release_natCast, attempt, Bool.not_false]

theorem Machine.handle_eq (m : Machine) (e : Event) :
    let n := (m.handle e).machine
    n = { m with registers := n.registers, keypad := n.keypad, waiting := n.waiting } := by
  cases hq : e.isQuit with
  | true => rw [show m.handle e = ⟨m, [], .ok false⟩ from if_pos hq]
  | false =>
    have hne : ¬ e.isQuit = true := ne_true_of_eq_false hq
    cases e with
    | quit | other => simp only [handle, if_neg hne]
    | keyDown code =>
      cases hk : Keyboard.key? code with
      | none => simp only [handle, if_neg hne, hk]
      | some k =>
        cases hp : m.press k with
        | error f =>
          have hm : f.machine = m := machine_of_press_error hp
          simp only [handle, if_neg hne, hk, hp, Outcome.of, hm]
        | ok r =>
          simp only [handle, if_neg hne, hk, hp, Outcome.of]
          exact eq_of_press hp
    | keyUp code =>
      cases hk : Keyboard.key? code with
      | none => simp only [handle, if_neg hne, hk]
      | some k => simp only [handle, if_neg hne, hk, release_natCast, attempt]

theorem Machine.crash_of_error {random : Nat → Int} {t : Moment} {m : Machine} {f : Fault}
    (h : (m.cycle random t).answer = .error f) : ∃ c, f = .crash c := by
  obtain ⟨r, -, ho⟩ := cycle_of_error h
  have hanswer := congrArg Outcome.answer ho
  rw [h] at hanswer
  exact ⟨_, Except.error.inj hanswer⟩

namespace Session

/-- What the program does in a turn, one thing at a time. -/
inductive Deed
  | tick (rate : Nat)
  | event (e : Event)
  | cycle (t : Moment)
  | render

variable {W : WindowSystem}

def act (c : Console) (random : Nat → Int) (s : Session W) : Deed → Session W
  | .tick rate => s.tick rate
  | .event e => s.after (s.machine.handle e c)
  | .cycle t => s.after (s.machine.cycle random t c)
  | .render => s.render

def ready (c : Console) (random : Nat → Int) (s : Session W) (events : List Event) : Session W :=
  (.tick speed :: events.map .event).foldl (act c random) s

def deeds (c : Console) (random : Nat → Int) (t : Moment) (s : Session W) (events : List Event) :
    List Deed :=
  .tick speed :: events.map .event ++ .cycle t ::
    if ((s.ready c random events).machine.cycle random t c).answer = .ok true then [.render] else []

/-- The session at the beginning of each turn, if no turn ends it. -/
def begun (c : Console) (random : Nat → Int) (clock : Nat → Moment) (turns : Nat → List Event)
    (s : Session W) : Nat → Session W
  | 0 => s
  | i + 1 =>
    let s := s.begun c random clock turns i
    (s.deeds c random (clock i) (turns i)).foldl (act c random) s

/-- The events of each turn. When they run out the user leaves. -/
def script (events : List (List Event)) (i : Nat) : List Event :=
  events[i]?.getD [.quit]

variable {c : Console} {random : Nat → Int} {clock : Nat → Moment} {t : Moment} {s : Session W}

theorem feed_eq (hc : c.Unrefused) (random : Nat → Int) (s : Session W) (events : List Event) :
    s.feed c events =
      ((events.map .event).foldl (act c random) s, .ok (events.all (!·.isQuit))) := by
  induction events generalizing s with
  | nil => rfl
  | cons e events ih =>
    have hanswer : (s.machine.handle e c).answer = .ok (!e.isQuit) := by
      rw [Machine.handle_of_unrefused hc, Machine.handle_answer]
    rw [feed]
    simp only [hanswer]
    rw [ih]
    rfl

theorem turn_eq (hc : c.Unrefused) (random : Nat → Int) (t : Moment) (s : Session W)
    (events : List Event) :
    s.turn c random t events =
      ((s.deeds c random t events).foldl (act c random) s,
        ((s.ready c random events).machine.cycle random t c).answer.map
          fun _ ↦ events.all (!·.isQuit)) := by
  have hfeed : (s.tick speed).feed c events = _ := feed_eq hc random _ events
  have hready : s.ready c random events =
      (events.map .event).foldl (act c random) (s.tick speed) := rfl
  rw [turn, hfeed, ← hready, deeds, List.foldl_append, ← ready]
  simp only [List.foldl_cons, act]
  cases ((s.ready c random events).machine.cycle random t c).answer with
  | error e => rfl
  | ok redraw => cases redraw <;> rfl

/-- Before the cycle of a turn nothing is drawn. -/
theorem ready_eq (c : Console) (random : Nat → Int) (s : Session W) (events : List Event) :
    ∃ machine notices,
      s.ready c random events = { s with machine, notices, rates := s.rates ++ [speed] } := by
  have hevents : ∀ s : Session W, ∃ machine notices,
      (events.map .event).foldl (act c random) s = { s with machine, notices } := by
    induction events with
    | nil => exact fun s ↦ ⟨s.machine, s.notices, rfl⟩
    | cons e events ih =>
      intro s
      obtain ⟨machine, notices, h⟩ := ih (s.act c random (.event e))
      exact ⟨machine, notices, h⟩
  obtain ⟨machine, notices, h⟩ := hevents (s.tick speed)
  exact ⟨machine, notices, h⟩

theorem rates_turn (c : Console) (random : Nat → Int) (t : Moment) (s : Session W)
    (events : List Event) :
    ((s.deeds c random t events).foldl (act c random) s).rates = s.rates ++ [speed] := by
  obtain ⟨machine, notices, h⟩ := ready_eq c random s events
  have hready := congrArg rates h
  rw [deeds, List.foldl_append, ← ready, List.foldl_cons, act]
  split <;> exact hready

theorem begun_succ (c : Console) (random : Nat → Int) (clock : Nat → Moment)
    (turns : Nat → List Event) (s : Session W) (n : Nat) :
    s.begun c random clock turns (n + 1) =
      (s.begun c random clock turns 1).begun c random (fun i ↦ clock (i + 1))
        (fun i ↦ turns (i + 1)) n := by
  induction n with
  | zero => rfl
  | succ n ih =>
    rw [begun, ih]
    rfl

theorem rates_begun (c : Console) (random : Nat → Int) (clock : Nat → Moment)
    (turns : Nat → List Event) (s : Session W) (n : Nat) :
    (s.begun c random clock turns n).rates = s.rates ++ List.replicate n speed := by
  induction n with
  | zero => exact (List.append_nil _).symm
  | succ n ih => rw [begun, rates_turn, ih, List.append_assoc, List.replicate_succ']

def midway (c : Console) (random : Nat → Int) (clock : Nat → Moment) (turns : Nat → List Event)
    (s : Session W) (i : Nat) : Session W :=
  (s.begun c random clock turns i).ready c random (turns i)

def outcome (c : Console) (random : Nat → Int) (clock : Nat → Moment) (turns : Nat → List Event)
    (s : Session W) (i : Nat) : Outcome Bool :=
  (s.midway c random clock turns i).machine.cycle random (clock i) c

theorem midway_eq (c : Console) (random : Nat → Int) (clock : Nat → Moment)
    (turns : Nat → List Event) (s : Session W) (i : Nat) :
    s.midway c random clock turns i =
      (.tick 500 :: (turns i).map .event).foldl (act c random) (s.begun c random clock turns i) :=
  rfl

theorem begun_eq (c : Console) (random : Nat → Int) (clock : Nat → Moment)
    (turns : Nat → List Event) (s : Session W) (i : Nat) :
    s.begun c random clock turns (i + 1) =
      (.cycle (clock i) ::
        if (s.outcome c random clock turns i).answer = .ok true then [.render] else []).foldl
        (act c random) (s.midway c random clock turns i) := by
  rw [begun, deeds, List.foldl_append, ← ready]
  rfl

theorem begun_of_error {turns : Nat → List Event} {i : Nat} {f : Fault}
    (h : (s.outcome c random clock turns i).answer = .error f) :
    (s.begun c random clock turns (i + 1)).machine = (s.outcome c random clock turns i).machine ∧
      (s.begun c random clock turns (i + 1)).frames = (s.begun c random clock turns i).frames := by
  obtain ⟨machine, notices, hready⟩ :=
    ready_eq c random (s.begun c random clock turns i) (turns i)
  have hmidway : s.midway c random clock turns i = _ := hready
  have hframes : (s.midway c random clock turns i).frames =
      (s.begun c random clock turns i).frames := by
    rw [hmidway]
  rw [begun_eq, if_neg (by rw [h]; exact nofun)]
  exact ⟨rfl, hframes⟩

theorem crash_of_error (hc : c.Unrefused) {turns : Nat → List Event} {i : Nat} {f : Fault}
    (h : (s.outcome c random clock turns i).answer = .error f) : ∃ crash, f = .crash crash := by
  rw [outcome, Machine.cycle_of_hears (hc.hears _)] at h
  exact Machine.crash_of_error h

theorem outcome_succ (c : Console) (random : Nat → Int) (clock : Nat → Moment)
    (turns : Nat → List Event) (s : Session W) (n : Nat) :
    s.outcome c random clock turns (n + 1) =
      (s.begun c random clock turns 1).outcome c random (fun i ↦ clock (i + 1))
        (fun i ↦ turns (i + 1)) n := by
  rw [outcome, midway, begun_succ]
  rfl

theorem first_turn (hc : c.Unrefused) (random : Nat → Int) (moments : Nat → Moment)
    (turns : Nat → List Event) (s : Session W) :
    s.turn c random (moments 0) (turns 0) =
      (s.begun c random moments turns 1,
        (s.outcome c random moments turns 0).answer.map fun _ ↦ (turns 0).all (!·.isQuit)) :=
  turn_eq hc random (moments 0) s (turns 0)

/-- A session ends with the first turn that is asked to or that fails. -/
theorem play_eq (hc : c.Unrefused) {events : List (List Event)} {n : Nat}
    {turns : Nat → List Event} {moments : Nat → Moment}
    (hturns : ∀ i, turns i = script events i)
    (hclock : ∀ i, moments i = clock (s.rates.length + i))
    (hgo : ∀ i < n, (∀ e ∈ turns i, ¬ e.isQuit) ∧
      ∃ b, (s.outcome c random moments turns i).answer = .ok b)
    (hstop : (∃ e ∈ turns n, e.isQuit) ∨
      ∃ f, (s.outcome c random moments turns n).answer = .error f) :
    s.play c random clock events =
      (s.begun c random moments turns (n + 1),
        (s.outcome c random moments turns n).answer.map fun _ ↦ ()) := by
  induction n generalizing s events turns moments with
  | zero =>
    have hfirst := first_turn hc random moments turns s
    have hmoment : moments 0 = clock s.rates.length := hclock 0
    cases events with
    | nil =>
      have hturn : turns 0 = [.quit] := hturns 0
      rw [hmoment, hturn] at hfirst
      rw [play, hfirst]
      cases (s.outcome c random moments turns 0).answer <;> rfl
    | cons batch events =>
      have hturn : turns 0 = batch := hturns 0
      rw [hmoment, hturn] at hfirst
      rw [play, hfirst]
      rw [hturn] at hstop
      cases ho : (s.outcome c random moments turns 0).answer with
      | error f => rfl
      | ok b =>
        have hquit : batch.all (!·.isQuit) = false := by
          rcases hstop with ⟨e, he, hq⟩ | ⟨f, hf⟩
          · simpa using ⟨e, he, hq⟩
          · rw [ho] at hf
            cases hf
        simp only [Except.map, hquit]
  | succ n ih =>
    obtain ⟨hquit, b, hb⟩ := hgo 0 (Nat.succ_pos n)
    cases events with
    | nil =>
      -- When the events have run out, the turn is asked to end the session.
      rw [hturns] at hquit
      exact absurd rfl (hquit .quit (List.mem_singleton_self _))
    | cons batch events =>
      have hfirst := first_turn hc random moments turns s
      have hmoment : moments 0 = clock s.rates.length := hclock 0
      have hturn : turns 0 = batch := hturns 0
      have hall : (turns 0).all (!·.isQuit) = true := by
        simpa using hquit
      rw [hb, hall, hmoment, hturn] at hfirst
      rw [play, hfirst, begun_succ c random moments turns s (n + 1), outcome_succ]
      refine ih (fun i ↦ hturns (i + 1)) ?_ ?_ ?_
      · intro i
        rw [rates_begun, List.length_append, List.length_replicate, Nat.add_assoc, Nat.add_comm 1 i]
        exact hclock (i + 1)
      · intro i hi
        rw [← outcome_succ]
        exact hgo (i + 1) (Nat.succ_lt_succ hi)
      · rw [← outcome_succ]
        exact hstop

theorem script_quits (events : List (List Event)) :
    let q := events.findIdx (·.any Event.isQuit)
    (∃ e ∈ script events q, e.isQuit) ∧ ∀ i < q, ∀ e ∈ script events i, ¬ e.isQuit := by
  intro q
  constructor
  · by_cases hq : q < events.length
    · have hany : events[q].any Event.isQuit = true :=
        List.findIdx_getElem (p := (List.any · Event.isQuit)) (w := hq)
      rw [script, List.getElem?_eq_getElem hq, Option.getD_some]
      exact List.any_eq_true.mp hany
    · rw [script, List.getElem?_eq_none (Nat.le_of_not_lt hq), Option.getD_none]
      exact ⟨.quit, List.mem_singleton_self _, rfl⟩
  · intro i hi e he hquit
    have hlt : i < events.length := Nat.lt_of_lt_of_le hi List.findIdx_le_length
    have hany : events[i].any Event.isQuit = false := List.not_of_lt_findIdx hi
    rw [script, List.getElem?_eq_getElem hlt, Option.getD_some] at he
    exact List.any_eq_false.mp hany e he hquit

theorem start_eq {m : Machine} {notices : List Notice} (h : start W m notices = .ok s) :
    ∃ display, Display.create W .standard Display.lightBlue Display.blue = .ok display ∧
      s = ⟨m, display, [], notices, []⟩ := by
  obtain ⟨display, hd, h⟩ := exists_of_bind h
  cases h
  exact ⟨display, hd, rfl⟩

theorem rates_start {m : Machine} {notices : List Notice} (h : start W m notices = .ok s) :
    s.rates = [] := by
  obtain ⟨display, -, rfl⟩ := start_eq h
  rfl

/-- The turns of a session that has had none are counted from zero. -/
theorem clock_eq_of_rates (hs : s.rates = []) (clock : Nat → Moment) (i : Nat) :
    clock i = clock (s.rates.length + i) := by
  rw [hs, List.length_nil, Nat.zero_add]

end Session

namespace Playback

theorem ofSession_closed {W : WindowSystem} (path : String) (s : Session W) :
    ofSession path s (.ok ()) =
      ⟨.closed, s.notices, s.frames, [FileTree.baseName path], s.rates⟩ :=
  rfl

theorem ofSession_crash {W : WindowSystem} (path : String) (s : Session W) (reason : Reason)
    (address : Int) :
    ofSession path s (.error (.crash ⟨reason, address⟩)) =
      ⟨.exit ("********** THE EMULATOR CRASHED WITH THE FOLLOWING STATE\n" ++
          (reason.text ++ " at address 0x" ++ Text.hex 3 address) ++ "\n" ++ s.machine.dump),
        s.notices, s.frames, [FileTree.baseName path], s.rates⟩ :=
  rfl

/-- Once its program is loaded and its window is there, the main loop does turn after turn what a
turn should do, up to the first turn with a request to leave or with a fatal error. It ends with
that turn, whose cycle is still run. -/
theorem plays_script {W : WindowSystem} {c : Console} (hc : c.Unrefused) (random : Nat → Int)
    (clock : Nat → Moment) (events : List (List Event)) {files : Files} {start : Int}
    {arguments : List String} {path : String} {m : Machine} {notices : List Notice}
    {s : Session W} (hargs : Options.parse arguments = .ok (.path path))
    (hload : (Machine.fresh start).loadFile files path c = .ok (m, notices))
    (hwindow : Session.start W m notices = .ok s) :
    let turns := Session.script events
    let q := events.findIdx (·.any Event.isQuit)
    let act := Session.act c random
    let begun := s.begun c random clock turns
    let midway := s.midway c random clock turns
    let outcome := s.outcome c random clock turns
    let p := run W c files random start clock arguments events
    -- The first turn that is asked to be the last one.
    ((.quit ∈ turns q ∨ .keyDown 27 ∈ turns q) ∧
      ∀ i < q, .quit ∉ turns i ∧ .keyDown 27 ∉ turns i) ∧
    -- What is done in a turn before its cycle and from then on, and what each deed does.
    (∀ i, turns i = events[i]?.getD [.quit] ∧
      midway i = (.tick 500 :: (turns i).map .event).foldl act (begun i) ∧
      outcome i = (midway i).machine.cycle random (clock i) c ∧
      begun (i + 1) = (.cycle (clock i) ::
        if (outcome i).answer = .ok true then [.render] else []).foldl act (midway i)) ∧
    (∀ s : Session W,
      (∀ rate, act s (.tick rate) = { s with rates := s.rates ++ [rate] }) ∧
      (∀ e, act s (.event e) = { s with
        machine := (s.machine.handle e c).machine
        notices := s.notices ++ (s.machine.handle e c).notices }) ∧
      (∀ t, act s (.cycle t) = { s with
        machine := (s.machine.cycle random t c).machine
        notices := s.notices ++ (s.machine.cycle random t c).notices }) ∧
      let pixels := s.machine.screen.pixels.toList
      let picture := s.display.render (pixels.map fun p ↦ if p then 1 else 0)
      act s .render = { s with display := picture, frames := s.frames ++ [picture.cells] }) ∧
    (begun 0 = s ∧ s.machine = m ∧ s.notices = notices ∧ s.rates = [] ∧ s.frames = []) ∧
    -- A fatal error ends the program with a report of it.
    (∀ e f, e ≤ q → (∀ i < e, ∃ b, (outcome i).answer = .ok b) → (outcome e).answer = .error f →
      ∃ reason address, f = .crash ⟨reason, address⟩ ∧
        s.play c random clock events = (begun (e + 1), .error f) ∧
        (begun (e + 1)).machine = (outcome e).machine ∧
        p = ⟨.exit ("********** THE EMULATOR CRASHED WITH THE FOLLOWING STATE\n" ++
            (reason.text ++ " at address 0x" ++ Text.hex 3 address) ++ "\n" ++
            (outcome e).machine.dump),
          (begun (e + 1)).notices, (begun e).frames, [FileTree.baseName path],
          List.replicate (e + 1) 500⟩) ∧
    ((∀ i ≤ q, ∃ b, (outcome i).answer = .ok b) →
      s.play c random clock events = (begun (q + 1), .ok ()) ∧
        p = ⟨.closed, (begun (q + 1)).notices, (begun (q + 1)).frames, [FileTree.baseName path],
          List.replicate (q + 1) 500⟩) := by
  intro turns q act begun midway outcome p
  obtain ⟨hquit, hbefore⟩ := Session.script_quits events
  have hp : p = ofSession path (s.play c random clock events).1
      (s.play c random clock events).2 := by
    simp only [p, run, hargs, hload, hwindow]
  obtain ⟨display, -, hs⟩ := Session.start_eq hwindow
  have hclock := Session.clock_eq_of_rates (Session.rates_start hwindow) clock
  have hrates : ∀ i, (begun i).rates = List.replicate i 500 := by
    intro i
    refine (Session.rates_begun c random clock turns s i).trans ?_
    rw [Session.rates_start hwindow, List.nil_append, Session.speed]
  refine ⟨⟨?_, fun i hi ↦ ⟨?_, ?_⟩⟩, fun i ↦ ?_, fun s ↦ ?_, ⟨rfl, ?_⟩, ?_, ?_⟩
  · obtain ⟨e, he, hq⟩ := hquit
    rcases Event.isQuit_iff.mp hq with rfl | rfl
    · exact .inl he
    · exact .inr he
  · exact fun h ↦ hbefore i hi _ h rfl
  · exact fun h ↦ hbefore i hi _ h rfl
  · exact ⟨rfl, Session.midway_eq c random clock turns _ i, rfl,
      Session.begun_eq c random clock turns _ i⟩
  · exact ⟨fun rate ↦ rfl, fun e ↦ rfl, fun t ↦ rfl, rfl⟩
  · rw [hs]
    exact ⟨rfl, rfl, rfl, rfl⟩
  · intro e f he hok hf
    obtain ⟨⟨reason, address⟩, rfl⟩ := Session.crash_of_error hc hf
    obtain ⟨hmachine, hframes⟩ := Session.begun_of_error hf
    have hgo : ∀ i < e, (∀ e ∈ turns i, ¬ e.isQuit) ∧ ∃ b, (outcome i).answer = .ok b := by
      intro i hi
      exact ⟨hbefore i (Nat.lt_of_lt_of_le hi he), hok i hi⟩
    have hplay : s.play c random clock events =
        (begun (e + 1), (outcome e).answer.map fun _ ↦ ()) :=
      Session.play_eq hc (fun _ ↦ rfl) hclock hgo (.inr ⟨_, hf⟩)
    rw [hf] at hplay
    refine ⟨reason, address, rfl, hplay, hmachine, ?_⟩
    rw [hp, hplay]
    refine (ofSession_crash path (begun (e + 1)) reason address).trans ?_
    rw [hrates, hmachine, hframes]
  · intro hok
    have hgo : ∀ i < q, (∀ e ∈ turns i, ¬ e.isQuit) ∧ ∃ b, (outcome i).answer = .ok b := by
      intro i hi
      exact ⟨hbefore i hi, hok i (Nat.le_of_lt hi)⟩
    have hplay : s.play c random clock events =
        (begun (q + 1), (outcome q).answer.map fun _ ↦ ()) :=
      Session.play_eq hc (fun _ ↦ rfl) hclock hgo (.inl hquit)
    obtain ⟨b, hb⟩ := hok q (Nat.le_refl q)
    rw [hb] at hplay
    refine ⟨hplay, ?_⟩
    rw [hp, hplay]
    refine (ofSession_closed path (begun (q + 1))).trans ?_
    rw [hrates]

def strayReturn : List Byte :=
  [0x00, 0xE0, 0x00, 0xEE]

/-- The program fails in the turn in which the user leaves. -/
theorem plays_script_stray_return :
    let W := Headless.system (1024, 768) 16384
    let files : Files := fun _ ↦ .ok strayReturn
    let m : Machine :=
      { Machine.fresh 0 with memory := (Machine.fresh 0).memory.splice 0x200 strayReturn }
    let window : W.Window := ⟨640, 320, .filled 640 320 Display.blue.toShade⟩
    let s : Session W := ⟨m, ⟨Display.lightBlue, Display.blue, window⟩, [], [.romLoaded "x" 4], []⟩
    let events := [[.keyDown 120], [.quit, .keyUp 120]]
    let o := s.outcome .off (fun _ ↦ 0) (fun _ ↦ .still 0) (Session.script events) 1
    let p := run W .off files (fun _ ↦ 0) 0 (fun _ ↦ .still 0) ["-f", "x"] events
    (Console.Unrefused .off ∧ Options.parse ["-f", "x"] = .ok (.path "x") ∧
      (Machine.fresh 0).loadFile files "x" .off = .ok (m, [.romLoaded "x" 4]) ∧
      Session.start W m [.romLoaded "x" 4] = .ok s) ∧
      p.ending = .exit ("********** THE EMULATOR CRASHED WITH THE FOLLOWING STATE\n" ++
        "Stack underflow at address 0x202" ++ "\n" ++ o.machine.dump) ∧
      p.rates = [500, 500] ∧ p.frames.length = 1 := by
  intro W files m window s events o p
  have hc : Console.Unrefused .off := Console.unrefused_of_open fun _ ↦ rfl
  have hargs : Options.parse ["-f", "x"] = .ok (.path "x") := rfl
  have hload : (Machine.fresh 0).loadFile files "x" .off = .ok (m, [.romLoaded "x" 4]) := rfl
  have hwindow : Session.start W m [.romLoaded "x" 4] = .ok s := rfl
  let turns := Session.script events
  obtain ⟨hfirst, hsecond, hframes⟩ :
      (s.outcome .off (fun _ ↦ 0) (fun _ ↦ .still 0) turns 0).answer = .ok true ∧
        o.answer = .error (.crash ⟨.stackUnderflow, 0x202⟩) ∧
        (s.begun .off (fun _ ↦ 0) (fun _ ↦ .still 0) turns 1).frames.length = 1 := by
    decide +kernel
  obtain ⟨-, -, -, -, hfails, -⟩ :=
    plays_script hc (fun _ ↦ 0) (fun _ ↦ .still 0) events hargs hload hwindow
  obtain ⟨reason, address, hcrash, -, -, hp⟩ := hfails 1 _ (by decide) (by
    intro i hi
    obtain rfl : i = 0 := Nat.lt_one_iff.mp hi
    exact ⟨true, hfirst⟩) hsecond
  cases hcrash
  have hmessage : Reason.stackUnderflow.text ++ " at address 0x" ++ Text.hex 3 0x202 =
      "Stack underflow at address 0x202" := by
    decide +kernel
  change p = _ at hp
  rw [hp, hmessage]
  refine ⟨⟨hc, hargs, hload, hwindow⟩, rfl, rfl, ?_⟩
  simpa only using hframes

end Playback

end ChipEight
