import ChipEight.Proofs.Frames
import ChipEight.Proofs.Sessions
import Mathlib.Data.Nat.Find

namespace ChipEight

namespace Machine

variable {random : Nat → Int} {m n : Machine} {t : Moment}

theorem screen_of_execute {now : Int} {i : Instruction} {notices : List Notice}
    (h : m.execute random now i = .ok (n, notices)) : n.redraw = true ∨ n.screen = m.screen := by
  have hf : Frame i m n := frame_of_execute h
  cases i with
  | plain op =>
    cases op with
    | clear => cases h; exact .inl rfl
    | ret => exact .inr (hf.screen (by simp) (by simp)).1
  | draw x y height =>
    obtain ⟨drawn, hd, h⟩ := exists_of_bind h
    obtain ⟨rows, -, hd⟩ := exists_of_bind hd
    obtain ⟨screen, -, hd⟩ := exists_of_bind hd
    cases hd
    cases h
    exact .inl rfl
  | _ => exact .inr (hf.screen (by simp) (by simp)).1

/-- A cycle that does not ask for a new picture leaves the screen as it is. -/
theorem screen_cycle (h : (m.cycle random t).answer ≠ .ok true) :
    (m.cycle random t).machine.screen = m.screen := by
  have hc := m.cycle_course random t
  generalize m.cycle random t = o at h hc ⊢
  cases hc with
  | wait | unfetched | crash => rfl
  | step n notices hw hp ho he hf =>
    rcases screen_of_execute he with hr | hs
    · rw [finish_answer] at h
      exact absurd (congrArg Except.ok hr) h
    · exact hs

theorem screen_loadFile {c : Console} {files : Files} {path : String} {notices : List Notice}
    (h : m.loadFile files path c = .ok (n, notices)) : n.screen = m.screen := by
  obtain ⟨rom, hload⟩ := exists_load_of_loadFile h
  obtain ⟨memory, rfl⟩ := eq_of_load hload
  rfl

end Machine

theorem Screen.getD_levels_ne_zero_iff {width height : Int} {s : Screen width height} {i : Nat} :
    s.levels.getD i 0 ≠ 0 ↔ s.pixels[i]? = some true := by
  rw [levels, List.getD_eq_getElem?_getD, List.getElem?_map, Vector.getElem?_toList]
  cases s.pixels[i]? with
  | none => simp
  | some b => cases b <;> simp

namespace Session

variable {W : WindowSystem} {c : Console} {random : Nat → Int} {clock : Nat → Moment} {t : Moment}
  {s : Session W} {px py : Nat}

def shade (screen : Screen 64 32) (px py : Nat) : Shade :=
  (if screen.pixels[py / 10 * 64 + px / 10]? = some true then Display.lightBlue
    else Display.blue).toShade

/-- The window shows the screen of the machine. -/
structure Current (s : Session W) : Prop where
  foreground : s.display.foreground = Display.lightBlue
  background : s.display.background = Display.blue
  size : W.size s.display.window = (640, 320)
  point : ∀ px < 640, ∀ py < 320,
    W.point? s.display.window px py = some (shade s.machine.screen px py)

theorem current_start (hW : W.Lawful) {m : Machine} (hm : m.screen = .dark 64 32)
    {notices : List Notice} (h : start W m notices = .ok s) : s.Current := by
  obtain ⟨display, hd, rfl⟩ := start_eq h
  obtain ⟨hsize, hf, hb, hpoint⟩ := Display.create_eq hW (w := 64) (h := 32) (s := 10)
    (by decide) (by decide) (by decide) (by decide) (by decide) hd
  refine ⟨hf, hb, hsize, fun px hx py hy ↦ ?_⟩
  have hdark : (Screen.dark 64 32).pixels[py / 10 * 64 + px / 10]? ≠ some true := by
    rw [Screen.dark, Vector.getElem?_replicate]
    split <;> simp
  rw [shade, hm, if_neg hdark]
  exact hpoint px hx py hy

theorem Current.render (hW : W.Lawful) (h : s.Current) (screen : Screen 64 32) (hx : px < 640)
    (hy : py < 320) :
    W.point? (s.display.render screen.levels).window px py = some (shade screen px py) := by
  have hcolumns : Layout.standard.columns = (64 : Nat) := rfl
  have hcolumn : px / Layout.standard.side < 64 := Nat.div_lt_of_lt_mul hx
  have hcell : Layout.standard.cellAt px py = py / 10 * 64 + px / 10 := rfl
  rw [Display.point?_render s.display hW hcolumns (by decide) hcolumn (by rwa [h.size])
    (by rwa [h.size]), hcell, shade]
  simp only [Screen.getD_levels_ne_zero_iff, h.foreground, h.background]

theorem screen_ready (hc : c.Unrefused) (random : Nat → Int) (s : Session W)
    (events : List Event) : (s.ready c random events).machine.screen = s.machine.screen := by
  have hevents : ∀ s : Session W,
      ((events.map .event).foldl (act c random) s).machine.screen = s.machine.screen := by
    induction events with
    | nil => exact fun s ↦ rfl
    | cons e events ih =>
      intro s
      refine (ih (s.act c random (.event e))).trans ?_
      rw [act, after, Machine.handle_of_unrefused hc, Machine.handle_eq]
  exact hevents _

theorem Current.turn (hW : W.Lawful) (hc : c.Unrefused) (h : s.Current) (random : Nat → Int)
    (t : Moment) (events : List Event) :
    ((s.deeds c random t events).foldl (act c random) s).Current := by
  obtain ⟨machine, notices, hready⟩ := ready_eq c random s events
  have hdisplay : (s.ready c random events).display = s.display := by rw [hready]
  have hscreen := screen_ready hc random s events
  rw [deeds, List.foldl_append, ← ready, List.foldl_cons]
  generalize s.ready c random events = r at hdisplay hscreen ⊢
  have hr : r.Current := by
    refine ⟨?_, ?_, ?_, ?_⟩
    · rw [hdisplay, h.foreground]
    · rw [hdisplay, h.background]
    · rw [hdisplay, h.size]
    · rw [hdisplay, hscreen]
      exact h.point
  by_cases hredraw : (r.machine.cycle random t c).answer = .ok true
  · rw [if_pos hredraw]
    refine ⟨hr.foreground, hr.background, (r.display.size_render hW _).trans hr.size, ?_⟩
    intro px hx py hy
    exact hr.render hW (r.machine.cycle random t c).machine.screen hx hy
  · -- A turn that does not end with a new picture has left the screen as it was.
    rw [if_neg hredraw]
    refine ⟨hr.foreground, hr.background, hr.size, ?_⟩
    change ∀ px < 640, ∀ py < 320, W.point? r.display.window px py =
      some (shade (r.machine.cycle random t c).machine.screen px py)
    rw [Machine.cycle_of_hears (hc.hears _)] at hredraw ⊢
    rw [Machine.screen_cycle hredraw]
    exact hr.point

theorem Current.begun (hW : W.Lawful) (hc : c.Unrefused) (h : s.Current) (random : Nat → Int)
    (clock : Nat → Moment) (turns : Nat → List Event) (n : Nat) :
    (s.begun c random clock turns n).Current := by
  induction n with
  | zero => exact h
  | succ n ih => exact ih.turn hW hc random (clock n) (turns n)

theorem Current.cell (h : s.Current) {x y : Nat} (hx : x < 64) (hy : y < 32) :
    (s.display.cellIs Display.lightBlue.toShade x y = true ↔
        s.machine.screen.pixels[y * 64 + x]? = some true) ∧
      (s.display.cellIs Display.blue.toShade x y = true ↔
        s.machine.screen.pixels[y * 64 + x]? = some false) := by
  have hlt : y * 64 + x < 2048 := by omega
  obtain ⟨b, hb⟩ : ∃ b, s.machine.screen.pixels[y * 64 + x]? = some b :=
    ⟨_, Vector.getElem?_eq_getElem hlt⟩
  have hpoint (px py : Nat) (hpx : px / 10 = x) (hpy : py / 10 = y) :
      W.point? s.display.window px py =
        some (if b = true then Display.lightBlue else Display.blue).toShade := by
    rw [h.point px (by omega) py (by omega), shade, hpx, hpy, hb]
    simp only [Option.some.injEq]
  have hcell := s.display.cellIs_iff (by decide) hpoint
  rw [hcell, hcell, hb]
  cases b <;> decide

theorem Current.cells (h : s.Current) :
    s.display.cells = (List.range 32).map fun y ↦ (List.range 64).map fun x ↦
      s.machine.screen.pixels[y * 64 + x]? := by
  refine List.map_congr_left fun y hy ↦ List.map_congr_left fun x hx ↦ ?_
  rw [List.mem_range] at hx hy
  have hlt : y * 64 + x < 2048 := by
    have hx' : x < 64 := hx
    have hy' : y < 32 := hy
    omega
  obtain ⟨hlit, hdark⟩ := h.cell hx hy
  rw [Vector.getElem?_eq_getElem hlt] at hlit hdark ⊢
  rw [Display.cell?, h.background, h.foreground]
  cases hb : s.machine.screen.pixels[y * 64 + x] with
  | false => rw [if_pos (hdark.mpr (by rw [hb]))]
  | true => rw [if_neg (by rw [hdark, hb]; simp), if_pos (hlit.mpr (by rw [hb]))]

theorem exists_play_eq_begun (hc : c.Unrefused) (random : Nat → Int) (clock : Nat → Moment)
    (hs : s.rates = []) (events : List (List Event)) :
    ∃ n r, s.play c random clock events = (s.begun c random clock (script events) (n + 1), r) := by
  -- The loop ends with the first turn that is asked to quit or crashes.
  let Stops (i : Nat) : Prop := (∃ e ∈ script events i, e.isQuit) ∨
    ∃ f, (s.outcome c random clock (script events) i).answer = .error f
  have hstops : ∃ n, Stops n := ⟨_, .inl (script_quits events).1⟩
  classical
  have hgo : ∀ i < Nat.find hstops, (∀ e ∈ script events i, ¬ e.isQuit) ∧
      ∃ b, (s.outcome c random clock (script events) i).answer = .ok b := by
    intro i hi
    obtain ⟨hquit, hfail⟩ := not_or.mp (Nat.find_min hstops hi)
    refine ⟨fun e he hq ↦ hquit ⟨e, he, hq⟩, ?_⟩
    cases ha : (s.outcome c random clock (script events) i).answer with
    | ok b => exact ⟨b, rfl⟩
    | error f => exact absurd ⟨f, ha⟩ hfail
  exact ⟨_, _, play_eq hc (fun _ ↦ rfl) (clock_eq_of_rates hs clock) hgo
    (Nat.find_spec hstops)⟩

end Session

namespace Playback

/-- After the window is opened and after each turn of the main loop, every cell of the window
shows its pixel of the screen. For only a cycle that asks for a new picture changes the screen. -/
theorem window_shows_screen {W : WindowSystem} (hW : W.Lawful) {c : Console} (hc : c.Unrefused)
    (random : Nat → Int) (clock : Nat → Moment) (events : List (List Event)) {files : Files}
    {start : Int} {arguments : List String} {path : String} {m : Machine} {notices : List Notice}
    {s : Session W} (hargs : Options.parse arguments = .ok (.path path))
    (hload : (Machine.fresh start).loadFile files path c = .ok (m, notices))
    (hwindow : Session.start W m notices = .ok s) :
    let begun := s.begun c random clock (Session.script events)
    (∃ n r, s.play c random clock events = (begun (n + 1), r) ∧
      run W c files random start clock arguments events = ofSession path (begun (n + 1)) r) ∧
    (∀ n, W.size (begun n).display.window = (640, 320) ∧
      (∀ px < 640, ∀ py < 320, W.point? (begun n).display.window px py =
        some (if (begun n).machine.screen.pixels[py / 10 * 64 + px / 10]? = some true
          then Display.lightBlue else Display.blue).toShade) ∧
      ((begun n).display.cells = (List.range 32).map fun y ↦ (List.range 64).map fun x ↦
        (begun n).machine.screen.pixels[y * 64 + x]?) ∧
      ∀ x < 64, ∀ y < 32,
        ((begun n).display.cellIs Display.lightBlue.toShade x y = true ↔
          (begun n).machine.screen.pixels[y * 64 + x]? = some true) ∧
        ((begun n).display.cellIs Display.blue.toShade x y = true ↔
          (begun n).machine.screen.pixels[y * 64 + x]? = some false)) ∧
    (∀ m : Machine, (∀ e, (m.handle e c).machine.screen = m.screen) ∧
      ∀ t, (m.cycle random t c).answer ≠ .ok true →
        (m.cycle random t c).machine.screen = m.screen) ∧
    m.screen = (Machine.fresh start).screen := by
  intro begun
  have hm : m.screen = (Machine.fresh start).screen := Machine.screen_loadFile hload
  have hcurrent (n : Nat) : (begun n).Current :=
    (Session.current_start hW hm hwindow).begun hW hc random clock _ n
  refine ⟨?_, fun n ↦ ⟨(hcurrent n).size, (hcurrent n).point, (hcurrent n).cells, ?_⟩,
    fun m ↦ ⟨fun e ↦ ?_, fun t ↦ ?_⟩, hm⟩
  · obtain ⟨n, r, hplay⟩ :=
      Session.exists_play_eq_begun hc random clock (Session.rates_start hwindow) events
    refine ⟨n, r, hplay, ?_⟩
    simp only [run, hargs, hload, hwindow, hplay]
    rfl
  · exact fun x hx y hy ↦ (hcurrent n).cell hx hy
  · rw [Machine.handle_of_unrefused hc, m.handle_eq e]
  · rw [Machine.cycle_of_hears (hc.hears _)]
    exact Machine.screen_cycle

def digitZero : List Byte :=
  [0xA0, 0x50, 0xD0, 0x05]

theorem window_shows_screen_digit :
    let W := Headless.system (1024, 768) 16384
    let files : Files := fun _ ↦ .ok digitZero
    let m : Machine :=
      { Machine.fresh 0 with memory := (Machine.fresh 0).memory.splice 0x200 digitZero }
    let window : W.Window := ⟨640, 320, .filled 640 320 Display.blue.toShade⟩
    let s : Session W := ⟨m, ⟨Display.lightBlue, Display.blue, window⟩, [], [.romLoaded "x" 4], []⟩
    let begun := s.begun .off (fun _ ↦ 0) (fun _ ↦ .still 0) (Session.script [[], [.keyDown 120]])
    (W.Lawful ∧ Console.Unrefused .off ∧ Options.parse ["-f", "x"] = .ok (.path "x") ∧
      (Machine.fresh 0).loadFile files "x" .off = .ok (m, [.romLoaded "x" 4]) ∧
      Session.start W m [.romLoaded "x" 4] = .ok s) ∧
      (begun 2).display.cellIs Display.lightBlue.toShade 3 1 = true ∧
      (begun 2).display.cellIs Display.blue.toShade 2 1 = true ∧
      (begun 1).display.cellIs Display.blue.toShade 3 1 = true := by
  intro W files m window s begun
  have hW : W.Lawful := Headless.system_lawful (1024, 768) 16384
  have hc : Console.Unrefused .off := Console.unrefused_of_open fun _ ↦ rfl
  have hargs : Options.parse ["-f", "x"] = .ok (.path "x") := rfl
  have hload : (Machine.fresh 0).loadFile files "x" .off = .ok (m, [.romLoaded "x" 4]) := rfl
  have hwindow : Session.start W m [.romLoaded "x" 4] = .ok s := rfl
  obtain ⟨-, hshows, -⟩ := window_shows_screen hW hc (fun _ ↦ 0) (fun _ ↦ .still 0)
    [[], [.keyDown 120]] hargs hload hwindow
  refine ⟨⟨hW, hc, hargs, hload, hwindow⟩, ?_, ?_, ?_⟩
  · exact ((hshows 2).2.2.2 3 (by decide) 1 (by decide)).1.mpr (by decide +kernel)
  · exact ((hshows 2).2.2.2 2 (by decide) 1 (by decide)).2.mpr (by decide +kernel)
  · exact ((hshows 1).2.2.2 3 (by decide) 1 (by decide)).2.mpr (by decide +kernel)

end Playback

end ChipEight
