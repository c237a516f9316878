import ChipEight.Machine.Run
import ChipEight.Proofs.Cycle
import ChipEight.Proofs.Overlays

namespace ChipEight.Machine

def sprite (m : Machine) (x y n : Nibble) : Sprite where
  x := (m.register x).toNat
  y := (m.register y).toNat
  rows := ((List.range n).map fun i ↦ m.memory.byteAt (m.index + i)).map fun row ↦ (row.toNat : Int)

/-- What a cycle does that draws a sprite. It flips the pixels that the sprite covers, and the last
register tells whether one of them went dark. Of the rest of the machine nothing changes but `pc`
and the timers. -/
structure Draws (m : Machine) (now : Int) (d : Sprite) (o : Outcome Bool) : Prop where
  answer : o.answer = .ok true
  pixels : Screen.Flips d m.screen o.machine.screen
  flag : o.machine.register 0xF = 0 ∨ o.machine.register 0xF = 1
  hit : o.machine.register 0xF = 1 ↔
    ∃ c, Screen.Inside 64 32 c ∧ m.screen.lit c = true ∧ o.machine.screen.lit c = false
  others : ∀ z ≠ 0xF, o.machine.register z = m.register z
  rest : o.machine = { m with
    screen := o.machine.screen
    registers := o.machine.registers
    pc := (m.pc + 2) % 4096
    opAddress := m.pc
    redraw := true
    delay := m.delay.poll now
    sound := m.sound.poll now }

variable {random : Nat → Int} {t : Moment} {m : Machine} {x y h : Nibble} {d : Sprite}
  {o : Outcome Bool}

theorem executeDraw_of_le (hb : m.index.val + h.val ≤ 4096) {hit : Bool} {screen : Screen 64 32}
    (hs : m.screen.draw (m.sprite x y h).x (m.sprite x y h).y (m.sprite x y h).rows =
      .ok (hit, screen)) :
    m.executeDraw x y h =
      .ok { m.setRegister 0xF (if hit then 1 else 0) with screen, redraw := true } := by
  have hdraw := congrArg (Except.mapError fun e ↦ (⟨m, .screen e⟩ : Raise Fault)) hs
  rw [executeDraw, readAtIndex_of_le hb]
  exact congrArg (fun r ↦ r >>= fun p ↦
    .ok { m.setRegister 0xF (if p.1 then 1 else 0) with screen := p.2, redraw := true }) hdraw

theorem draws_of_begins (hd : m.Begins (.draw x y h)) (hb : m.index.val + h.val ≤ 4096)
    (random : Nat → Int) (t : Moment) :
    m.Draws t.poll (m.sprite x y h) (m.cycle random t) := by
  obtain ⟨hw, hp, hi⟩ := hd
  obtain ⟨hit, screen, hdraw, hhit, hflips⟩ :=
    m.screen.draw_flips (m.sprite x y h) (by decide) (by decide)
  rw [hflips.exists_lit_iff] at hhit
  have he : m.advanced.execute random t.execute m.upcoming = .ok
      ({ m.advanced.setRegister 0xF (if hit then 1 else 0) with screen, redraw := true }, []) := by
    rw [hi, execute, executeDraw_of_le (m := m.advanced) hb hdraw]
    rfl
  have hregister (z : Nibble) :
      (m.advanced.setRegister 0xF (if hit then 1 else 0)).register z =
        if 0xF = z then if hit then 1 else 0 else m.register z :=
    m.advanced.register_setRegister 0xF z _
  have hflag := (hregister 0xF).trans (if_pos rfl)
  have hone : (if hit then (1 : Byte) else 0) = 1 ↔ hit = true := by
    cases hit <;> decide
  rw [cycle_of_execute_ok hw hp he]
  refine ⟨finish_answer .., hflips, ?_, (Eq.congr_left hflag).trans (hone.trans hhit), ?_, rfl⟩
  · cases hit
    · exact .inl hflag
    · exact .inr hflag
  · intro z hz
    exact (hregister z).trans (if_neg (Ne.symm hz))

theorem Draws.memory (hd : m.Draws t.poll d o) : o.machine.memory = m.memory := by
  rw [hd.rest]

theorem Draws.index (hd : m.Draws t.poll d o) : o.machine.index = m.index := by
  rw [hd.rest]

/-- Drawing keeps what the instruction reads, unless the flag takes the place of a coordinate. -/
theorem Draws.sprite_eq (hd : m.Draws t.poll d o) (hx : x ≠ 0xF) (hy : y ≠ 0xF) :
    o.machine.sprite x y h = m.sprite x y h := by
  rw [sprite, sprite, hd.others x hx, hd.others y hy, hd.memory, hd.index]

/-- A sprite is drawn by exclusive or where the registers say before the cycle, and the flag tells
of a collision. Drawn by the same instruction a second time, it leaves the screen as it was. -/
theorem draw_exact (random : Nat → Int) (t : Moment) {m : Machine} {x y n : Nibble}
    (hd : m.Begins (.draw x y n)) (hb : m.index.val + n.val ≤ 4096) :
    let d := m.sprite x y n
    let o := m.cycle random t
    m.Draws t.poll d o ∧
    (x ≠ 0xF → y ≠ 0xF → o.machine.Begins (.draw x y n) → ∀ t',
      let p := o.machine.cycle random t'
      p.answer = .ok true ∧ p.machine.screen = m.screen ∧
        (p.machine.register 0xF = 0 ∨ p.machine.register 0xF = 1) ∧
        (p.machine.register 0xF = 1 ↔ ∃ c, d.Covers 64 32 c ∧ m.screen.lit c = false)) := by
  intro d o
  have hfirst : m.Draws t.poll d o := draws_of_begins hd hb random t
  refine ⟨hfirst, ?_⟩
  intro hx hy hagain t' p
  have hsecond : o.machine.Draws t'.poll d p := by
    change o.machine.Draws t'.poll (m.sprite x y n) p
    rw [← hfirst.sprite_eq hx hy]
    exact draws_of_begins hagain (by rw [hfirst.index]; exact hb) random t'
  refine ⟨hsecond.answer, hfirst.pixels.cancel (by decide) hsecond.pixels, hsecond.flag, ?_⟩
  rw [hsecond.hit, ← hsecond.pixels.exists_lit_iff, hfirst.pixels.exists_lit_iff_dark]

/-- A row of five lit pixels drawn twice at the right edge, where only two of them are visible. -/
theorem draw_exact_edge :
    let m := (fresh 0).run (fun _ ↦ 0)
      [.load [0x60, 0x3E, 0xA0, 0x50, 0xD0, 0x11, 0xD0, 0x11], .cycle (.still 0), .cycle (.still 0)]
    let o := m.cycle (fun _ ↦ 0) (.still 0)
    let p := o.machine.cycle (fun _ ↦ 0) (.still 0)
    m.Begins (.draw 0 1 1) ∧ m.index.val + 1 ≤ 4096 ∧ o.machine.Begins (.draw 0 1 1) ∧
      o.answer = .ok true ∧ o.machine.screen.lit (63, 0) = true ∧
      o.machine.screen.lit (0, 0) = false ∧ p.answer = .ok true ∧
      p.machine.screen = m.screen ∧ p.machine.register 0xF = 1 := by
  intro m o p
  obtain ⟨⟨hw, hp, hupcoming⟩, ⟨hw', hp', hupcoming'⟩, hindex, hcovers, hclips, hdark, hdark'⟩ :
      (m.waiting = false ∧ m.pc ≤ 4094 ∧ m.upcoming = .draw 0 1 1) ∧
        (o.machine.waiting = false ∧ o.machine.pc ≤ 4094 ∧ o.machine.upcoming = .draw 0 1 1) ∧
        m.index.val = 0x50 ∧ (m.sprite 0 1 1).Covers 64 32 (63, 0) ∧
        ¬ (m.sprite 0 1 1).Covers 64 32 (0, 0) ∧ m.screen.lit (63, 0) = false ∧
        m.screen.lit (0, 0) = false := by
    decide +kernel
  have hd : m.Begins (.draw 0 1 1) := ⟨hw, hp, hupcoming⟩
  have hagain : o.machine.Begins (.draw 0 1 1) := ⟨hw', hp', hupcoming'⟩
  have hb : m.index.val + (1 : Nibble).val ≤ 4096 := by
    rw [hindex]
    decide
  clear_value m
  obtain ⟨hfirst, hsecond⟩ := draw_exact (fun _ ↦ 0) (.still 0) hd hb
  obtain ⟨hanswer, hscreen, -, hhit⟩ :=
    hsecond (by decide) (by decide) hagain (.still 0)
  refine ⟨hd, hb, hagain, hfirst.answer, ?_, ?_, hanswer, hscreen,
    hhit.mpr ⟨(63, 0), hcovers, hdark⟩⟩
  · rw [hfirst.pixels.lit_of_covers hcovers, hdark]
    rfl
  · rw [hfirst.pixels (0, 0) (by decide), hdark', decide_eq_false hclips]
    rfl

end ChipEight.Machine
