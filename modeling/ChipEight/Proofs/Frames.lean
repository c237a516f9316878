import ChipEight.Frontend.Headless
import ChipEight.Proofs.Limits
import ChipEight.Proofs.Rendering
import Mathlib.Data.List.Induction

namespace ChipEight

namespace Display

section

variable {W : WindowSystem} {l : Layout} (d : Display W l)

def renderAll (frames : List (List Int)) : Except Fault (Display W l) :=
  frames.foldlM render? d

structure SameForm (d e : Display W l) : Prop where
  foreground : e.foreground = d.foreground
  background : e.background = d.background
  size : W.size e.window = W.size d.window

structure Alike (d e : Display W l) : Prop extends SameForm d e where
  point : ∀ px < (W.size d.window).1, ∀ py < (W.size d.window).2,
    W.point? d.window px py = W.point? e.window px py

variable {d}

theorem SameForm.render (hW : W.Lawful) {e : Display W l} (h : d.SameForm e) (pixels : List Int) :
    d.SameForm (e.render pixels) :=
  ⟨h.foreground, h.background, (e.size_render hW pixels).trans h.size⟩

theorem render?_of_columns (hc : l.columns ≠ 0) (pixels : List Int) :
    d.render? pixels = .ok (d.render pixels) :=
  if_neg fun h ↦ hc h.1

theorem exists_renderAll (hW : W.Lawful) (hc : l.columns ≠ 0) (frames : List (List Int)) :
    ∃ e, d.renderAll frames = .ok e ∧ d.SameForm e := by
  induction frames using List.reverseRecOn with
  | nil => exact ⟨d, rfl, rfl, rfl, rfl⟩
  | append_singleton frames frame ih =>
    obtain ⟨e, he, hform⟩ := ih
    refine ⟨e.render frame, ?_, hform.render hW frame⟩
    rw [renderAll, List.foldlM_append, ← renderAll, he]
    exact congrArg (· >>= pure) (render?_of_columns hc frame)

end

section

variable {W : WindowSystem} {w h s : Nat} {d : Display W ⟨w, h, s⟩} {px py : Nat}

theorem create_eq (hW : W.Lawful) (hw : 1 ≤ w) (hh : 1 ≤ h) (hs : 1 ≤ s) (hws : w * s < 0x80000000)
    (hhs : h * s < 0x80000000) {f b : Color} (hd : create W ⟨w, h, s⟩ f b = .ok d) :
    W.size d.window = (w * s, h * s) ∧ d.foreground = f ∧ d.background = b ∧
      ∀ px < w * s, ∀ py < h * s, W.point? d.window px py = some b.toShade := by
  obtain ⟨window, ho, hd⟩ := exists_of_bind hd
  cases hd
  rw [← Int.natCast_mul, ← Int.natCast_mul] at ho
  have hsize := hW.size_open (Nat.mul_pos hw hs) (Nat.mul_pos hh hs) hws hhs ho
  refine ⟨(hW.size_fill ..).trans hsize, rfl, rfl, fun px hx py hy ↦ ?_⟩
  exact hW.point?_fill _ _ (by rwa [hsize]) (by rwa [hsize])

theorem point?_render_cell (hW : W.Lawful) (hd : W.size d.window = (w * s, h * s))
    (hx : px < w * s) (hy : py < h * s) (pixels : List Int) :
    W.point? (d.render pixels).window px py =
      some (if pixels.getD (py / s * w + px / s) 0 ≠ 0 then d.foreground
        else d.background).toShade := by
  have hs : 0 < s := Nat.pos_of_ne_zero fun h₀ ↦ by simp [h₀] at hx
  have hside : (⟨w, h, s⟩ : Layout).side = s := Int.toNat_natCast s
  have hcell : (⟨w, h, s⟩ : Layout).cellAt px py = py / s * w + px / s := by
    simp only [Layout.cellAt, hside, Int.toNat_natCast]
  have hcolumn : px / (⟨w, h, s⟩ : Layout).side < w := by
    rw [hside]
    exact Nat.div_lt_of_lt_mul (by rwa [Nat.mul_comm])
  rw [point?_render d hW rfl (Int.natCast_pos.mpr hs) hcolumn (by rwa [hd]) (by rwa [hd]), hcell]

/-- A picture is known by the pixels that have cells. -/
theorem render_congr (hW : W.Lawful) (hd : W.size d.window = (w * s, h * s))
    {e : Display W ⟨w, h, s⟩} (hform : d.SameForm e) {pixels more : List Int}
    (hp : ∀ i < w * h, pixels.getD i 0 = more.getD i 0) :
    (e.render pixels).Alike (d.render more) := by
  have hsize : W.size (e.render pixels).window = (w * s, h * s) :=
    (hform.render hW pixels).size.trans hd
  refine ⟨⟨hform.foreground.symm, hform.background.symm, ?_⟩, ?_⟩
  · exact (d.size_render hW more).trans (hd.trans hsize.symm)
  · rw [hsize]
    intro px hx py hy
    have hcolumn : px / s < w := Nat.div_lt_of_lt_mul (by rwa [Nat.mul_comm])
    have hrow : py / s < h := Nat.div_lt_of_lt_mul (by rwa [Nat.mul_comm])
    rw [point?_render_cell hW (hform.size.trans hd) hx hy, point?_render_cell hW hd hx hy,
      hp _ ((Surface.place_lt hcolumn).mpr hrow), hform.foreground, hform.background]

theorem getD_take_of_lt {pixels : List Int} {i n : Nat} (hi : i < n) :
    (pixels.take n).getD i 0 = pixels.getD i 0 := by
  rw [List.getD_eq_getElem?_getD, List.getElem?_take_of_lt hi, ← List.getD_eq_getElem?_getD]

theorem getD_append_dark (pixels : List Int) (n i : Nat) :
    (pixels ++ List.replicate n 0).getD i 0 = pixels.getD i 0 := by
  rw [List.getD_eq_getElem?_getD, List.getD_eq_getElem?_getD, List.getElem?_append]
  split
  · rfl
  · rename_i hlen
    rw [List.getElem?_eq_none (Nat.not_lt.mp hlen), List.getElem?_replicate]
    split <;> rfl

theorem getD_ne_zero_iff {pixels : List Int} {i : Nat} :
    pixels.getD i 0 ≠ 0 ↔ ∃ v, pixels[i]? = some v ∧ v ≠ 0 := by
  rw [List.getD_eq_getElem?_getD]
  cases pixels[i]? <;> simp

/-- Each picture shows its own pixels, each on all points of its cell. What there is no pixel for
is background, and what there is no cell for is not shown. The points of a window have no alpha, so
colors that differ in nothing else look alike. -/
theorem frames_show_pixels (hW : W.Lawful) (hw : 1 ≤ w) (hh : 1 ≤ h) (hs : 1 ≤ s)
    (hd : W.size d.window = (w * s, h * s)) (frames : List (List Int)) (pixels : List Int) :
    let lit (px py : Nat) : Prop := ∃ v, pixels[py / s * w + px / s]? = some v ∧ v ≠ 0
    (w * s < 0x80000000 → h * s < 0x80000000 →
      ∀ f b (e : Display W ⟨w, h, s⟩), create W ⟨w, h, s⟩ f b = .ok e →
        W.size e.window = (w * s, h * s) ∧ e.foreground = f ∧ e.background = b ∧
          ∀ px < w * s, ∀ py < h * s, W.point? e.window px py = some b.toShade) ∧
    ∃ p, d.renderAll (frames ++ [pixels]) = .ok p ∧
      W.size p.window = (w * s, h * s) ∧
      (∀ px < w * s, ∀ py < h * s,
        (lit px py → W.point? p.window px py = some d.foreground.toShade) ∧
        (¬ lit px py → W.point? p.window px py = some d.background.toShade) ∧
        (d.foreground.toShade ≠ d.background.toShade →
          (W.point? p.window px py = some d.foreground.toShade ↔ lit px py))) ∧
      (∀ px < w * s, ∀ py < h * s, ∀ qx < w * s, ∀ qy < h * s,
        px / s = qx / s → py / s = qy / s → W.point? p.window px py = W.point? p.window qx qy) ∧
      p.Alike (d.render pixels) ∧ p.Alike (d.render (pixels.take (w * h))) ∧
      ∀ n, p.Alike (d.render (pixels ++ List.replicate n 0)) := by
  intro lit
  have hcolumns : (⟨w, h, s⟩ : Layout).columns ≠ 0 := by
    simp only [ne_eq, Int.natCast_eq_zero]
    omega
  obtain ⟨e, he, hform⟩ := exists_renderAll hW hcolumns frames
  have hpoint {px py : Nat} (hx : px < w * s) (hy : py < h * s) :=
    point?_render_cell hW (hform.size.trans hd) hx hy pixels
  rw [hform.foreground, hform.background] at hpoint
  refine ⟨fun hws hhs f b e ↦ create_eq hW hw hh hs hws hhs, e.render pixels, ?_,
    (hform.render hW pixels).size.trans hd, ?_, ?_, ?_, ?_, ?_⟩
  · rw [renderAll, List.foldlM_append, ← renderAll, he]
    exact congrArg (· >>= pure) (render?_of_columns hcolumns pixels)
  · intro px hx py hy
    rw [hpoint hx hy]
    by_cases hl : lit px py
    · rw [if_pos (getD_ne_zero_iff.mpr hl)]
      exact ⟨fun _ ↦ rfl, absurd hl, fun _ ↦ iff_of_true rfl hl⟩
    · rw [if_neg (mt getD_ne_zero_iff.mp hl)]
      refine ⟨fun h ↦ absurd h hl, fun _ ↦ rfl, fun hne ↦ iff_of_false ?_ hl⟩
      exact fun h ↦ hne (Option.some.inj h).symm
  · intro px hx py hy qx hx' qy hy' hcolumn hrow
    rw [hpoint hx hy, hpoint hx' hy', hcolumn, hrow]
  · exact render_congr hW hd hform fun _ _ ↦ rfl
  · exact render_congr hW hd hform fun _ hi ↦ (getD_take_of_lt hi).symm
  · exact fun n ↦ render_congr hW hd hform fun i _ ↦ (getD_append_dark pixels n i).symm

end

/-- Of two cells the right one is lit now. The left one was lit before, and a third is not there. -/
theorem frames_show_pixels_short_row :
    let W := Headless.system (1024, 768) 16384
    let d : Display W ⟨(2 : Nat), (1 : Nat), (3 : Nat)⟩ :=
      ⟨lightBlue, blue, ⟨6, 3, .filled 6 3 blue.toShade⟩⟩
    (W.Lawful ∧ 1 ≤ 2 ∧ 1 ≤ 1 ∧ 1 ≤ 3 ∧ W.size d.window = (6, 3)) ∧
      ∃ p, d.renderAll [[1], [0, 7, 5]] = .ok p ∧
        W.point? p.window 2 2 = some blue.toShade ∧
        W.point? p.window 3 2 = some lightBlue.toShade ∧ p.Alike (d.render [0, 7]) := by
  intro W d
  have hW : W.Lawful := Headless.system_lawful (1024, 768) 16384
  have hsizes : 1 ≤ 2 ∧ 1 ≤ 1 ∧ 1 ≤ 3 := by decide
  obtain ⟨-, p, hall, -, hpoints, -, -, htake, -⟩ :=
    frames_show_pixels hW hsizes.1 hsizes.2.1 hsizes.2.2 (d := d) rfl [[1]] [0, 7, 5]
  refine ⟨⟨hW, hsizes.1, hsizes.2.1, hsizes.2.2, rfl⟩, p, hall, ?_, ?_, htake⟩
  · exact (hpoints 2 (by decide) 2 (by decide)).2.1 (by simp)
  · exact (hpoints 3 (by decide) 2 (by decide)).1 ⟨7, rfl, by decide⟩

end Display

end ChipEight
