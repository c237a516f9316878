import ChipEight.Frontend.Display

namespace ChipEight

namespace Layout

variable {l : Layout} {columns px py : Nat}

def cellAt (l : Layout) (px py : Nat) : Nat :=
  py / l.side * l.columns.toNat + px / l.side

theorem scale_eq_side (hs : 0 < l.scale) : l.scale = l.side :=
  (Int.toNat_of_nonneg (Int.le_of_lt hs)).symm

theorem side_pos (hs : 0 < l.scale) : 0 < l.side :=
  Int.pos_iff_toNat_pos.mp hs

theorem eq_cellAt_iff (hc : l.columns = columns) (hx : px / l.side < columns) (i : Nat) :
    i = l.cellAt px py ↔ px / l.side = i % columns ∧ py / l.side = i / columns := by
  rw [cellAt, hc, Int.toNat_natCast]
  constructor
  · rintro rfl
    rw [Nat.add_comm, Nat.add_mul_mod_self_right, Nat.mod_eq_of_lt hx,
      Nat.add_mul_div_right _ _ (Nat.zero_lt_of_lt hx), Nat.div_eq_of_lt hx, Nat.zero_add]
    exact ⟨rfl, rfl⟩
  · rintro ⟨hpx, hpy⟩
    rw [hpx, hpy]
    exact (Nat.div_add_mod' i columns).symm

end Layout

namespace Display

variable {W : WindowSystem} {l : Layout} {columns : Nat} (d : Display W l) {window : W.Window}
  {px py : Nat}

theorem size_paintFrom (hW : W.Lawful) (window : W.Window) (i : Nat) (pixels : List Int) :
    W.size (d.paintFrom window i pixels) = W.size window := by
  induction pixels generalizing window i with
  | nil => rfl
  | cons p pixels ih =>
    rw [paintFrom, ih]
    split
    · rfl
    · exact hW.size_rect ..

theorem size_render (hW : W.Lawful) (pixels : List Int) :
    W.size (d.render pixels).window = W.size d.window :=
  (size_paintFrom d hW ..).trans (hW.size_fill ..)

theorem point?_paintCell (hW : W.Lawful) (hs : 0 < l.scale) (x y : Nat)
    (hx : px < (W.size window).1) (hy : py < (W.size window).2) :
    W.point? (d.paintCell window x y) px py =
      if px / l.side = x ∧ py / l.side = y then some d.foreground.toShade
      else W.point? window px py := by
  have hside : 0 < l.side := Layout.side_pos hs
  have hcell (p q : Nat) : p / l.side = q ↔ q * l.side ≤ p ∧ p < q * l.side + l.side := by
    rw [Nat.div_eq_iff hside]
    omega
  rw [paintCell, Layout.scale_eq_side hs, hW.point?_rect _ _ _ _ (Int.natCast_nonneg _)
    (Int.natCast_nonneg _) hx hy]
  simp only [hcell, ← Int.natCast_mul, ← Int.natCast_add, Int.ofNat_le, Int.ofNat_lt, and_assoc]

theorem point?_paintPixel (hW : W.Lawful) (hc : l.columns = columns) (hs : 0 < l.scale)
    (hcolumn : px / l.side < columns) (hx : px < (W.size window).1)
    (hy : py < (W.size window).2) (i : Nat) (p : Int) :
    W.point? (if p = 0 then window
        else d.paintCell window (Int.fmod i l.columns) (Int.fdiv i l.columns)) px py =
      if i = l.cellAt px py ∧ p ≠ 0 then some d.foreground.toShade
      else W.point? window px py := by
  by_cases hp : p = 0
  · rw [if_pos hp, if_neg fun h ↦ h.2 hp]
  · have hmod : Int.fmod i columns = (i % columns : Nat) :=
      Int.fmod_eq_emod_of_nonneg _ (Int.natCast_nonneg _)
    have hdiv : Int.fdiv i columns = (i / columns : Nat) :=
      Int.fdiv_eq_ediv_of_nonneg _ (Int.natCast_nonneg _)
    rw [if_neg hp, hc, hmod, hdiv, point?_paintCell d hW hs _ _ hx hy]
    simp only [Layout.eq_cellAt_iff hc hcolumn, hp, not_false_eq_true, and_true, ne_eq]

/-- What is painted at a point is the pixel whose number is the one of its cell. -/
theorem point?_paintFrom (hW : W.Lawful) (hc : l.columns = columns) (hs : 0 < l.scale)
    (hcolumn : px / l.side < columns) (hx : px < (W.size window).1)
    (hy : py < (W.size window).2) (i : Nat) (pixels : List Int) :
    W.point? (d.paintFrom window i pixels) px py =
      if i ≤ l.cellAt px py ∧ pixels.getD (l.cellAt px py - i) 0 ≠ 0 then
        some d.foreground.toShade
      else W.point? window px py := by
  induction pixels generalizing window i with
  | nil => simp [paintFrom]
  | cons p pixels ih =>
    have hsize : W.size (if p = 0 then window
        else d.paintCell window (Int.fmod i l.columns) (Int.fdiv i l.columns)) =
        W.size window := size_paintFrom d hW window i [p]
    rw [paintFrom, ih (hsize ▸ hx) (hsize ▸ hy),
      point?_paintPixel d hW hc hs hcolumn hx hy]
    generalize l.cellAt px py = k
    -- The pixel at hand is before, at or behind the one of the point's cell.
    rcases Nat.lt_trichotomy i k with hlt | rfl | hgt
    · obtain ⟨j, rfl⟩ := Nat.exists_eq_add_of_lt hlt
      have hnow : i ≠ i + j + 1 := by omega
      have hleft : i + 1 ≤ i + j + 1 ∧ i ≤ i + j + 1 := by omega
      rw [show i + j + 1 - i = j + 1 by omega, List.getD_cons_succ,
        show i + j + 1 - (i + 1) = j by omega]
      simp only [hnow, hleft, false_and, if_false]
    · have hnext : ¬ i + 1 ≤ i := by omega
      rw [Nat.sub_self, List.getD_cons_zero]
      simp only [hnext, Nat.le_refl, false_and, if_false, true_and]
    · rw [if_neg (by omega), if_neg (by omega), if_neg (by omega)]

/-- A picture shows the pixel of each point's cell, and nothing of what was there before. -/
theorem point?_render (hW : W.Lawful) (hc : l.columns = columns) (hs : 0 < l.scale)
    (hcolumn : px / l.side < columns) (hx : px < (W.size d.window).1)
    (hy : py < (W.size d.window).2) (pixels : List Int) :
    W.point? (d.render pixels).window px py =
      some (if pixels.getD (l.cellAt px py) 0 ≠ 0 then d.foreground else d.background).toShade := by
  have hsize : W.size (W.fill d.window d.background) = W.size d.window := hW.size_fill ..
  rw [render, point?_paintFrom d hW hc hs hcolumn (hsize ▸ hx) (hsize ▸ hy),
    hW.point?_fill _ _ hx hy]
  simp only [Nat.zero_le, Nat.sub_zero, true_and]
  split <;> rfl

theorem cellIs_iff (hs : 0 < l.scale) {x y : Nat} {shade : Shade}
    (h : ∀ px py, px / l.side = x → py / l.side = y → W.point? d.window px py = some shade)
    (c : Shade) : d.cellIs c x y = true ↔ shade = c := by
  have hside : 0 < l.side := Layout.side_pos hs
  have hdiv (x : Nat) {dx : Nat} (hdx : dx < l.side) : (x * l.side + dx) / l.side = x := by
    rw [Nat.mul_comm, Nat.mul_add_div hside, Nat.div_eq_of_lt hdx, Nat.add_zero]
  have hpoint : ∀ dy < l.side, ∀ dx < l.side,
      W.point? d.window (x * l.side + dx) (y * l.side + dy) = some shade :=
    fun dy hdy dx hdx ↦ h _ _ (hdiv x hdx) (hdiv y hdy)
  simp only [cellIs, List.all_eq_true, List.mem_range, beq_iff_eq]
  constructor
  · intro hall
    have hcorner := hall 0 hside 0 hside
    rw [hpoint 0 hside 0 hside] at hcorner
    exact Option.some.inj hcorner
  · rintro rfl
    exact hpoint

end Display

end ChipEight
