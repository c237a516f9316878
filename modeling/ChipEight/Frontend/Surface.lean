import ChipEight.Frontend.Color

namespace ChipEight

/-- A rectangle of points, row after row. The points of a window have no alpha. -/
structure Surface (width height : Nat) where
  points : Vector Shade (width * height)

namespace Surface

variable {width height : Nat}

def filled (width height : Nat) (c : Shade) : Surface width height :=
  ⟨Vector.replicate _ c⟩

def point? (s : Surface width height) (x y : Nat) : Option Shade :=
  if x < width then s.points[y * width + x]? else none

def plot (s : Surface width height) (c : Shade) (x y : Nat) : Surface width height :=
  if x < width then ⟨s.points.setIfInBounds (y * width + x) c⟩ else s

def paintRow (s : Surface width height) (c : Shade) (x y : Nat) : Nat → Surface width height
  | 0 => s
  | w + 1 => (s.plot c x y).paintRow c (x + 1) y w

def paint (s : Surface width height) (c : Shade) (x y w : Nat) : Nat → Surface width height
  | 0 => s
  | h + 1 => (s.paintRow c x y w).paint c x (y + 1) w h

theorem place_inj {x y px py : Nat} (hx : x < width) (hpx : px < width) :
    y * width + x = py * width + px ↔ px = x ∧ py = y := by
  constructor
  · intro h
    have hd := congrArg (· / width) h
    have hm := congrArg (· % width) h
    simp only [Nat.add_comm (_ * width), Nat.add_mul_mod_self_right, Nat.mod_eq_of_lt hx,
      Nat.mod_eq_of_lt hpx] at hm
    simp only [Nat.add_comm (_ * width), Nat.add_mul_div_right _ _ (Nat.zero_lt_of_lt hx),
      Nat.div_eq_of_lt hx, Nat.div_eq_of_lt hpx] at hd
    omega
  · rintro ⟨rfl, rfl⟩
    rfl

theorem place_lt {x y : Nat} (hx : x < width) : y * width + x < width * height ↔ y < height := by
  constructor
  · intro h
    refine Nat.lt_of_not_le fun hy ↦ ?_
    have := Nat.mul_le_mul_right width hy
    rw [Nat.mul_comm width] at h
    omega
  · intro h
    have := Nat.mul_le_mul_right width (Nat.succ_le_of_lt h)
    rw [Nat.succ_mul] at this
    rw [Nat.mul_comm width]
    omega

theorem point?_filled (c : Shade) (x y : Nat) :
    (filled width height c).point? x y = if x < width ∧ y < height then some c else none := by
  by_cases hx : x < width
  · simp [point?, filled, Vector.getElem?_replicate, hx, place_lt hx]
  · simp [point?, hx]

theorem point?_plot (s : Surface width height) (c : Shade) (x y px py : Nat) :
    (s.plot c x y).point? px py =
      if px = x ∧ py = y ∧ x < width ∧ y < height then some c else s.point? px py := by
  by_cases hx : x < width
  · by_cases hpx : px < width
    · simp only [point?, plot, hx, hpx, if_true, Vector.getElem?_setIfInBounds, place_inj hx hpx,
        place_lt hx, true_and]
      by_cases h : px = x ∧ py = y
      · obtain ⟨rfl, rfl⟩ := h
        by_cases hy : py < height
        · simp [hy]
        · simp [hy, mt (place_lt hx).mp hy]
      · rw [if_neg h, if_neg fun hc ↦ h ⟨hc.1, hc.2.1⟩]
    · simp only [point?, hpx, if_false]
      grind
  · simp only [plot, hx, if_false]
    grind

theorem point?_paintRow (s : Surface width height) (c : Shade) (x y w px py : Nat) :
    (s.paintRow c x y w).point? px py =
      if x ≤ px ∧ px < x + w ∧ py = y ∧ px < width ∧ y < height then some c
      else s.point? px py := by
  induction w generalizing s x with
  | zero => grind [paintRow]
  | succ w ih => grind [paintRow, point?_plot]

theorem point?_paint (s : Surface width height) (c : Shade) (x y w h px py : Nat) :
    (s.paint c x y w h).point? px py =
      if x ≤ px ∧ px < x + w ∧ y ≤ py ∧ py < y + h ∧ px < width ∧ py < height then some c
      else s.point? px py := by
  induction h generalizing s y with
  | zero => grind [paint]
  | succ h ih => grind [paint, point?_paintRow]

end Surface

end ChipEight
