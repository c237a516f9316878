import ChipEight.Screen

namespace ChipEight.Screen

variable {width height : Int}

def Inside (width height : Int) (c : Int × Int) : Prop :=
  0 ≤ c.1 ∧ c.1 < width ∧ 0 ≤ c.2 ∧ c.2 < height

theorem rowMajor_lt {x y : Int} (h : Inside width height (x, y)) :
    0 ≤ y * width + x ∧ y * width + x < width * height := by
  obtain ⟨hx, hw, hy, hh⟩ := h
  have hrow : 0 ≤ y * width := Int.mul_nonneg hy (by omega)
  have hlast : (y + 1) * width ≤ height * width :=
    Int.mul_le_mul_of_nonneg_right (by omega) (by omega)
  rw [Int.add_mul, Int.mul_comm height] at hlast
  omega

theorem place?_of_inside {x y : Int} (h : Inside width height (x, y)) :
    ∃ i, place? width height x y = some i ∧ (i.val : Int) = y * width + x := by
  obtain ⟨h₀, h₁⟩ := rowMajor_lt h
  have hfit : 0 ≤ y * width + x ∧ (y * width + x).toNat < (width * height).toNat := by omega
  simp only [place?, if_neg (Int.not_lt.mpr h₀), dif_pos hfit]
  exact ⟨_, rfl, Int.toNat_of_nonneg h₀⟩

theorem toggle_of_inside (s : Screen width height) {x y : Int} (h : Inside width height (x, y)) :
    ∃ r, s.toggle x y = .ok r := by
  obtain ⟨i, hi, -⟩ := place?_of_inside h
  exact ⟨_, by rw [toggle, hi]⟩

theorem toggleAll_of_inside (s : Screen width height) (hit : Bool) (cs : List (Int × Int))
    (h : ∀ c ∈ cs, Inside width height c) : ∃ r, s.toggleAll hit cs = .ok r := by
  induction cs generalizing s hit with
  | nil => exact ⟨_, rfl⟩
  | cons c cs ih =>
    obtain ⟨⟨lit, s'⟩, ht⟩ := s.toggle_of_inside (h c (List.mem_cons_self ..))
    obtain ⟨r, hr⟩ := ih s' (hit || lit) fun d hd ↦ h d (List.mem_cons_of_mem _ hd)
    refine ⟨r, ?_⟩
    rw [toggleAll, ht]
    exact hr

theorem mem_rowCells {x y row : Int} {c : Int × Int} (h : c ∈ rowCells width x y row) :
    x ≤ c.1 ∧ c.1 < width ∧ c.2 = y := by
  obtain ⟨i, -, hi⟩ := List.mem_filterMap.mp h
  split at hi
  · cases hi
    simp only [and_true]
    omega
  · cases hi

theorem cells_inside {x y : Int} (rows : List Int) (hx : 0 ≤ x) (hy : 0 ≤ y) :
    ∀ c ∈ cells width height x y rows, Inside width height c := by
  induction rows generalizing y with
  | nil => exact fun c hc ↦ by cases hc
  | cons row rows ih =>
    intro c hc
    rw [cells] at hc
    split at hc
    · rcases List.mem_append.mp hc with hc | hc
      · have hrow := mem_rowCells hc
        simp only [Inside]
        omega
      · exact ih (by omega) c hc
    · cases hc

/-- On a grid that has cells every sprite can be drawn, whatever its corner and its rows. -/
theorem draw_of_pos (s : Screen width height) (x y : Int) (rows : List Int)
    (hw : 0 < width) (hh : 0 < height) : ∃ r, s.draw x y rows = .ok r := by
  rw [draw, if_neg (by omega)]
  apply toggleAll_of_inside
  exact cells_inside rows (Int.fmod_nonneg_of_pos _ hw) (Int.fmod_nonneg_of_pos _ hh)

end ChipEight.Screen
