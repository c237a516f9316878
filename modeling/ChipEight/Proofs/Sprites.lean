import ChipEight.Proofs.Drawing
import Mathlib.Data.Int.Bitwise
import Mathlib.Data.List.Nodup

namespace ChipEight.Screen

variable {width height : Int}

def lit (s : Screen width height) (c : Int × Int) : Bool :=
  s.pixels[(c.2 * width + c.1).toNat]?.getD false

/-- A sprite with its corner at `(x, y)` has a bit set at a cell, wherever the edges of the screen
are. Each of its rows has eight bits, the highest one to the left. -/
def Covers (x y : Int) (rows : List Int) (c : Int × Int) : Prop :=
  (0 ≤ c.1 - x ∧ c.1 - x < 8) ∧ (0 ≤ c.2 - y ∧ c.2 - y < rows.length) ∧
    (rows.getD (c.2 - y).toNat 0).testBit (7 - (c.1 - x).toNat) = true

instance (x y : Int) (rows : List Int) (c : Int × Int) : Decidable (Covers x y rows c) :=
  inferInstanceAs (Decidable (_ ∧ _))

variable {s : Screen width height} {x y row : Int} {rows : List Int} {c d : Int × Int}

theorem eq_of_rowMajor_eq (hc : Inside width height c) (hd : Inside width height d)
    (h : c.2 * width + c.1 = d.2 * width + d.1) : c = d := by
  have hcolumn := congrArg (· % width) h
  simp only [Int.add_comm (_ * width), Int.add_mul_emod_self_right,
    Int.emod_eq_of_lt hc.1 hc.2.1, Int.emod_eq_of_lt hd.1 hd.2.1] at hcolumn
  have hrow : c.2 * width = d.2 * width := by omega
  have hwidth : width ≠ 0 := by
    have := hc.1
    have := hc.2.1
    omega
  exact Prod.ext hcolumn (Int.eq_of_mul_eq_mul_right hwidth hrow)

/-- Toggling a cell tells its pixel, flips it and changes no other one. -/
theorem toggle_flips (s : Screen width height) (hc : Inside width height c) :
    ∃ s', s.toggle c.1 c.2 = .ok (s.lit c, s') ∧
      ∀ d, Inside width height d → s'.lit d = (s.lit d ^^ decide (d = c)) := by
  obtain ⟨i, hplace, hi⟩ := place?_of_inside hc
  have hnat : (c.2 * width + c.1).toNat = i.val := by omega
  have hlit : s.lit c = s.pixels[i] := by
    rw [lit, hnat, Vector.getElem?_eq_getElem i.isLt]
    rfl
  refine ⟨⟨s.pixels.set i (!s.pixels[i])⟩, ?_, ?_⟩
  · simp only [toggle, hplace, hlit]
  · intro d hd
    have hrow := rowMajor_lt hd
    by_cases hdc : d = c
    · subst hdc
      rw [hlit, lit, hnat, Vector.getElem?_set_self i.isLt, decide_eq_true rfl, Bool.xor_true]
      rfl
    · have hne : i.val ≠ (d.2 * width + d.1).toNat := by
        intro h
        refine hdc (eq_of_rowMajor_eq hd hc ?_)
        omega
      rw [lit, Vector.getElem?_set_ne i.isLt hne, decide_eq_false hdc, Bool.xor_false]
      rfl

/-- Toggling different cells flips these, and hits if one of them was lit. -/
theorem toggleAll_flips (s : Screen width height) (hit : Bool) {cs : List (Int × Int)}
    (hin : ∀ c ∈ cs, Inside width height c) (hcs : cs.Nodup) :
    ∃ s', s.toggleAll hit cs = .ok (hit || cs.any s.lit, s') ∧
      ∀ d, Inside width height d → s'.lit d = (s.lit d ^^ decide (d ∈ cs)) := by
  induction cs generalizing s hit with
  | nil => exact ⟨s, by simp [toggleAll], by simp⟩
  | cons c cs ih =>
    obtain ⟨hc, hcs⟩ := List.nodup_cons.mp hcs
    obtain ⟨hfirst, hrest⟩ := List.forall_mem_cons.mp hin
    obtain ⟨s₁, htoggle, hflip⟩ := s.toggle_flips hfirst
    obtain ⟨s₂, hall, hflips⟩ := ih s₁ (hit || s.lit c) hrest hcs
    -- The first cell does not come again, so the others are still as they were.
    have hany : cs.any s₁.lit = cs.any s.lit := by
      rw [Bool.eq_iff_iff, List.any_eq_true, List.any_eq_true]
      refine exists_congr fun d ↦ and_congr_right fun hd ↦ ?_
      have hne : d ≠ c := fun h ↦ hc (h ▸ hd)
      rw [hflip d (hrest d hd), decide_eq_false hne, Bool.xor_false]
    refine ⟨s₂, ?_, ?_⟩
    · rw [toggleAll, htoggle]
      simp only [bind, Except.bind]
      rw [hall, hany, List.any_cons, Bool.or_assoc]
    · intro d hd
      rw [hflips d hd, hflip d hd]
      by_cases hdc : d = c
      · subst hdc
        simp [hc]
      · simp [hdc]

theorem rowBit_eq_testBit (row : Int) (i : Nat) : rowBit row i = row.testBit (7 - i) := by
  cases row with
  | ofNat n =>
    change decide (((n >>> (7 - i) : Nat) : Int) % 2 = 1) = n.testBit (7 - i)
    rw [Nat.testBit_eq_decide_div_mod_eq, Nat.shiftRight_eq_div_pow]
    exact decide_eq_decide.mpr (by omega)
  | negSucc n =>
    change decide (Int.negSucc (n >>> (7 - i)) % 2 = 1) = !n.testBit (7 - i)
    rw [Nat.testBit_eq_decide_div_mod_eq, Nat.shiftRight_eq_div_pow, ← decide_not]
    exact decide_eq_decide.mpr (by omega)

theorem mem_rowCells_iff :
    c ∈ rowCells width x y row ↔
      (0 ≤ c.1 - x ∧ c.1 - x < 8) ∧ c.1 < width ∧ c.2 = y ∧
        row.testBit (7 - (c.1 - x).toNat) = true := by
  simp only [rowCells, List.mem_filterMap, List.mem_range, rowBit_eq_testBit]
  constructor
  · rintro ⟨i, hi, h⟩
    split at h
    · next hbit =>
      cases h
      refine ⟨by omega, hbit.1, rfl, ?_⟩
      rw [show (x + i - x).toNat = i by omega]
      exact hbit.2
    · cases h
  · rintro ⟨hspan, hwidth, rfl, hbit⟩
    have hx : x + ((c.1 - x).toNat : Int) = c.1 := by omega
    refine ⟨(c.1 - x).toNat, by omega, ?_⟩
    rw [hx, if_pos ⟨hwidth, hbit⟩]

theorem covers_cons :
    Covers x y (row :: rows) c ↔
      ((0 ≤ c.1 - x ∧ c.1 - x < 8) ∧ c.2 = y ∧ row.testBit (7 - (c.1 - x).toNat) = true) ∨
        Covers x (y + 1) rows c := by
  rcases Int.lt_trichotomy c.2 y with hlt | heq | hgt
  · have hrow : c.2 ≠ y := by omega
    have hspan : ¬ 0 ≤ c.2 - y := by omega
    have hspan' : ¬ 0 ≤ c.2 - (y + 1) := by omega
    simp only [Covers, hrow, hspan, hspan', false_and, and_false, or_self]
  · have hspan : 0 ≤ c.2 - y ∧ c.2 - y < (row :: rows).length := by
      rw [List.length_cons]
      omega
    have hspan' : ¬ 0 ≤ c.2 - (y + 1) := by omega
    have hfirst : (c.2 - y).toNat = 0 := by omega
    simp only [Covers, hspan, hspan', hfirst, List.getD_cons_zero, true_and, false_and, and_false,
      or_false, and_iff_right heq]
  · have hrow : c.2 ≠ y := by omega
    have hspan : (0 ≤ c.2 - y ∧ c.2 - y < (row :: rows).length) ↔
        (0 ≤ c.2 - (y + 1) ∧ c.2 - (y + 1) < rows.length) := by
      rw [List.length_cons]
      omega
    have hnext : (c.2 - y).toNat = (c.2 - (y + 1)).toNat + 1 := by omega
    simp only [Covers, hrow, hspan, hnext, List.getD_cons_succ, false_and, and_false, false_or]

/-- A sprite lights the cells that it covers, as far as they are on the screen. -/
theorem mem_cells_iff :
    c ∈ cells width height x y rows ↔ Covers x y rows c ∧ c.1 < width ∧ c.2 < height := by
  induction rows generalizing y with
  | nil => simp [cells, Covers]
  | cons row rows ih =>
    by_cases hy : y < height
    · rw [cells, if_pos hy, List.mem_append, mem_rowCells_iff, ih, covers_cons]
      constructor
      · rintro (⟨hspan, hwidth, hrow, hbit⟩ | ⟨hcovers, hedge⟩)
        · exact ⟨.inl ⟨hspan, hrow, hbit⟩, hwidth, by omega⟩
        · exact ⟨.inr hcovers, hedge⟩
      · rintro ⟨⟨hspan, hrow, hbit⟩ | hcovers, hedge⟩
        · exact .inl ⟨hspan, hedge.1, hrow, hbit⟩
        · exact .inr ⟨hcovers, hedge⟩
    · rw [cells, if_neg hy]
      simp only [Covers, List.not_mem_nil, false_iff]
      omega

theorem nodup_cells (width height x y : Int) (rows : List Int) :
    (cells width height x y rows).Nodup := by
  induction rows generalizing y with
  | nil => exact List.nodup_nil
  | cons row rows ih =>
    rw [cells]
    split
    · refine List.Nodup.append ?_ (ih (y + 1)) ?_
      · refine List.Nodup.filterMap ?_ List.nodup_range
        intro i j c hi hj
        grind
      · intro c hrow hrest
        have hnow := (mem_rowCells_iff.mp hrow).2.2.1
        have hlater := (mem_cells_iff.mp hrest).1.2.1
        omega
    · exact List.nodup_nil

/-- On every screen that has cells a sprite of any height can be drawn at any place. With its
corner taken modulo the size of the screen, it flips the pixels that it covers, none twice and
none beyond an edge, and hits if one of them was lit. -/
theorem draw_flips_covered (s : Screen width height) (x y : Int) (rows : List Int)
    (hw : 1 ≤ width) (hh : 1 ≤ height) :
    ∃ hit s', s.draw x y rows = .ok (hit, s') ∧
      (∀ i j, 0 ≤ i → i < width → 0 ≤ j → j < height →
        s'.lit (i, j) = (s.lit (i, j) ^^ decide (Covers (x % width) (y % height) rows (i, j)))) ∧
      (hit = true ↔ ∃ i j, (0 ≤ i ∧ i < width ∧ 0 ≤ j ∧ j < height) ∧
        Covers (x % width) (y % height) rows (i, j) ∧ s.lit (i, j) = true) := by
  have hx : x.fmod width = x % width := Int.fmod_eq_emod_of_nonneg x (by omega)
  have hy : y.fmod height = y % height := Int.fmod_eq_emod_of_nonneg y (by omega)
  have hx₀ : 0 ≤ x % width := Int.emod_nonneg x (by omega)
  have hy₀ : 0 ≤ y % height := Int.emod_nonneg y (by omega)
  have hinside : ∀ c ∈ cells width height (x % width) (y % height) rows, Inside width height c :=
    cells_inside rows hx₀ hy₀
  obtain ⟨s', hdraw, hflips⟩ := s.toggleAll_flips false hinside (nodup_cells ..)
  refine ⟨(cells width height (x % width) (y % height) rows).any s.lit, s', ?_, ?_, ?_⟩
  · rw [draw, if_neg (by omega), hx, hy, hdraw, Bool.false_or]
  · intro i j hi hiw hj hjh
    rw [hflips (i, j) ⟨hi, hiw, hj, hjh⟩]
    simp [mem_cells_iff, hiw, hjh]
  · rw [List.any_eq_true]
    constructor
    · rintro ⟨⟨i, j⟩, hc, hlit⟩
      exact ⟨i, j, hinside _ hc, (mem_cells_iff.mp hc).1, hlit⟩
    · rintro ⟨i, j, ⟨-, hiw, -, hjh⟩, hcovers, hlit⟩
      exact ⟨(i, j), mem_cells_iff.mpr ⟨hcovers, hiw, hjh⟩, hlit⟩

theorem draw_flips_covered_narrow :
    (1 : Int) ≤ 3 ∧ (1 : Int) ≤ 2 ∧
      ∃ hit s', (dark 3 2).draw (-1) (-3) [-1, 0xFF] = .ok (hit, s') ∧
        s'.lit (2, 1) = true ∧ s'.lit (0, 0) = false ∧ s'.lit (2, 0) = false := by
  have hw : (1 : Int) ≤ 3 := by decide
  have hh : (1 : Int) ≤ 2 := by decide
  obtain ⟨hit, s', hdraw, hflips, -⟩ := draw_flips_covered (dark 3 2) (-1) (-3) [-1, 0xFF] hw hh
  refine ⟨hw, hh, hit, s', hdraw, ?_, ?_, ?_⟩
  · rw [hflips 2 1 (by decide) (by decide) (by decide) (by decide)]
    decide
  · rw [hflips 0 0 (by decide) (by decide) (by decide) (by decide)]
    decide
  · rw [hflips 2 0 (by decide) (by decide) (by decide) (by decide)]
    decide

end ChipEight.Screen
