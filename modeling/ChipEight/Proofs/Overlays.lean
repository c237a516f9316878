import ChipEight.Proofs.Sprites
import Mathlib.Algebra.BigOperators.Group.Finset.Lemmas
import Mathlib.Algebra.Ring.Parity

namespace ChipEight

structure Sprite where
  x : Int
  y : Int
  rows : List Int
  deriving DecidableEq

def Sprite.Covers (d : Sprite) (width height : Int) (c : Int × Int) : Prop :=
  Screen.Inside width height c ∧ Screen.Covers (d.x % width) (d.y % height) d.rows c

namespace Screen

instance (width height : Int) (c : Int × Int) : Decidable (Inside width height c) :=
  inferInstanceAs (Decidable (_ ∧ _))

instance (d : Sprite) (width height : Int) (c : Int × Int) :
    Decidable (d.Covers width height c) :=
  inferInstanceAs (Decidable (_ ∧ _))

variable {width height : Int} {s s' s'' : Screen width height} {d : Sprite}
  {sprites sprites' : List Sprite}

/-- One screen is the other with the pixels flipped that a sprite covers. -/
def Flips (d : Sprite) (s s' : Screen width height) : Prop :=
  ∀ c, Inside width height c → s'.lit c = (s.lit c ^^ decide (d.Covers width height c))

def drawAll (s : Screen width height) : List Sprite → Except Fault (Screen width height)
  | [] => .ok s
  | d :: sprites => do
    let (_, s) ← s.draw d.x d.y d.rows
    s.drawAll sprites

def coverage (width height : Int) (sprites : List Sprite) (c : Int × Int) : Nat :=
  sprites.countP fun d ↦ decide (d.Covers width height c)

theorem ext_of_lit (hw : 1 ≤ width)
    (h : ∀ c, Inside width height c → s.lit c = s'.lit c) : s = s' := by
  obtain ⟨pixels⟩ := s
  obtain ⟨pixels'⟩ := s'
  refine congrArg Screen.mk (Vector.ext fun i hi ↦ ?_)
  have hplace : (i : Int) / width * width + i % width = i := Int.ediv_mul_add_emod i width
  have hlt : (i : Int) < width * height := Int.lt_toNat.mp hi
  have hinside : Inside width height ((i : Int) % width, (i : Int) / width) := by
    refine ⟨Int.emod_nonneg _ (by omega), Int.emod_lt_of_pos _ hw, Int.ediv_nonneg ?_ ?_, ?_⟩
    · exact Int.natCast_nonneg i
    · omega
    · exact Int.ediv_lt_of_lt_mul hw (by rwa [Int.mul_comm])
  have hlit := h _ hinside
  simpa only [lit, hplace, Int.toNat_natCast, Vector.getElem?_eq_getElem hi, Option.getD_some]
    using hlit

theorem Flips.lit_of_covers (h : Flips d s s') {c : Int × Int} (hc : d.Covers width height c) :
    s'.lit c = !s.lit c := by
  rw [h c hc.1, decide_eq_true hc, Bool.xor_true]

theorem Flips.cancel (hw : 1 ≤ width) (h : Flips d s s') (h' : Flips d s' s'') : s'' = s := by
  refine ext_of_lit hw fun c hc ↦ ?_
  rw [h' c hc, h c hc, Bool.xor_assoc, Bool.xor_self, Bool.xor_false]

theorem Flips.exists_lit_iff (h : Flips d s s') :
    (∃ c, d.Covers width height c ∧ s.lit c = true) ↔
      ∃ c, Inside width height c ∧ s.lit c = true ∧ s'.lit c = false := by
  refine exists_congr fun c ↦ ?_
  constructor
  · rintro ⟨hc, hlit⟩
    refine ⟨hc.1, hlit, ?_⟩
    rw [h.lit_of_covers hc, hlit, Bool.not_true]
  · rintro ⟨hin, hlit, hdark⟩
    refine ⟨Decidable.byContradiction fun hc ↦ ?_, hlit⟩
    rw [h c hin, hlit, decide_eq_false hc] at hdark
    cases hdark

/-- Drawn again, a sprite finds lit what it has found dark. -/
theorem Flips.exists_lit_iff_dark (h : Flips d s s') :
    (∃ c, d.Covers width height c ∧ s'.lit c = true) ↔
      ∃ c, d.Covers width height c ∧ s.lit c = false := by
  refine exists_congr fun c ↦ and_congr_right fun hc ↦ ?_
  rw [h.lit_of_covers hc, Bool.not_eq_true']

theorem draw_flips (s : Screen width height) (d : Sprite) (hw : 1 ≤ width) (hh : 1 ≤ height) :
    ∃ hit s', s.draw d.x d.y d.rows = .ok (hit, s') ∧
      (hit = true ↔ ∃ c, d.Covers width height c ∧ s.lit c = true) ∧ Flips d s s' := by
  have hx : 0 ≤ d.x % width := Int.emod_nonneg d.x (by omega)
  have hy : 0 ≤ d.y % height := Int.emod_nonneg d.y (by omega)
  have hinside : ∀ c ∈ cells width height (d.x % width) (d.y % height) d.rows,
      Inside width height c := cells_inside d.rows hx hy
  have hmem (c : Int × Int) :
      c ∈ cells width height (d.x % width) (d.y % height) d.rows ↔ d.Covers width height c := by
    constructor
    · intro hc
      exact ⟨hinside c hc, (mem_cells_iff.mp hc).1⟩
    · rintro ⟨hin, hcovers⟩
      exact mem_cells_iff.mpr ⟨hcovers, hin.2.1, hin.2.2.2⟩
  obtain ⟨s', hdraw, hflips⟩ := s.toggleAll_flips false hinside (nodup_cells ..)
  refine ⟨(cells width height (d.x % width) (d.y % height) d.rows).any s.lit, s', ?_, ?_, ?_⟩
  · rw [draw, if_neg (by omega), Int.fmod_eq_emod_of_nonneg d.x (by omega),
      Int.fmod_eq_emod_of_nonneg d.y (by omega), hdraw, Bool.false_or]
  · simp only [List.any_eq_true, hmem]
  · intro c hc
    rw [hflips c hc, decide_eq_decide.mpr (hmem c)]

theorem decide_odd_coverage_cons (width height : Int) (d : Sprite) (sprites : List Sprite)
    (c : Int × Int) :
    decide (Odd (coverage width height (d :: sprites) c)) =
      (decide (d.Covers width height c) ^^ decide (Odd (coverage width height sprites c))) := by
  rw [coverage, List.countP_cons, ← coverage]
  by_cases hc : d.Covers width height c
  · simp only [hc, decide_true, if_true, Nat.odd_add_one, decide_not, Bool.true_xor]
  · simp only [hc, decide_false, Bool.false_eq_true, if_false, Nat.add_zero, Bool.false_xor]

/-- Sprites can always be drawn. In the end the pixels are flipped that an odd number of them
covers. -/
theorem drawAll_flips (s : Screen width height) (sprites : List Sprite) (hw : 1 ≤ width)
    (hh : 1 ≤ height) :
    ∃ s', s.drawAll sprites = .ok s' ∧ ∀ c, Inside width height c →
      s'.lit c = (s.lit c ^^ decide (Odd (coverage width height sprites c))) := by
  induction sprites generalizing s with
  | nil => exact ⟨s, rfl, by simp [coverage]⟩
  | cons d sprites ih =>
    obtain ⟨hit, s₁, hdraw, -, hflips⟩ := s.draw_flips d hw hh
    obtain ⟨s₂, hall, hrest⟩ := ih s₁
    refine ⟨s₂, ?_, ?_⟩
    · rw [drawAll, hdraw]
      exact hall
    · -- One more sprite that covers a cell changes the parity of its coverage.
      intro c hc
      rw [hrest c hc, hflips c hc, Bool.xor_assoc, decide_odd_coverage_cons]

theorem drawAll_congr (s : Screen width height) (hw : 1 ≤ width) (hh : 1 ≤ height)
    (h : ∀ c, Odd (coverage width height sprites c) ↔ Odd (coverage width height sprites' c)) :
    s.drawAll sprites = s.drawAll sprites' := by
  obtain ⟨t, ht, hflips⟩ := s.drawAll_flips sprites hw hh
  obtain ⟨t', ht', hflips'⟩ := s.drawAll_flips sprites' hw hh
  rw [ht, ht']
  refine congrArg Except.ok (ext_of_lit hw fun c hc ↦ ?_)
  rw [hflips c hc, hflips' c hc, decide_eq_decide.mpr (h c)]

theorem even_coverage (h : ∀ d ∈ sprites, Even (sprites.count d)) (c : Int × Int) :
    Even (coverage width height sprites c) := by
  rw [coverage, ← Finset.sum_filter_count_eq_countP]
  refine Finset.even_sum _ fun d hd ↦ h d ?_
  exact List.mem_toFinset.mp (Finset.mem_filter.mp hd).1

/-- The order in which sprites are drawn makes no difference to the picture, and sprites that are
drawn an even number of times leave nothing behind. Drawn twice in a row, a sprite hits what it has
lit itself. -/
theorem sprites_commute_and_cancel (s : Screen width height) (hw : 1 ≤ width) (hh : 1 ≤ height) :
    (∀ sprites, ∃ s', s.drawAll sprites = .ok s') ∧
    (∀ sprites sprites', sprites.Perm sprites' → s.drawAll sprites = s.drawAll sprites') ∧
    (∀ sprites, (∀ d ∈ sprites, Even (sprites.count d)) → s.drawAll sprites = .ok s) ∧
    ∀ d : Sprite, ∃ first s₁ second,
      s.draw d.x d.y d.rows = .ok (first, s₁) ∧ s₁.draw d.x d.y d.rows = .ok (second, s) ∧
      (second = true ↔ ∃ c, d.Covers width height c ∧ s.lit c = false) ∧
      (first = false → (second = true ↔ ∃ c, d.Covers width height c)) := by
  refine ⟨?_, ?_, ?_, ?_⟩
  · intro sprites
    obtain ⟨s', hs', -⟩ := s.drawAll_flips sprites hw hh
    exact ⟨s', hs'⟩
  · intro sprites sprites' hp
    refine s.drawAll_congr hw hh fun c ↦ ?_
    rw [coverage, coverage, hp.countP_eq]
  · intro sprites heven
    change s.drawAll sprites = s.drawAll []
    refine s.drawAll_congr hw hh fun c ↦ ?_
    have hc : Even (coverage width height sprites c) := even_coverage heven c
    rw [← Nat.not_even_iff_odd, ← Nat.not_even_iff_odd]
    exact not_congr (iff_of_true hc Even.zero)
  · intro d
    obtain ⟨first, s₁, hdraw, hfirst, hflips⟩ := s.draw_flips d hw hh
    obtain ⟨second, s₂, hdraw', hsecond, hflips'⟩ := s₁.draw_flips d hw hh
    obtain rfl : s₂ = s := hflips.cancel hw hflips'
    rw [hflips.exists_lit_iff_dark] at hsecond
    refine ⟨first, s₁, second, hdraw, hdraw', hsecond, fun hmiss ↦ hsecond.trans ?_⟩
    -- No collision means that all that the sprite covers was dark.
    refine exists_congr fun c ↦ and_iff_left_of_imp fun hc ↦ ?_
    have hdark : ¬ s₂.lit c = true := fun hlit ↦ by
      rw [hfirst.mpr ⟨c, hc, hlit⟩] at hmiss
      cases hmiss
    exact Bool.eq_false_of_not_eq_true hdark

/-- Two sprites that overlap on a screen of three by two, one of them larger than the screen. Drawn
twice each they leave it as it was; the second copy of one hits. -/
theorem sprites_commute_and_cancel_overlap :
    let a : Sprite := ⟨-1, 0, [0xC0, 0xFF]⟩
    let b : Sprite := ⟨1, 4, [-1, -1, -1]⟩
    (1 : Int) ≤ 3 ∧ (1 : Int) ≤ 2 ∧ a.Covers 3 2 (2, 0) ∧ b.Covers 3 2 (2, 0) ∧
      (dark 3 2).drawAll [a, b, b, a] = .ok (dark 3 2) ∧
      (dark 3 2).drawAll [a, b] = (dark 3 2).drawAll [b, a] ∧
      ∃ s₁, (dark 3 2).draw (-1) 0 [0xC0, 0xFF] = .ok (false, s₁) ∧
        s₁.draw (-1) 0 [0xC0, 0xFF] = .ok (true, dark 3 2) := by
  intro a b
  have hw : (1 : Int) ≤ 3 := by decide
  have hh : (1 : Int) ≤ 2 := by decide
  have ha : a.Covers 3 2 (2, 0) := by decide
  obtain ⟨-, hperm, heven, htwice⟩ := sprites_commute_and_cancel (dark 3 2) hw hh
  obtain ⟨first, s₁, second, hdraw, hdraw', hdark, -⟩ := htwice a
  have hsecond : second = true := hdark.mpr ⟨(2, 0), ha, by decide⟩
  have hfirst : first = false := by
    have hmiss : ((dark 3 2).draw (-1) 0 [0xC0, 0xFF]).map (·.1) = .ok false := by decide
    rw [hdraw] at hmiss
    exact Except.ok.inj hmiss
  rw [hfirst] at hdraw
  rw [hsecond] at hdraw'
  exact ⟨hw, hh, ha, by decide, heven [a, b, b, a] (by decide), hperm _ _ (.swap b a []), s₁,
    hdraw, hdraw'⟩

end Screen

end ChipEight
