import ChipEight.Timer
import Mathlib.Data.List.Chain
import Mathlib.Tactic.Linarith
import Mathlib.Tactic.Ring

namespace ChipEight.Timer

structure Poll where
  reading : Int
  before : Byte
  after : Byte
  deriving DecidableEq

def Poll.drops (p : Poll) : Bool :=
  p.after < p.before

/-- Up to `now`, and while something is left of the count, every end of a period is among the
readings. -/
def Punctual (start : Int) (count : Nat) (now : Int) (readings : List Int) : Prop :=
  ∀ k : Nat, 1 ≤ k → k ≤ count → start + k * period ≤ now → start + k * period ∈ readings

theorem period_eq : period = 16666666 :=
  rfl

theorem period_pos : 0 < period := by
  decide

theorem poll_of_due {t : Timer} {now : Int} (h : t.Due now) : t.poll now = ⟨t.count - 1, now⟩ :=
  if_pos h

theorem poll_of_not_due {t : Timer} {now : Int} (h : ¬ t.Due now) : t.poll now = t :=
  if_neg h

theorem toNat_count_of_due {t : Timer} {now : Int} (h : t.Due now) :
    t.count.toNat = (t.count - 1).toNat + 1 := by
  have hone : 1 ≤ t.count.toNat := UInt8.lt_iff_toNat_lt.mp h.1
  have hsub : (t.count - 1).toNat = t.count.toNat - 1 :=
    UInt8.toNat_sub_of_le _ _ (UInt8.le_iff_toNat_le.mpr hone)
  omega

/-- Polls that take one timer to another. Each takes off one or nothing. -/
inductive Countdown : Timer → List Poll → Timer → Prop
  | nil (t : Timer) : Countdown t [] t
  | drop {c d : Byte} {since now : Int} {polls : List Poll} {u : Timer}
      (hc : c.toNat = d.toNat + 1) (hn : since + period ≤ now)
      (h : Countdown ⟨d, now⟩ polls u) : Countdown ⟨c, since⟩ (⟨now, c, d⟩ :: polls) u
  | keep {c : Byte} {since now : Int} {polls : List Poll} {u : Timer}
      (hn : c = 0 ∨ now < since + period)
      (h : Countdown ⟨c, since⟩ polls u) : Countdown ⟨c, since⟩ (⟨now, c, c⟩ :: polls) u

namespace Countdown

variable {t u : Timer} {polls : List Poll} {p : Poll} {last : Int}

theorem cons {now : Int} (h : Countdown (t.poll now) polls u) :
    Countdown t (⟨now, t.count, (t.poll now).count⟩ :: polls) u := by
  by_cases hd : t.Due now
  · have hn : period ≤ now - t.since := hd.2
    rw [poll_of_due hd] at h ⊢
    exact .drop (toNat_count_of_due hd) (by omega) h
  · rw [poll_of_not_due hd] at h ⊢
    refine .keep ?_ h
    simp only [Due, not_and_or, UInt8.not_lt, UInt8.le_zero_iff] at hd
    exact hd.imp id (by omega)

theorem before_eq (h : Countdown t polls u) :
    polls.map (·.before) = (t.count :: polls.map (·.after)).dropLast := by
  induction h with
  | nil => rfl
  | drop _ _ _ ih | keep _ _ ih => simp [ih]

theorem count_eq (h : Countdown t polls u) :
    u.count = (polls.map (·.after)).getLastD t.count := by
  induction h with
  | nil => rfl
  | drop _ _ _ ih | keep _ _ ih => rw [ih, List.map_cons, List.getLastD_cons]

theorem after_le_before (h : Countdown t polls u) (hp : p ∈ polls) :
    p.after ≤ p.before ∧ p.before.toNat ≤ p.after.toNat + 1 := by
  induction h with
  | nil => cases hp
  | drop hc _ _ ih =>
    rcases List.mem_cons.mp hp with rfl | hp
    · simp only [UInt8.le_iff_toNat_le]
      omega
    · exact ih hp
  | keep _ _ ih =>
    rcases List.mem_cons.mp hp with rfl | hp
    · exact ⟨UInt8.le_refl _, Nat.le_succ _⟩
    · exact ih hp

theorem after_le_count (h : Countdown t polls u) (hp : p ∈ polls) :
    p.after.toNat ≤ t.count.toNat := by
  induction h with
  | nil => cases hp
  | drop hc _ _ ih =>
    rcases List.mem_cons.mp hp with rfl | hp
    · simp only
      omega
    · have := ih hp
      simp only at this ⊢
      omega
  | keep _ _ ih =>
    rcases List.mem_cons.mp hp with rfl | hp
    · exact Nat.le_refl _
    · exact ih hp

theorem drops_filter (h : Countdown t polls u) {k : Nat}
    (hp : (polls.filter Poll.drops)[k]? = some p) :
    p.after.toNat + (k + 1) = t.count.toNat ∧ t.since + (k + 1) * period ≤ p.reading := by
  induction h generalizing k with
  | nil => simp at hp
  | @drop c d since now polls u hc hn h ih =>
    have hd : Poll.drops ⟨now, c, d⟩ = true := by
      simp only [Poll.drops, UInt8.lt_iff_toNat_lt, decide_eq_true_eq]
      omega
    rw [List.filter_cons_of_pos hd] at hp
    cases k with
    | zero =>
      cases hp
      simp only [Nat.cast_zero]
      omega
    | succ k =>
      obtain ⟨hcount, hread⟩ := ih hp
      have hk : ((k + 1 : Nat) + 1) * period = (k + 1) * period + period := by
        push_cast
        ring
      simp only at hcount hread ⊢
      omega
  | @keep c since now polls u hn h ih =>
    have hd : ¬ Poll.drops ⟨now, c, c⟩ = true := by
      simp [Poll.drops]
    rw [List.filter_cons_of_neg hd] at hp
    exact ih hp

/-- How late the countdown is at a poll, when polls come at most `g` apart and the last one before
these was at `last`. -/
theorem elapsed_lt {g : Int} (h : Countdown t polls u) (hl : last - t.since < period)
    (hg : List.IsChain (fun a b ↦ a ≤ b ∧ b ≤ a + g) (last :: polls.map (·.reading)))
    (hp : p ∈ polls) (h0 : 0 < p.after) :
    p.reading - t.since <
      period + ((t.count.toNat : Int) - p.after.toNat) * (period + g - 1) := by
  induction h generalizing last with
  | nil => cases hp
  | @drop c d since now polls u hc hn h ih =>
    rw [List.map_cons, List.isChain_cons_cons] at hg
    obtain ⟨⟨-, hstep⟩, hrest⟩ := hg
    have hperiod := period_pos
    rcases List.mem_cons.mp hp with rfl | hp
    · have hone : (c.toNat : Int) - d.toNat = 1 := by omega
      simp only [hone] at hl hstep ⊢
      omega
    · have hih := ih (by simpa using hperiod) hrest hp
      have hsum : ((c.toNat : Int) - p.after.toNat) * (period + g - 1) =
          ((d.toNat : Int) - p.after.toNat) * (period + g - 1) + (period + g - 1) := by
        rw [hc]
        push_cast
        ring
      simp only at hl hstep hih ⊢
      omega
  | @keep c since now polls u hn h ih =>
    rw [List.map_cons, List.isChain_cons_cons] at hg
    obtain ⟨-, hrest⟩ := hg
    have hle : p.after.toNat ≤ c.toNat := (Countdown.keep hn h).after_le_count hp
    have hc : c ≠ 0 := by
      rintro rfl
      exact absurd hle (Nat.not_le.mpr (UInt8.lt_iff_toNat_lt.mp h0))
    have hnow : now - since < period := by
      have := hn.resolve_left hc
      omega
    rcases List.mem_cons.mp hp with rfl | hp
    · simp only [sub_self, zero_mul, add_zero]
      exact hnow
    · exact ih hnow hrest hp

theorem since_add_le (h : Countdown t polls u) (hl : t.since ≤ last)
    (hm : List.IsChain (· ≤ ·) (last :: polls.map (·.reading))) (hp : p ∈ polls) :
    t.since + ((t.count.toNat : Int) - p.after.toNat) * period ≤ p.reading := by
  induction h generalizing last with
  | nil => cases hp
  | @drop c d since now polls u hc hn h ih =>
    rw [List.map_cons, List.isChain_cons_cons] at hm
    rcases List.mem_cons.mp hp with rfl | hp
    · have hone : (c.toNat : Int) - d.toNat = 1 := by omega
      simp only [hone]
      omega
    · have hih := ih (Int.le_refl now) hm.2 hp
      have hsum : ((c.toNat : Int) - p.after.toNat) * period =
          ((d.toNat : Int) - p.after.toNat) * period + period := by
        rw [hc]
        push_cast
        ring
      simp only at hih ⊢
      omega
  | @keep c since now polls u hn h ih =>
    rw [List.map_cons, List.isChain_cons_cons] at hm
    have hnow : since ≤ now := Int.le_trans hl hm.1
    rcases List.mem_cons.mp hp with rfl | hp
    · simpa using hnow
    · exact ih hnow hm.2 hp

theorem reading_ge (hm : List.IsChain (· ≤ ·) (last :: polls.map (·.reading))) (hp : p ∈ polls) :
    last ≤ p.reading :=
  List.rel_of_pairwise_cons hm.pairwise (List.mem_map_of_mem hp)

/-- Polled at the end of every period, a timer follows the clock exactly. -/
theorem after_of_punctual (h : Countdown t polls u) (hs : t.since ≤ last)
    (hl : last < t.since + period)
    (hm : List.IsChain (· ≤ ·) (last :: polls.map (·.reading))) (hp : p ∈ polls)
    (hb : Punctual t.since t.count.toNat p.reading (polls.map (·.reading))) :
    (p.after.toNat : Int) = max 0 (t.count.toNat - (p.reading - t.since) / period) := by
  induction h generalizing last with
  | nil => cases hp
  | @drop c d since now polls u hc hn h ih =>
    have hge : now ≤ p.reading := by
      rcases List.mem_cons.mp hp with rfl | hp
      · exact Int.le_refl _
      · exact reading_ge hm.tail hp
    -- The first period ends with this poll: no earlier one could take one off.
    have hfirst : now = since + period := by
      have hmem := hb 1 (Nat.le_refl 1) (by simp only; omega) (by simp only; omega)
      rw [Nat.cast_one, one_mul, List.map_cons] at hmem
      rcases List.mem_cons.mp hmem with he | hmem
      · exact he.symm
      · have hle : now ≤ since + period := List.rel_of_pairwise_cons hm.tail.pairwise hmem
        exact Int.le_antisymm hle hn
    rcases List.mem_cons.mp hp with rfl | hp
    · simp only [period_eq] at hfirst ⊢
      omega
    · have hrest : Punctual now d.toNat p.reading (polls.map (·.reading)) := by
        intro k hk hkd hkp
        have hshift : since + ((k + 1 : Nat) : Int) * period = now + k * period := by
          rw [hfirst]
          push_cast
          ring
        have hmem := hb (k + 1) (by omega) (by simp only; omega) (by rw [hshift]; exact hkp)
        rw [hshift, List.map_cons] at hmem
        have hkpos : 0 < (k : Int) * period := Int.mul_pos (by omega) period_pos
        exact (List.mem_cons.mp hmem).resolve_left (by simp only; omega)
      have hih := ih (Int.le_refl now) (by simpa using period_pos) hm.tail hp hrest
      simp only [period_eq] at hfirst hih ⊢
      omega
  | @keep c since now polls u hn h ih =>
    have hnow : since ≤ now := Int.le_trans hs (reading_ge hm (List.mem_cons_self ..))
    by_cases hc : c = 0
    · have hle : p.after.toNat ≤ c.toNat := (Countdown.keep hn h).after_le_count hp
      have hge : last ≤ p.reading := reading_ge hm hp
      subst hc
      simp only [period_eq, UInt8.toNat_zero] at hle hs ⊢
      omega
    · have hlt : now < since + period := hn.resolve_left hc
      rcases List.mem_cons.mp hp with rfl | hp
      · simp only [period_eq] at hlt ⊢
        omega
      · have hrest : Punctual since c.toNat p.reading (polls.map (·.reading)) := by
          intro k hk hkd hkp
          have hmem := hb k hk hkd hkp
          have hkpos : period ≤ (k : Int) * period := by
            nlinarith [period_pos]
          exact (List.mem_cons.mp hmem).resolve_left (by simp only at hkp ⊢; omega)
        exact ih hnow hlt hm.tail hp hrest

/-- The readings of the polls alone decide how a timer counts down. -/
theorem eq_of_readings {u' : Timer} {polls' : List Poll} (h : Countdown t polls u)
    (h' : Countdown t polls' u') (hr : polls.map (·.reading) = polls'.map (·.reading)) :
    polls = polls' := by
  induction h generalizing polls' with
  | nil => exact (List.map_eq_nil_iff.mp hr.symm).symm
  | @drop c d since now polls u hc hn h ih =>
    cases h' with
    | nil => cases hr
    | @drop _ d' _ now' polls' _ hc' hn' h' =>
      simp only [List.map_cons, List.cons.injEq] at hr
      obtain ⟨rfl, hr⟩ := hr
      obtain rfl : d = d' := UInt8.toNat_inj.mp (by omega)
      rw [ih h' hr]
    | @keep _ _ now' polls' _ hn' h' =>
      simp only [List.map_cons, List.cons.injEq] at hr
      obtain ⟨rfl, hr⟩ := hr
      rcases hn' with rfl | hn'
      · cases hc
      · exact absurd hn (Int.not_le.mpr hn')
  | @keep c since now polls u hn h ih =>
    cases h' with
    | nil => cases hr
    | @drop _ d' _ now' polls' _ hc' hn' h' =>
      simp only [List.map_cons, List.cons.injEq] at hr
      obtain ⟨rfl, hr⟩ := hr
      rcases hn with rfl | hn
      · cases hc'
      · exact absurd hn' (Int.not_le.mpr hn)
    | @keep _ _ now' polls' _ hn' h' =>
      simp only [List.map_cons, List.cons.injEq] at hr
      obtain ⟨rfl, hr⟩ := hr
      rw [ih h' hr]

end Countdown

end ChipEight.Timer
