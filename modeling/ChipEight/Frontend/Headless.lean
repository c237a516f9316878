import ChipEight.Frontend.Surface
import ChipEight.Frontend.Window
import ChipEight.Size

namespace ChipEight

namespace Headless

inductive Fault
  | unreadable
  | negative
  | tooLarge
  deriving DecidableEq

def Fault.message : Fault → String
  | .unreadable => "size must be two numbers"
  | .negative => "Cannot set negative sized display mode"
  | .tooLarge => "Window is too large."

/-- A side is a signed number of 32 bits; of a longer one the low bits are taken. -/
def side (n : Int) : Except Fault Int :=
  if Size.IsIndex n then .ok (n.bmod 0x100000000) else .error .unreadable

/-- The size of the window that opens when `width` by `height` points are asked for. Without any
size it fills the desktop; else each side has a point at least. -/
def size (desktop : Nat × Nat) (longest width height : Int) : Except Fault (Nat × Nat) := do
  let w ← side width
  let h ← side height
  if w < 0 ∨ h < 0 then .error .negative
  else if w = 0 ∧ h = 0 then .ok desktop
  else if longest < w ∨ longest < h then .error .tooLarge
  else .ok (max 1 w.toNat, max 1 h.toNat)

structure Window where
  width : Nat
  height : Nat
  surface : Surface width height

def system (desktop : Nat × Nat) (longest : Int) : WindowSystem where
  Window := Window
  Fault := Fault
  message := Fault.message
  openWindow width height :=
    (size desktop longest width height).map fun (w, h) ↦ ⟨w, h, .filled w h ⟨0, 0, 0⟩⟩
  size window := (window.width, window.height)
  fill window c := { window with surface := .filled _ _ c.toShade }
  rect window c x y width height :=
    { window with
      surface := window.surface.paint c.toShade x.toNat y.toNat
        ((x + width).toNat - x.toNat) ((y + height).toNat - y.toNat) }
  point? window := window.surface.point?

theorem side_natCast {n : Nat} (hn : n < 0x80000000) : side n = .ok n := by
  have hindex : Size.IsIndex n := by
    unfold Size.IsIndex
    omega
  rw [side, if_pos hindex, Int.bmod_def]
  have hmod : (n : Int) % (0x100000000 : Nat) = n := Int.emod_eq_of_lt (by omega) (by omega)
  rw [hmod, if_pos (by omega)]

theorem size_natCast {desktop : Nat × Nat} {longest : Int} {width height : Nat} {r : Nat × Nat}
    (hw : 0 < width) (hh : 0 < height) (hw' : width < 0x80000000) (hh' : height < 0x80000000)
    (h : size desktop longest width height = .ok r) : r = (width, height) := by
  rw [size, side_natCast hw', side_natCast hh'] at h
  simp only [bind, Except.bind] at h
  rw [if_neg (by omega), if_neg (by omega)] at h
  split at h
  · cases h
  · cases h
    rw [Int.toNat_natCast, Int.toNat_natCast, Nat.max_eq_right hw, Nat.max_eq_right hh]

theorem system_lawful (desktop : Nat × Nat) (longest : Int) : (system desktop longest).Lawful where
  size_open {width height _} hw hh hw' hh' h := by
    simp only [system] at h
    cases hs : size desktop longest width height with
    | error e => rw [hs] at h; cases h
    | ok r =>
      rw [hs] at h
      cases h
      exact size_natCast hw hh hw' hh' hs
  size_fill _ _ := rfl
  size_rect _ _ _ _ _ _ := rfl
  point?_fill window c px py hx hy :=
    (Surface.point?_filled c.toShade px py).trans (if_pos ⟨hx, hy⟩)
  point?_rect window c x y width height hw hh px py hx hy := by
    have hcovers : (x.toNat ≤ px ∧ px < x.toNat + ((x + width).toNat - x.toNat) ∧ y.toNat ≤ py ∧
        py < y.toNat + ((y + height).toNat - y.toNat) ∧ px < window.width ∧ py < window.height) ↔
        (x ≤ px ∧ px < x + width ∧ y ≤ py ∧ py < y + height) := by
      have hx' : px < window.width := hx
      have hy' : py < window.height := hy
      omega
    exact (Surface.point?_paint ..).trans (ite_congr (propext hcovers) (fun _ ↦ rfl) fun _ ↦ rfl)

end Headless

end ChipEight
