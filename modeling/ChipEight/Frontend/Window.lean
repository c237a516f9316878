import ChipEight.Frontend.Color

namespace ChipEight

/-- What a program has of a window system: it opens windows, fills them and paints rectangles on
them. What is there to see of a window are its points. -/
structure WindowSystem where
  Window : Type
  Fault : Type
  message : Fault → String
  openWindow (width height : Int) : Except Fault Window
  size : Window → Nat × Nat
  fill : Window → Color → Window
  rect (window : Window) (c : Color) (x y width height : Int) : Window
  point? (window : Window) (x y : Nat) : Option Shade

/-- A window has the size that was asked for, if its sides are positive and signed numbers of 32
bits. A fill covers all of it, and a rectangle what lies of it in the window. -/
structure WindowSystem.Lawful (W : WindowSystem) : Prop where
  size_open {width height : Nat} {window : W.Window} (hw : 0 < width) (hh : 0 < height)
    (hw' : width < 0x80000000) (hh' : height < 0x80000000) :
    W.openWindow width height = .ok window → W.size window = (width, height)
  size_fill (window : W.Window) (c : Color) : W.size (W.fill window c) = W.size window
  size_rect (window : W.Window) (c : Color) (x y width height : Int) :
    W.size (W.rect window c x y width height) = W.size window
  point?_fill (window : W.Window) (c : Color) {px py : Nat} (hx : px < (W.size window).1)
    (hy : py < (W.size window).2) : W.point? (W.fill window c) px py = some c.toShade
  point?_rect (window : W.Window) (c : Color) (x y : Int) {width height : Int} (hw : 0 ≤ width)
    (hh : 0 ≤ height) {px py : Nat} (hx : px < (W.size window).1) (hy : py < (W.size window).2) :
    W.point? (W.rect window c x y width height) px py =
      if x ≤ px ∧ px < x + width ∧ y ≤ py ∧ py < y + height then some c.toShade
      else W.point? window px py

end ChipEight
