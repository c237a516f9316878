import ChipEight.Frontend.Window
import ChipEight.Screen

namespace ChipEight

/-- A grid of cells, each a square with sides of `scale` points. -/
structure Layout where
  columns : Int
  rows : Int
  scale : Int
  deriving DecidableEq

def Layout.side (l : Layout) : Nat :=
  l.scale.toNat

structure Display (W : WindowSystem) (l : Layout) where
  foreground : Color
  background : Color
  window : W.Window

namespace Display

inductive Fault
  | noColumns
  deriving DecidableEq

def Fault.message : Fault → String
  | .noColumns => "integer modulo by zero"

variable {W : WindowSystem} {l : Layout}

def blue : Color := ⟨⟨80, 69, 155⟩, 255⟩

def lightBlue : Color := ⟨⟨136, 126, 203⟩, 255⟩

def create (W : WindowSystem) (l : Layout) (foreground background : Color) :
    Except W.Fault (Display W l) := do
  let window ← W.openWindow (l.columns * l.scale) (l.rows * l.scale)
  return ⟨foreground, background, W.fill window background⟩

def paintCell (d : Display W l) (window : W.Window) (x y : Int) : W.Window :=
  W.rect window d.foreground (x * l.scale) (y * l.scale) l.scale l.scale

def paintFrom (d : Display W l) (window : W.Window) (i : Nat) : List Int → W.Window
  | [] => window
  | p :: rest =>
    let window := if p = 0 then window
      else d.paintCell window (Int.fmod i l.columns) (Int.fdiv i l.columns)
    d.paintFrom window (i + 1) rest

def render (d : Display W l) (pixels : List Int) : Display W l :=
  { d with window := d.paintFrom (W.fill d.window d.background) 0 pixels }

/-- Shows pixels. Without columns there is no place for one that is lit. -/
def render? (d : Display W l) (pixels : List Int) : Except Fault (Display W l) :=
  if l.columns = 0 ∧ pixels.any (· != 0) then .error .noColumns else .ok (d.render pixels)

def cellIs (d : Display W l) (c : Shade) (x y : Nat) : Bool :=
  (List.range l.side).all fun dy ↦ (List.range l.side).all fun dx ↦
    W.point? d.window (x * l.side + dx) (y * l.side + dy) == some c

/-- Whether a cell is lit; nothing when its points differ. A cell that looks like the background
is dark. -/
def cell? (d : Display W l) (x y : Nat) : Option Bool :=
  if d.cellIs d.background.toShade x y then some false
  else if d.cellIs d.foreground.toShade x y then some true
  else none

def cells (d : Display W l) : List (List (Option Bool)) :=
  (List.range l.rows.toNat).map fun y ↦ (List.range l.columns.toNat).map fun x ↦ d.cell? x y

end Display

def Screen.levels {width height : Int} (s : Screen width height) : List Int :=
  s.pixels.toList.map fun p ↦ if p then 1 else 0

end ChipEight
