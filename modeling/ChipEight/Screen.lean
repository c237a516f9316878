import ChipEight.Size

namespace ChipEight

structure Screen (width height : Int) where
  pixels : Vector Bool (width * height).toNat
  deriving DecidableEq

namespace Screen

inductive Fault
  | outsideGrid
  | placeTooLarge
  | emptyGrid
  deriving DecidableEq

def Fault.message : Fault → String
  | .outsideGrid => "bytearray index out of range"
  | .placeTooLarge => "cannot fit 'int' into an index-sized integer"
  | .emptyGrid => "integer modulo by zero"

variable {width height : Int}

def dark (width height : Int) : Screen width height :=
  ⟨Vector.replicate _ false⟩

def clear (_ : Screen width height) : Screen width height :=
  dark width height

/-- The place of a pixel in the row after row order; negative places count from the end. -/
def place? (width height x y : Int) : Option (Fin (width * height).toNat) :=
  let i := y * width + x
  let k := if i < 0 then i + (width * height).toNat else i
  if h : 0 ≤ k ∧ k.toNat < (width * height).toNat then some ⟨k.toNat, h.2⟩ else none

def misplaced (i : Int) : Fault :=
  if Size.IsIndex i then .outsideGrid else .placeTooLarge

def toggle (s : Screen width height) (x y : Int) : Except Fault (Bool × Screen width height) :=
  match place? width height x y with
  | some i => .ok (s.pixels[i], ⟨s.pixels.set i (!s.pixels[i])⟩)
  | none => .error (misplaced (y * width + x))

def rowBit (row : Int) (i : Nat) : Bool :=
  (row >>> (7 - i)) % 2 = 1

def rowCells (width x y row : Int) : List (Int × Int) :=
  (List.range 8).filterMap fun (i : Nat) ↦
    if x + i < width ∧ rowBit row i then some (x + i, y) else none

def cells (width height x : Int) : Int → List Int → List (Int × Int)
  | _, [] => []
  | y, row :: rows =>
    if y < height then rowCells width x y row ++ cells width height x (y + 1) rows else []

def toggleAll (s : Screen width height) (hit : Bool) :
    List (Int × Int) → Except Fault (Bool × Screen width height)
  | [] => .ok (hit, s)
  | (x, y) :: rest => do
    let (lit, s) ← s.toggle x y
    s.toggleAll (hit || lit) rest

/-- Draws a sprite by exclusive or and tells whether a lit pixel went dark. The corner of the
sprite is taken modulo the size of the grid; what reaches past an edge is not drawn. -/
def draw (s : Screen width height) (x y : Int) (rows : List Int) :
    Except Fault (Bool × Screen width height) :=
  if width = 0 ∨ height = 0 then .error .emptyGrid
  else s.toggleAll false (cells width height (x.fmod width) (y.fmod height) rows)

def litCount (s : Screen width height) : Nat :=
  s.pixels.toList.count true

end Screen

end ChipEight
