import ScreenMarkup.Error
import ScreenMarkup.Geometry

/-!
# Canvases

A canvas is a grid of pixels `0xAARRGGBB`, row by row. Drawing is opaque and
clipped: what lies outside the grid is left out. Pixels are stored with their
lowest byte first.
-/

set_option autoImplicit false

namespace ScreenMarkup

structure Canvas where
  width : Nat
  height : Nat
  pixels : Vector UInt32 (width * height)

namespace Canvas

def bytesPerPixel : Nat := 4

/-- Memory gives a canvas at most as many bytes as 32 bits address. -/
def addressable : Nat := 0x100000000

/-- The side of a canvas whose size is not given. -/
def defaultSide : Int := 200

def opaqueColor (rgb : Nat) : UInt32 := UInt32.ofNat (0xFF000000 + rgb % 0x1000000)

def byteCount (width height : Int) : Nat := width.toNat * height.toNat * bytesPerPixel

/-- A canvas filled with one color, unless its size is not positive or too large. -/
def make (width height : Int) (background : Nat) (limit : Nat) : Except Failure Canvas :=
  let bytes := byteCount width height
  if width ≤ 0 ∨ height ≤ 0 ∨ limit < bytes ∨ addressable < bytes then
    .error (.canvasAllocation bytes)
  else
    .ok ⟨width.toNat, height.toNat,
      Vector.replicate (width.toNat * height.toNat) (opaqueColor background)⟩

def contains (c : Canvas) (x y : Int) : Bool :=
  0 ≤ x && 0 ≤ y && x < c.width && y < c.height

def position (c : Canvas) (x y : Nat) : Nat := y * c.width + x

def pixel? (c : Canvas) (x y : Int) : Option UInt32 :=
  if c.contains x y then c.pixels[c.position x.toNat y.toNat]? else none

def put (c : Canvas) (x y : Nat) (argb : UInt32) : Canvas :=
  { c with pixels := c.pixels.setIfInBounds (c.position x y) argb }

/-- Paints the chosen ones of `count` pixels of a row, from `x` on. -/
def paintRow (chosen : Nat → Bool) (argb : UInt32) (y : Nat) : (count x : Nat) → Canvas → Canvas
  | 0, _, c => c
  | n + 1, x, c => paintRow chosen argb y n (x + 1) (if chosen x then c.put x y argb else c)

/-- Paints the chosen pixels of `rows` rows from `y` on. -/
def paintRows (chosen : Nat → Nat → Bool) (argb : UInt32) (x columns : Nat) :
    (rows y : Nat) → Canvas → Canvas
  | 0, _, c => c
  | n + 1, y, c =>
    paintRows chosen argb x columns n (y + 1) (paintRow (chosen · y) argb y columns x c)

/-- Paints the chosen pixels of the box from `(x1, y1)` to `(x2, y2)`, both included, as far as
it lies on the canvas. -/
def paintBox (c : Canvas) (x1 y1 x2 y2 : Int) (chosen : Nat → Nat → Bool) (argb : UInt32) :
    Canvas :=
  let left := max x1 0
  let top := max y1 0
  let right := min x2 (c.width - 1)
  let bottom := min y2 (c.height - 1)
  paintRows chosen argb left.toNat (right + 1 - left).toNat (bottom + 1 - top).toNat top.toNat c

def clear (c : Canvas) (rgb : Nat) : Canvas :=
  { c with pixels := Vector.replicate (c.width * c.height) (opaqueColor rgb) }

def fillRect (c : Canvas) (x y w h : Int) (rgb : Nat) : Canvas :=
  c.paintBox x y (x + w - 1) (y + h - 1) (fun _ _ => true) (opaqueColor rgb)

def setPixel (c : Canvas) (x y : Int) (rgb : Nat) : Canvas :=
  if c.contains x y then c.put x.toNat y.toNat (opaqueColor rgb) else c

/-- The pixels at a distance of at most `r` from the center. -/
def fillCircle (c : Canvas) (cx cy r : Int) (rgb : Nat) : Canvas :=
  if r < 0 then c
  else
    c.paintBox (cx - r) (cy - r) (cx + r) (cy + r)
      (fun x y => (x - cx) * (x - cx) + (y - cy) * (y - cy) ≤ r * r) (opaqueColor rgb)

/-- The square brush around a center. -/
def stamp (c : Canvas) (radius : Int) (argb : UInt32) (x y : Int) : Canvas :=
  c.paintBox (x - radius) (y - radius) (x + radius) (y + radius) (fun _ _ => true) argb

/-- One step along a line: `err` is the sum of the distances left in both axes, the vertical one
counted negatively. -/
structure LineStep where
  x : Int
  y : Int
  err : Int
deriving DecidableEq, Inhabited

def sign (a b : Int) : Int := if a < b then 1 else -1

def LineStep.advance (dx dy sx sy : Int) (s : LineStep) : LineStep :=
  let horizontal := dy ≤ 2 * s.err
  let vertical := 2 * s.err ≤ dx
  { x := if horizontal then s.x + sx else s.x
    y := if vertical then s.y + sy else s.y
    err := s.err + (if horizontal then dy else 0) + (if vertical then dx else 0) }

/-- The next `count` steps, with the one it starts from. -/
def LineStep.run (dx dy sx sy : Int) : Nat → LineStep → List LineStep
  | 0, s => [s]
  | n + 1, s => s :: run dx dy sx sy n (s.advance dx dy sx sy)

/-- Does something at every step from `s` on, until one stands at the goal. A line that does not
meet it within `count` steps gives nothing. -/
def LineStep.along? {α : Type} (goal : Int × Int) (next : LineStep → Option LineStep)
    (visit : α → Int × Int → Option α) (count : Nat) (s : LineStep) (a : α) : Option α := do
  let b ← visit a (s.x, s.y)
  if s.x = goal.1 ∧ s.y = goal.2 then some b
  else
    match count with
    | 0 => none
    | n + 1 =>
      let t ← next s
      along? goal next visit n t b

/-- The pixels of a line from one point to another: one for each step along the longer axis. -/
def lineCenters (x1 y1 x2 y2 : Int) : List (Int × Int) :=
  let dx := (x2 - x1).natAbs
  let dy := (y2 - y1).natAbs
  (LineStep.run dx (-dy) (sign x1 x2) (sign y1 y2) (max dx dy) ⟨x1, y1, (dx : Int) - dy⟩).map
    fun s => (s.x, s.y)

/-- The part of a segment, as an interval of its parameter, that has been kept. -/
structure Kept where
  start : Float := 0
  stop : Float := 1

/-- Keeps what lies on the inner side of one edge: `p` is the speed toward the edge and `q` the
distance to it. -/
def Kept.clip (k : Kept) (p q : Float) : Option Kept :=
  if p == 0 then if q < 0 then none else some k
  else
    let r := q / p
    if p < 0 then
      if k.stop < r then none else some { k with start := if k.start < r then r else k.start }
    else
      if r < k.start then none else some { k with stop := if r < k.stop then r else k.stop }

/-- The segment clipped to the box that exceeds the canvas by `grow` on all sides. Endpoints
inside the box are kept as they are. -/
def clipSegment (c : Canvas) (grow x1 y1 x2 y2 : Int) : Option ((Int × Int) × (Int × Int)) := do
  let xmin := -grow
  let ymin := -grow
  let xmax := c.width - 1 + grow
  let ymax := c.height - 1 + grow
  let fx := Float.ofInt x1
  let fy := Float.ofInt y1
  let dx := Float.ofInt (x2 - x1)
  let dy := Float.ofInt (y2 - y1)
  let k ← Kept.clip {} (-dx) (fx - Float.ofInt xmin)
  let k ← k.clip dx (Float.ofInt xmax - fx)
  let k ← k.clip (-dy) (fy - Float.ofInt ymin)
  let k ← k.clip dy (Float.ofInt ymax - fy)
  let point (t : Float) : Int × Int :=
    (max xmin (min xmax (fx + t * dx).round.toInt64.toInt),
     max ymin (min ymax (fy + t * dy).round.toInt64.toInt))
  some (if 0 < k.start then point k.start else (x1, y1),
    if k.stop < 1 then point k.stop else (x2, y2))

/-- A line drawn with a square brush, which reaches half the thickness to all sides of its
center. A brush of negative reach draws nothing. -/
def drawLine (c : Canvas) (x1 y1 x2 y2 : Int) (rgb : Nat) (thickness : Int) : Canvas :=
  let radius := min (thickness.tdiv 2) (max c.width c.height)
  if radius < 0 then c
  else
    match c.clipSegment radius x1 y1 x2 y2 with
    | none => c
    | some (a, b) =>
      (lineCenters a.1 a.2 b.1 b.2).foldl
        (fun c p => c.stamp radius (opaqueColor rgb) p.1 p.2) c

def bytesOf (argb : UInt32) : List Nat :=
  let n := argb.toNat
  [n % 256, n / 256 % 256, n / 65536 % 256, n / 16777216]

def bytes (c : Canvas) : List Nat := c.pixels.toList.flatMap bytesOf

end Canvas
end ScreenMarkup
