import ScreenMarkup.Content.Canvas
import ScreenMarkup.Numeric.Leading

/-!
# Canvases in memory

In memory a canvas is a run of bytes, four to a pixel, the lowest first.
Coordinates and colors are 32-bit words, distances are computed in 64 bits,
and bytes are found by an offset. Each of these can fail: an operation gives
nothing when a distance does not fit its word, or when an offset lies outside
the bytes.
-/

set_option autoImplicit false

namespace ScreenMarkup

structure Raster where
  width : Int32
  height : Int32
  bytes : Array UInt8
deriving DecidableEq, Inhabited

namespace Raster

/-! ## Words -/

/-- A result that fits 64 bits with a sign. -/
def word? (n : Int) : Option Int :=
  if Numeric.minInt64 ≤ n ∧ n ≤ Numeric.maxInt64 then some n else none

def maxIndex : Nat := 0xFFFFFFFFFFFFFFFF

/-- A result that fits 64 bits without a sign. -/
def index? (n : Nat) : Option Nat := if n ≤ maxIndex then some n else none

/-- The index with the bits of a word. -/
def asIndex (n : Int) : Nat := (n % ((maxIndex : Int) + 1)).toNat

def saturate (n : Nat) : Nat := min n maxIndex

/-! ## Pixels -/

/-- `0xRRGGBB` without transparency. -/
def opaqueColor (rgb : UInt32) : UInt32 := 0xFF000000 ||| (rgb &&& 0x00FFFFFF)

/-- The bytes of a pixel, the lowest first. -/
def byteOf (argb : UInt32) (i : Nat) : UInt8 := UInt8.ofNat (argb.toNat >>> (8 * i))

def ofBytes (a b c d : UInt8) : UInt32 :=
  UInt32.ofNat (a.toNat + 256 * b.toNat + 65536 * c.toNat + 16777216 * d.toNat)

def contains (r : Raster) (x y : Int32) : Bool := 0 ≤ x && 0 ≤ y && x < r.width && y < r.height

/-- Where the bytes of a pixel start. -/
def offset? (r : Raster) (x y : Int) : Option Nat := do
  let row ← index? (asIndex y * asIndex r.width.toInt)
  let place ← index? (row + asIndex x)
  index? (place * Canvas.bytesPerPixel)

/-- The start of the four bytes of a pixel, if there are four. -/
def place? (r : Raster) (x y : Int) : Option Nat := do
  let start ← r.offset? x y
  let stop ← index? (start + Canvas.bytesPerPixel)
  if stop ≤ r.bytes.size then some start else none

def writePixel (bytes : Array UInt8) (start : Nat) (argb : UInt32) : Array UInt8 :=
  (((bytes.setIfInBounds start (byteOf argb 0)).setIfInBounds (start + 1)
    (byteOf argb 1)).setIfInBounds (start + 2) (byteOf argb 2)).setIfInBounds (start + 3)
    (byteOf argb 3)

def readPixel (bytes : Array UInt8) (start : Nat) : UInt32 :=
  let byte (i : Nat) : UInt8 := bytes[start + i]?.getD 0
  ofBytes (byte 0) (byte 1) (byte 2) (byte 3)

def put? (r : Raster) (x y : Int) (argb : UInt32) : Option Raster := do
  let start ← r.place? x y
  some { r with bytes := writePixel r.bytes start argb }

/-- The pixel at a point, which may be outside. -/
def pixelAt? (r : Raster) (x y : Int32) : Option (Option UInt32) :=
  if r.contains x y then do
    let start ← r.place? x.toInt y.toInt
    some (some (readPixel r.bytes start))
  else some none

/-! ## Drawing -/

/-- Four bytes after the other, and the rest as it is. -/
def clear (r : Raster) (rgb : UInt32) : Raster :=
  { r with
    bytes := Array.ofFn fun i : Fin r.bytes.size =>
      if i < r.bytes.size / Canvas.bytesPerPixel * Canvas.bytesPerPixel then
        byteOf (opaqueColor rgb) (i % Canvas.bytesPerPixel)
      else r.bytes[i] }

/-- A raster of one color, unless its size is not positive or too large, or memory does not
grant it. -/
def tryNew (width height : Int32) (background : UInt32) (limit : Nat) (granted : Nat → Bool) :
    Except Failure Raster :=
  let requested :=
    saturate (saturate (width.toInt.toNat * height.toInt.toNat) * Canvas.bytesPerPixel)
  if width ≤ 0 ∨ height ≤ 0 ∨ limit < requested then .error (.canvasAllocation requested)
  else if granted requested then
    .ok (clear ⟨width, height, Array.replicate requested 0⟩ background)
  else .error (.canvasAllocation requested)

/-- Does something at `count` places from `i` on. -/
def loop? (f : Int → Raster → Option Raster) : (count : Nat) → (i : Int) → Raster → Option Raster
  | 0, _, r => some r
  | n + 1, i, r => (f i r).bind (loop? f n (i + 1))

/-- Does something at all places from the first to the last. -/
def range? (f : Int → Raster → Option Raster) (first last : Int) (r : Raster) : Option Raster :=
  loop? f (last + 1 - first).toNat first r

/-- Paints the box from `(x1, y1)` to `(x2, y2)`, both included. -/
def fillSpan? (r : Raster) (x1 y1 x2 y2 : Int) (argb : UInt32) : Option Raster :=
  range? (fun row => range? (fun col r => r.put? col row argb) x1 x2) y1 y2 r

def fillRect? (r : Raster) (x y w h : Int32) (rgb : UInt32) : Option Raster := do
  let x1 := max x.toInt 0
  let y1 := max y.toInt 0
  let right ← word? (x.toInt + w.toInt)
  let x2 ← word? (min right r.width.toInt - 1)
  let bottom ← word? (y.toInt + h.toInt)
  let y2 ← word? (min bottom r.height.toInt - 1)
  if x2 < x1 ∨ y2 < y1 then some r else r.fillSpan? x1 y1 x2 y2 (opaqueColor rgb)

def setPixel? (r : Raster) (x y : Int32) (rgb : UInt32) : Option Raster :=
  if r.contains x y then r.put? x.toInt y.toInt (opaqueColor rgb) else some r

/-- Paints a pixel of a row that is at most a radius away from a center; `dy` is how far away the
row is. -/
def putWithin? (cx radius : Int) (argb : UInt32) (row dy col : Int) (r : Raster) :
    Option Raster := do
  let dx ← word? (col - cx)
  let dx2 ← word? (dx * dx)
  let dy2 ← word? (dy * dy)
  let distance ← word? (dx2 + dy2)
  let reach ← word? (radius * radius)
  if distance ≤ reach then r.put? col row argb else some r

def fillCircle? (r : Raster) (x y radius : Int32) (rgb : UInt32) : Option Raster :=
  if radius < 0 then some r
  else do
    let (cx, cy, reach) := (x.toInt, y.toInt, radius.toInt)
    let top ← word? (cy - reach)
    let bottom ← word? (cy + reach)
    let lastRow ← word? (r.height.toInt - 1)
    let left ← word? (cx - reach)
    let right ← word? (cx + reach)
    let lastColumn ← word? (r.width.toInt - 1)
    range? (fun row r => do
        let dy ← word? (row - cy)
        range? (putWithin? cx reach (opaqueColor rgb) row dy) (max left 0) (min right lastColumn) r)
      (max top 0) (min bottom lastRow) r

/-- The square brush around a center, as far as it lies on the raster. -/
def stamp? (radius : Int) (argb : UInt32) (r : Raster) (center : Int × Int) : Option Raster := do
  let left ← word? (center.1 - radius)
  let top ← word? (center.2 - radius)
  let right ← word? (center.1 + radius)
  let bottom ← word? (center.2 + radius)
  let x1 := max left 0
  let y1 := max top 0
  let x2 := min right (r.width.toInt - 1)
  let y2 := min bottom (r.height.toInt - 1)
  if x1 ≤ x2 ∧ y1 ≤ y2 then r.fillSpan? x1 y1 x2 y2 argb else some r

/-- One step along a line, in words. -/
def advance? (dx dy sx sy : Int) (s : Canvas.LineStep) : Option Canvas.LineStep := do
  let twice ← word? (2 * s.err)
  let t ←
    if dy ≤ twice then do
      let err ← word? (s.err + dy)
      let x ← word? (s.x + sx)
      some { s with x, err }
    else some s
  if twice ≤ dx then do
    let err ← word? (t.err + dx)
    let y ← word? (t.y + sy)
    some { t with y, err }
  else some t

/-- Stamps the brush along a line from one point to another. -/
def stampLine? (radius : Int) (argb : UInt32) (a b : Int × Int) (r : Raster) : Option Raster := do
  let across ← word? (b.1 - a.1)
  let dx ← word? across.natAbs
  let down ← word? (b.2 - a.2)
  let dy ← word? down.natAbs
  let err ← word? (dx - dy)
  Canvas.LineStep.along? b (advance? dx (-dy) (Canvas.sign a.1 b.1) (Canvas.sign a.2 b.2))
    (stamp? radius argb) (max dx dy).toNat ⟨a.1, a.2, err⟩ r

/-- The raster as a grid of pixels. -/
def canvas (r : Raster) : Canvas where
  width := r.width.toInt.toNat
  height := r.height.toInt.toNat
  pixels := Vector.ofFn fun i => readPixel r.bytes (i.val * Canvas.bytesPerPixel)

def drawLine? (r : Raster) (x1 y1 x2 y2 : Int32) (rgb : UInt32) (thickness : Int32) :
    Option Raster :=
  let radius := min (thickness.toInt.tdiv 2) (max r.width.toInt r.height.toInt)
  if radius < 0 then some r
  else
    match r.canvas.clipSegment radius x1.toInt y1.toInt x2.toInt y2.toInt with
    | none => some r
    | some (a, b) => r.stampLine? radius (opaqueColor rgb) a b

end Raster

/-- Drawing that fills an area: everything, a box, a point or a disc. -/
inductive Draw where
  | clear (rgb : UInt32)
  | fillRect (x y w h : Int32) (rgb : UInt32)
  | setPixel (x y : Int32) (rgb : UInt32)
  | fillCircle (x y radius : Int32) (rgb : UInt32)
deriving DecidableEq, Inhabited

namespace Draw

def perform? (d : Draw) (r : Raster) : Option Raster :=
  match d with
  | clear rgb => some (r.clear rgb)
  | fillRect x y w h rgb => r.fillRect? x y w h rgb
  | setPixel x y rgb => r.setPixel? x y rgb
  | fillCircle x y radius rgb => r.fillCircle? x y radius rgb

end Draw

/-- Draws one thing after the other. -/
def Raster.draw? (r : Raster) (ds : List Draw) : Option Raster :=
  ds.foldlM (fun r d => d.perform? r) r

end ScreenMarkup
