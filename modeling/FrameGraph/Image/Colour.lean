import FrameGraph.Image.Pixels

/-!
# Colour conversion

A frame is shown with three channels in the order blue, green, red, or with one channel for grey
levels. Formats that are already in that order are copied. Colours in the opposite order are
swapped, luminance and chrominance are converted with fourteen fractional bits, and a Bayer mosaic
is interpolated bilinearly from the neighbours of each site.

* `BayerPattern.code`: the conversion for every pattern.
* `Mosaic.sample_own`: an interior site keeps its own value in the channel of its own colour.
-/

namespace FrameGraph

/-- The layout of a frame's channels. -/
inductive ColorFormat where
  | rawBayer
  | rawMono
  | rgb
  | bgr
  | yuv
  | gray
  deriving DecidableEq, Repr, Inhabited

namespace ColorFormat

def all : List ColorFormat := [rawBayer, rawMono, rgb, bgr, yuv, gray]

def name : ColorFormat → String
  | rawBayer => "raw_bayer"
  | rawMono => "raw_mono"
  | rgb => "rgb"
  | bgr => "bgr"
  | yuv => "yuv"
  | gray => "gray"

def ofName? (s : String) : Option ColorFormat := all.find? fun f => f.name == s

end ColorFormat

/-- The colour of a site of a mosaic. -/
inductive SiteColor where
  | blue
  | green
  | red
  deriving DecidableEq, Repr, Inhabited

def SiteColor.channel : SiteColor → Nat
  | .blue => 0
  | .green => 1
  | .red => 2

/-- A conversion of mosaics, named by the colours of the second and the third site of the second
row. -/
inductive BayerCode where
  | bg
  | gb
  | rg
  | gr
  deriving DecidableEq, Repr, Inhabited

namespace BayerCode

/-- The parities of the row and the column of the sites that are blue; the red ones have both opposite
parities. -/
def blueSite : BayerCode → Nat × Nat
  | rg => (0, 0)
  | gr => (0, 1)
  | gb => (1, 0)
  | bg => (1, 1)

/-- The colour for which the conversion takes a site. -/
def site (code : BayerCode) (y x : Nat) : SiteColor :=
  if (y % 2, x % 2) = code.blueSite then .blue
  else if ((y + 1) % 2, (x + 1) % 2) = code.blueSite then .red
  else .green

end BayerCode

/-- The colours of the four sites at the upper left of a mosaic, row by row. -/
inductive BayerPattern where
  | rggb
  | grbg
  | gbrg
  | bggr
  deriving DecidableEq, Repr, Inhabited

namespace BayerPattern

def all : List BayerPattern := [rggb, grbg, gbrg, bggr]

def name : BayerPattern → String
  | rggb => "rggb"
  | grbg => "grbg"
  | gbrg => "gbrg"
  | bggr => "bggr"

def ofName? (s : String) : Option BayerPattern := all.find? fun p => p.name == s

/-- The conversion by which a frame of the pattern is shown. -/
def code : BayerPattern → BayerCode
  | rggb => .rg
  | grbg => .gr
  | gbrg => .gb
  | bggr => .bg

/-- The colour for which a site is taken when a frame of the pattern is shown. -/
def site (p : BayerPattern) (y x : Nat) : SiteColor := p.code.site y x

end BayerPattern

/-! ## Interpolation of a mosaic -/

structure Mosaic where
  pattern : BayerPattern
  value : Nat → Nat → Int

namespace Mosaic

def horizontal (m : Mosaic) (y x : Nat) : Int :=
  Int.shiftRight (m.value y (x - 1) + m.value y (x + 1) + 1) 1

def vertical (m : Mosaic) (y x : Nat) : Int :=
  Int.shiftRight (m.value (y - 1) x + m.value (y + 1) x + 1) 1

/-- The mean of the four nearest neighbours. -/
def cross (m : Mosaic) (y x : Nat) : Int :=
  Int.shiftRight
    (m.value y (x - 1) + m.value y (x + 1) + (m.value (y - 1) x + m.value (y + 1) x) + 2) 2

/-- The mean of the four diagonal neighbours. -/
def diagonal (m : Mosaic) (y x : Nat) : Int :=
  Int.shiftRight (m.value (y - 1) (x - 1) + m.value (y - 1) (x + 1) + m.value (y + 1) (x - 1) +
    m.value (y + 1) (x + 1) + 2) 2

/-- The value of a colour at an interior site. At a green site the colour of the horizontal
neighbours comes from these and the third colour from the vertical ones; at another site green comes
from the cross and the third colour from the diagonals. -/
def sample (m : Mosaic) (y x : Nat) (c : SiteColor) : Int :=
  let own := m.pattern.site y x
  if c = own then m.value y x
  else if own = .green then
    if c = m.pattern.site y (x + 1) then m.horizontal y x else m.vertical y x
  else if c = .green then m.cross y x
  else m.diagonal y x

theorem sample_own (m : Mosaic) (y x : Nat) : m.sample y x (m.pattern.site y x) = m.value y x := by
  simp [sample]

/-- A row or column at the border takes the values of its inner neighbour. -/
def inside (size k : Nat) : Nat := min (max k 1) (size - 2)

/-- The blue, green and red values of every site in row-major order. A mosaic without interior sites
is black. -/
def interpolate (m : Mosaic) (height width : Nat) : List Int :=
  (List.range height).flatMap fun y => (List.range width).flatMap fun x =>
    [SiteColor.blue, .green, .red].map fun c =>
      if height ≤ 2 ∨ width ≤ 2 then 0 else m.sample (inside height y) (inside width x) c

end Mosaic

/-! ## Conversions -/

def Value.toInt : Value → Int
  | .int n => n
  | _ => 0

def clamp (low high n : Int) : Int := max low (min high n)

/-- Blue, green and red from luminance and the two chrominances, of which `half` is the zero. All
factors have fourteen fractional bits. -/
def lumaToBgr (half high y u v : Int) : List Int :=
  let u := u - half
  let v := v - half
  [y + Int.shiftRight (33292 * u + 8192) 14,
    y + Int.shiftRight (-6472 * u - 9519 * v + 8192) 14,
    y + Int.shiftRight (18678 * v + 8192) 14].map (clamp 0 high)

namespace PixelArray

/-- The number of channels: one for a plane. -/
def channels (a : PixelArray) : Nat :=
  match a.shape with
  | [_, _, c] => c
  | _ => 1

def height (a : PixelArray) : Nat := a.shape.headD 0

def width (a : PixelArray) : Nat := (a.shape.drop 1).headD 0

/-- The elements of the site number `k` of an array with the given number of channels. -/
def siteElements (a : PixelArray) (channels k : Nat) : List Value :=
  (List.range channels).map fun c => a.data.getD (k * channels + c) default

/-- An array of the same height, width and type with three channels. -/
def withThree (a : PixelArray) (data : List Value) : PixelArray :=
  ⟨[a.height, a.width, 3], a.type, data.toArray⟩

def sites (a : PixelArray) : List Nat := List.range (a.height * a.width)

/-- Red, green, blue to blue, green, red; a fourth channel is dropped and a single one repeated. -/
def swapChannels (a : PixelArray) : Except Fault PixelArray :=
  match a.channels with
  | 1 => .ok (a.withThree (a.sites.flatMap fun k => List.replicate 3 (a.data.getD k default)))
  | 3 => .ok (a.withThree (a.sites.flatMap fun k => (a.siteElements 3 k).reverse))
  | 4 => .ok (a.withThree (a.sites.flatMap fun k => ((a.siteElements 4 k).take 3).reverse))
  | _ => .error .conversion

/-- Luminance and chrominance to blue, green, red. -/
def fromLuma (a : PixelArray) : Except Fault PixelArray :=
  match a.channels, a.type.range? with
  | 3, some (_, high) =>
    .ok (a.withThree (a.sites.flatMap fun k =>
      match (a.siteElements 3 k).map Value.toInt with
      | [y, u, v] => (lumaToBgr ((high + 1) / 2) high y u v).map Value.int
      | _ => []))
  | _, _ => .error .conversion

def mosaic (a : PixelArray) (pattern : BayerPattern) : Mosaic :=
  ⟨pattern, fun y x => (a.data.getD (y * a.width + x) default).toInt⟩

def demosaic (a : PixelArray) (pattern : BayerPattern) : Except Fault PixelArray :=
  match a.channels with
  | 1 => .ok (a.withThree (((a.mosaic pattern).interpolate a.height a.width).map Value.int))
  | _ => .error .conversion

/-- Whether a conversion accepts the array: it has elements, of one of the given types. -/
def convertible (a : PixelArray) (types : List ElementType) : Bool :=
  a.size != 0 && types.contains a.type

def display (a : PixelArray) (format : ColorFormat) (pattern : Option BayerPattern) :
    Except Fault PixelArray :=
  match format with
  | .rgb => if a.convertible [.uint8, .uint16, .float32] then a.swapChannels else .error .conversion
  | .yuv => if a.convertible [.uint8, .uint16] then a.fromLuma else .error .conversion
  | .rawBayer =>
    match pattern with
    | some p => if a.convertible [.uint8, .uint16] then a.demosaic p else .error .conversion
    | none => .error .conversion
  | _ => .ok a

end PixelArray

end FrameGraph
