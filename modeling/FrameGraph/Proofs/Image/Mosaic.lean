import FrameGraph.Proofs.Image.Sound
import FrameGraph.Session.Evaluate

/-!
# The picture of a mosaic

The name of a Bayer pattern spells the colours of the four sites at the upper left. Interpolation
takes every site for the opposite of the colour that the name spells, red for blue and blue for red.
So the picture of a frame has the right shape, the right green and values that are in range, but the
value of a red site stands in the blue channel, and the red channel there is made of the blue sites
around it.

* `BayerPattern.named`: the colour that the name spells for a site, `site_eq_opposite`: what it is
  taken for.
* `Mosaic.sample_turned`: interpolation with the pattern turned.
* `PixelArray.element_picture`: every element of the picture of a mosaic.
* `Session.display_mosaic`: the picture of a frame.
-/

namespace FrameGraph

/-! ## Colours by name -/

namespace SiteColor

def ofLetter (c : Char) : SiteColor :=
  if c = 'r' then .red else if c = 'b' then .blue else .green

/-- Red and blue exchanged. -/
def opposite : SiteColor → SiteColor
  | .blue => .red
  | .green => .green
  | .red => .blue

theorem opposite_opposite (c : SiteColor) : c.opposite.opposite = c := by cases c <;> rfl

theorem eq_opposite_iff {c d : SiteColor} : c = d.opposite ↔ c.opposite = d := by
  constructor
  · rintro rfl
    exact d.opposite_opposite
  · rintro rfl
    exact c.opposite_opposite.symm

theorem channel_lt (c : SiteColor) : c.channel < 3 := by cases c <;> decide

end SiteColor

namespace BayerPattern

/-- The colour that the name of a pattern spells for a site, row by row from the upper left. -/
def named (p : BayerPattern) (y x : Nat) : SiteColor :=
  .ofLetter (p.name.toList.getD (2 * (y % 2) + x % 2) ' ')

/-- The pattern with red and blue exchanged. -/
def turned : BayerPattern → BayerPattern
  | rggb => bggr
  | bggr => rggb
  | grbg => gbrg
  | gbrg => grbg

/-- The site is taken for the opposite of the named colour. With the pattern turned, it would be
taken for the named one. -/
theorem site_eq_opposite (p : BayerPattern) (y x : Nat) :
    p.site y x = (p.named y x).opposite ∧ p.turned.site y x = p.named y x := by
  have hrow : (y + 1) % 2 = 1 - y % 2 := by omega
  have hcolumn : (x + 1) % 2 = 1 - x % 2 := by omega
  unfold site BayerCode.site named
  rw [hrow, hcolumn]
  rcases Nat.mod_two_eq_zero_or_one y with hy | hy <;>
    rcases Nat.mod_two_eq_zero_or_one x with hx | hx <;>
    rw [hy, hx] <;> cases p <;> decide

theorem site_turned (p : BayerPattern) (y x : Nat) : p.turned.site y x = (p.site y x).opposite := by
  obtain ⟨hsite, hturned⟩ := p.site_eq_opposite y x
  rw [hsite, hturned, SiteColor.opposite_opposite]

end BayerPattern

/-! ## Values of a mosaic -/

namespace Mosaic

variable {m : Mosaic} {low high : Int} {height width : Nat}

/-- The values of all sites lie in a range. -/
def Within (m : Mosaic) (low high : Int) : Prop := ∀ y x, low ≤ m.value y x ∧ m.value y x ≤ high

theorem mean_two (n : Int) : Int.shiftRight (n + 1) 1 = (n + 1) / 2 :=
  Int.shiftRight_eq_div_pow _ 1

theorem mean_four (n : Int) : Int.shiftRight (n + 2) 2 = (n + 2) / 4 :=
  Int.shiftRight_eq_div_pow _ 2

/-- The mean of values in a range is in the range. -/
theorem Within.sample (h : m.Within low high) (y x : Nat) (c : SiteColor) :
    low ≤ m.sample y x c ∧ m.sample y x c ≤ high := by
  have hl := h y (x - 1)
  have hr := h y (x + 1)
  have hu := h (y - 1) x
  have hd := h (y + 1) x
  unfold Mosaic.sample
  dsimp only
  split
  · exact h y x
  · split
    · split
      · rw [horizontal, mean_two]
        omega
      · rw [vertical, mean_two]
        omega
    · split
      · rw [cross, mean_four]
        omega
      · have hul := h (y - 1) (x - 1)
        have hur := h (y - 1) (x + 1)
        have hdl := h (y + 1) (x - 1)
        have hdr := h (y + 1) (x + 1)
        rw [diagonal, mean_four]
        omega

/-- With the pattern turned, every colour gets the value of its opposite. -/
theorem sample_turned (m : Mosaic) (y x : Nat) (c : SiteColor) :
    ({ m with pattern := m.pattern.turned } : Mosaic).sample y x c = m.sample y x c.opposite := by
  have hgreen : ∀ d : SiteColor, d.opposite = .green ↔ d = .green := fun d =>
    SiteColor.eq_opposite_iff.symm
  unfold sample
  simp only [BayerPattern.site_turned, SiteColor.eq_opposite_iff, hgreen]
  rfl

theorem inside_of_interior {size k : Nat} (hk : 0 < k) (hsize : k + 1 < size) :
    inside size k = k := by
  unfold inside
  omega

/-! ## Rows -/

/-- A place in a row is a place in all rows together. -/
theorem place_lt {i j n k : Nat} (hi : i < n) (hj : j < k) : i * k + j < n * k := by
  calc i * k + j < (i + 1) * k := by rw [Nat.succ_mul]; omega
    _ ≤ n * k := Nat.mul_le_mul_right k hi

theorem length_flatMap_range {α : Type} {k : Nat} {f : Nat → List α}
    (hf : ∀ i, (f i).length = k) (n : Nat) : ((List.range n).flatMap f).length = n * k := by
  simp only [List.length_flatMap, hf, List.map_const', List.length_range, List.sum_replicate_nat]

/-- An element of rows of the same length, one after the other. -/
theorem getElem?_flatMap_range {α : Type} {k : Nat} {f : Nat → List α}
    (hf : ∀ i, (f i).length = k) {n i j : Nat} (hi : i < n) (hj : j < k) :
    ((List.range n).flatMap f)[i * k + j]? = (f i)[j]? := by
  induction n with
  | zero => exact absurd hi (Nat.not_lt_zero i)
  | succ n ih =>
    rw [List.range_succ, List.flatMap_append, List.flatMap_singleton]
    have hlength := length_flatMap_range hf n
    rcases Nat.lt_succ_iff_lt_or_eq.mp hi with hi | rfl
    · have hplace := place_lt hi hj
      rw [List.getElem?_append_left (by omega), ih hi]
    · rw [List.getElem?_append_right (by omega), hlength, Nat.add_sub_cancel_left]

theorem length_picture {α : Type} {k : Nat} {f : Nat → Nat → List α}
    (hf : ∀ y x, (f y x).length = k) (height width : Nat) :
    ((List.range height).flatMap fun y => (List.range width).flatMap (f y)).length =
      height * width * k := by
  rw [length_flatMap_range fun y => length_flatMap_range (hf y) width, Nat.mul_assoc]

/-- An element of a picture in row-major order, with so many elements for every pixel. -/
theorem getElem?_picture {α : Type} {k : Nat} {f : Nat → Nat → List α}
    (hf : ∀ y x, (f y x).length = k) {y x j : Nat} (hy : y < height) (hx : x < width)
    (hj : j < k) :
    ((List.range height).flatMap fun y =>
      (List.range width).flatMap (f y))[(y * width + x) * k + j]? = (f y x)[j]? := by
  have hplace : (y * width + x) * k + j = y * (width * k) + (x * k + j) := by
    rw [Nat.add_mul, Nat.mul_assoc, Nat.add_assoc]
  rw [hplace,
    getElem?_flatMap_range (fun y => length_flatMap_range (hf y) width) hy (place_lt hx hj),
    getElem?_flatMap_range (hf y) hx hj]

theorem length_interpolate (m : Mosaic) (height width : Nat) :
    (m.interpolate height width).length = height * width * 3 :=
  length_picture (k := 3) (fun _ _ => rfl) height width

/-- The value of a colour at every pixel, which at the border is that of the nearest interior
site. -/
theorem getElem?_interpolate (m : Mosaic) (hh : 2 < height) (hw : 2 < width) {y x : Nat}
    (hy : y < height) (hx : x < width) (c : SiteColor) :
    (m.interpolate height width)[(y * width + x) * 3 + c.channel]? =
      some (m.sample (inside height y) (inside width x) c) := by
  have hsize : ¬(height ≤ 2 ∨ width ≤ 2) := by omega
  refine (getElem?_picture (k := 3) (fun _ _ => rfl) hy hx c.channel_lt).trans ?_
  simp only [if_neg hsize]
  cases c <;> rfl

theorem Within.interpolate (h : m.Within low high) (hlow : low ≤ 0) (hhigh : 0 ≤ high) :
    ∀ n ∈ m.interpolate height width, low ≤ n ∧ n ≤ high := by
  intro n hn
  obtain ⟨y, -, hn⟩ := List.mem_flatMap.mp hn
  obtain ⟨x, -, hn⟩ := List.mem_flatMap.mp hn
  obtain ⟨c, -, rfl⟩ := List.mem_map.mp hn
  split
  · exact ⟨hlow, hhigh⟩
  · exact h.sample _ _ c

end Mosaic

/-! ## Pictures -/

namespace PixelArray

variable {a : PixelArray} {p : BayerPattern} {height width y x : Nat}

/-- An element of an image by its row, its column and its channel. -/
def element (a : PixelArray) (y x channel : Nat) : Value :=
  a.data.getD ((y * a.width + x) * a.channels + channel) default

/-- An image with one channel. -/
def IsPlane (a : PixelArray) (height width : Nat) : Prop :=
  a.shape = [height, width] ∨ a.shape = [height, width, 1]

namespace IsPlane

theorem height_eq (h : a.IsPlane height width) : a.height = height := by
  rcases h with h | h <;> simp [PixelArray.height, h]

theorem width_eq (h : a.IsPlane height width) : a.width = width := by
  rcases h with h | h <;> simp [PixelArray.width, h]

theorem channels_eq (h : a.IsPlane height width) : a.channels = 1 := by
  rcases h with h | h <;> simp [channels, h]

theorem size_eq (h : a.IsPlane height width) (hs : a.Sound) : a.size = height * width := by
  rw [hs.size]
  rcases h with h | h <;> simp [h, count]

end IsPlane

theorem Sound.within (hs : a.Sound) {low high : Int} (hr : a.type.range? = some (low, high)) :
    (a.mosaic p).Within low high := by
  intro y x
  unfold mosaic
  dsimp only
  by_cases hk : y * a.width + x < a.data.size
  · rw [Array.getD_eq_getD_getElem?, Array.getElem?_eq_getElem hk]
    obtain ⟨n, hn, hbounds⟩ := hs.holds _ (Array.getElem_mem hk) low high hr
    rw [Option.getD_some, hn]
    exact hbounds
  · rw [Array.getD_eq_getD_getElem?, Array.getElem?_eq_none (by omega)]
    exact ElementType.zero_of_range? hr

/-- The value of a site inside the array is the element there. -/
theorem Sound.mosaic_value (hs : a.Sound) {low high : Int}
    (hr : a.type.range? = some (low, high)) (ha : a.IsPlane height width) (hy : y < height)
    (hx : x < width) : a.element y x 0 = .int ((a.mosaic p).value y x) := by
  have hk : y * a.width + x < a.data.size := by
    change _ < a.size
    rw [ha.size_eq hs, ha.width_eq]
    exact Mosaic.place_lt hy hx
  obtain ⟨n, hn, -⟩ := hs.holds _ (Array.getElem_mem hk) low high hr
  unfold element mosaic
  rw [ha.channels_eq, Nat.mul_one, Nat.add_zero]
  dsimp only
  rw [Array.getD_eq_getD_getElem?, Array.getElem?_eq_getElem hk, Option.getD_some, hn]
  rfl

/-- The image that interpolation makes of a plane. -/
def picture (a : PixelArray) (p : BayerPattern) (height width : Nat) : PixelArray :=
  ⟨[height, width, 3], a.type,
    (((a.mosaic p).interpolate height width).map Value.int).toArray⟩

theorem demosaic_eq (ha : a.IsPlane height width) :
    a.demosaic p = .ok (a.picture p height width) := by
  unfold demosaic withThree picture
  rw [ha.channels_eq, ha.height_eq, ha.width_eq]
  rfl

theorem picture_sound (hs : a.Sound) : (a.picture p height width).Sound := by
  refine ⟨?_, ?_⟩
  · simp [picture, size, Mosaic.length_interpolate, count]
  · intro v hv low high hr
    obtain ⟨n, hn, rfl⟩ := List.mem_map.mp (List.mem_toArray.mp hv)
    obtain ⟨hlow, hhigh⟩ := ElementType.zero_of_range? hr
    exact ⟨n, rfl, (hs.within hr).interpolate hlow hhigh n hn⟩

theorem element_picture (hh : 2 < height) (hw : 2 < width) (hy : y < height) (hx : x < width)
    (c : SiteColor) : (a.picture p height width).element y x c.channel =
      .int ((a.mosaic p).sample (Mosaic.inside height y) (Mosaic.inside width x) c) := by
  change (((a.mosaic p).interpolate height width).map Value.int).toArray.getD
    ((y * width + x) * 3 + c.channel) default = _
  rw [Array.getD_eq_getD_getElem?, List.getElem?_toArray, List.getElem?_map,
    Mosaic.getElem?_interpolate _ hh hw hy hx]
  rfl

end PixelArray

namespace Session

variable {m : Message} {p : BayerPattern} {height width : Nat}

theorem display_eq_picture (hm : m.content = .frame .rawBayer (some p))
    (hplane : m.data.IsPlane height width) (hs : m.data.Sound)
    (htype : m.data.type = .uint8 ∨ m.data.type = .uint16) (hh : 2 < height) (hw : 2 < width) :
    display m = .ok (m.data.picture p height width) := by
  have hsize : m.data.size ≠ 0 := by
    rw [hplane.size_eq hs]
    exact Nat.mul_ne_zero (by omega) (by omega)
  have hconvertible : m.data.convertible [.uint8, .uint16] = true := by
    rcases htype with h | h <;> simp [PixelArray.convertible, h, hsize]
  unfold display PixelArray.display
  rw [hm]
  dsimp only
  rw [if_pos hconvertible, PixelArray.demosaic_eq hplane]

/-- The picture of a frame with a Bayer pattern has the value of every interior site in the channel
of the opposite of the colour that the pattern names for the site. It is the picture that
interpolation makes of the sites as they are named, but with red and blue exchanged. -/
theorem display_mosaic (hm : m.content = .frame .rawBayer (some p))
    (hplane : m.data.IsPlane height width) (hs : m.data.Sound)
    (htype : m.data.type = .uint8 ∨ m.data.type = .uint16) (hh : 2 < height) (hw : 2 < width) :
    ∃ shown, display m = .ok shown ∧ shown.shape = [height, width, 3] ∧
      shown.type = m.data.type ∧ shown.Sound ∧
      (∀ y x, 0 < y → y + 1 < height → 0 < x → x + 1 < width →
        shown.element y x (p.named y x).opposite.channel = m.data.element y x 0) ∧
      ∃ q : BayerPattern, (∀ y x, q.site y x = p.named y x) ∧
        ∀ y x c, y < height → x < width → shown.element y x c.opposite.channel =
          .int ((m.data.mosaic q).sample (Mosaic.inside height y) (Mosaic.inside width x) c) := by
  refine ⟨_, display_eq_picture hm hplane hs htype hh hw, rfl, rfl, PixelArray.picture_sound hs,
    fun y x hy hyh hx hxw => ?_, p.turned, fun y x => (p.site_eq_opposite y x).2,
    fun y x c hy hx => ?_⟩
  · obtain ⟨low, high, hr⟩ : ∃ low high, m.data.type.range? = some (low, high) := by
      rcases htype with h | h <;> exact ⟨_, _, congrArg ElementType.range? h⟩
    have hsite : (m.data.mosaic p).pattern.site y x = (p.named y x).opposite :=
      (p.site_eq_opposite y x).1
    rw [PixelArray.element_picture hh hw (by omega) (by omega), Mosaic.inside_of_interior hy hyh,
      Mosaic.inside_of_interior hx hxw, ← hsite, Mosaic.sample_own]
    exact (hs.mosaic_value hr hplane (by omega) (by omega)).symm
  · rw [PixelArray.element_picture hh hw hy hx]
    exact congrArg Value.int ((m.data.mosaic p).sample_turned _ _ c).symm

/-- A scene of one colour, with the value 200 in red, 100 in green and 50 in blue, as the sites that
the pattern names see it. -/
def evenScene : Message where
  data := ⟨[4, 4], .uint8, ([200, 100, 200, 100,
                             100, 50, 100, 50,
                             200, 100, 200, 100,
                             100, 50, 100, 50].map Value.int).toArray⟩
  timestamp := Message.defaultTimestamp
  sequence := Message.defaultSequence
  metadata := .dict []
  content := .frame .rawBayer (some .rggb)

theorem evenScene_sound : evenScene.data.Sound :=
  PixelSource.array_sound (s := .elements [4, 4] .uint8 (.list evenScene.data.data.toList)) rfl

/-- The red site in the middle of the scene has its value in the blue channel, and at the upper left
the border has the colour of the scene with red and blue exchanged. -/
theorem evenScene_mosaic : ∃ shown, display evenScene = .ok shown ∧
    BayerPattern.rggb.named 2 2 = .red ∧ evenScene.data.element 2 2 0 = .int 200 ∧
    shown.element 2 2 SiteColor.blue.channel = .int 200 ∧
    ∃ q : BayerPattern, (∀ y x, q.site y x = BayerPattern.rggb.named y x) ∧
      shown.element 0 0 SiteColor.red.channel =
        .int ((evenScene.data.mosaic q).sample 1 1 .blue) := by
  have hplane : evenScene.data.IsPlane 4 4 := .inl rfl
  obtain ⟨shown, hshown, -, -, -, hown, q, hq, hsamples⟩ := display_mosaic (m := evenScene)
    (p := .rggb) rfl hplane evenScene_sound (.inl rfl) (by decide) (by decide)
  exact ⟨shown, hshown, by decide, rfl,
    hown 2 2 (by decide) (by decide) (by decide) (by decide), q, hq,
    hsamples 0 0 .blue (by decide) (by decide)⟩

/-- The channel of the colour that the pattern names for a site does not have the value of the
site. -/
theorem evenScene_exchanged : ∃ shown, display evenScene = .ok shown ∧
    evenScene.data.element 1 1 0 = .int 50 ∧
    shown.element 1 1 (BayerPattern.rggb.named 1 1).channel = .int 200 :=
  ⟨_, rfl, rfl, rfl⟩

end Session

end FrameGraph
