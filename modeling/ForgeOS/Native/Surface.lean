import Mathlib.Data.List.Nodup
import Mathlib.Logic.Function.Basic
import ForgeOS.Library.Slices
import ForgeOS.Native.Scalars

/-! The surface of the browser: a dump of a screen that is mapped into memory, `forge_surface_open`
and `forge_surface_draw`. The header of the file is not trusted. A `size_t` has any number of bits,
32 at least, and what is computed in one wraps; an `unsigned` has 32. The connection to the server of
the screen is left out. -/

namespace ForgeOS.Native.Surface

open ForgeOS.Library.Slices

/-! ### Numbers in bytes -/

/-- `forge_surface_be32` -/
def be32 (bytes : Bytes) (start : ℕ) : ℕ :=
  (slice bytes start 4).foldl (fun v c => 256 * v + c.toNat) 0

/-- `forge_surface_le32` -/
def le32 (bytes : Bytes) (start : ℕ) : ℕ :=
  (slice bytes start 4).foldr (fun c v => c.toNat + 256 * v) 0

def unsigned (n : ℕ) : ℕ := n % 2 ^ 32

/-- A value of type `size_t`. -/
def size (bits n : ℕ) : ℕ := n % 2 ^ bits

/-! ### `forge_surface_open` -/

/-- What is kept of `ForgeSurface`: the mapped file and the image in it. -/
structure ForgeSurface where
  mapSize : ℕ
  image : ℕ
  line : ℕ
  sourceWidth : ℕ
  sourceHeight : ℕ
  sourceLittle : Bool
  deriving DecidableEq, Repr

/-- `32 * 1024 * 1024` -/
def largest : ℕ := 33554432

/-- The header is one of a dump of 24 bits in 32, of a picture that is not too large. -/
def format (h : Bytes) : Bool :=
  be32 h 4 == 7 && be32 h 12 == 24 && be32 h 28 ≤ 1 && be32 h 8 == 2 && be32 h 44 == 32 &&
    be32 h 52 == 4 && be32 h 16 != 0 && be32 h 20 != 0 && be32 h 16 ≤ 2048 && be32 h 20 ≤ 2048 &&
    be32 h 56 == 0xff0000 && be32 h 60 == 0xff00 && be32 h 64 == 0xff

/-- `forge_surface_open`, for a regular file of this size with these first hundred bytes. -/
def openSurface (bits fileSize : ℕ) (h : Bytes) : Option ForgeSurface :=
  if fileSize < 100 ∨ largest < fileSize then none
  else
    let width := be32 h 16
    let height := be32 h 20
    let line := be32 h 48
    let image := be32 h 0
    let offset := (image + be32 h 76 * 12) % 2 ^ 64
    if 2 ^ bits - 1 < offset ∨ fileSize < offset then none
    else
      let pixels := size bits offset
      if !format h || image < 100 || pixels < image || line < size bits (width * 4) ||
          size bits (size bits (width * 4) + 256) < line ||
          (2 ^ bits - 1 - pixels) / line < height ||
          size bits fileSize < size bits (pixels + size bits (height * line)) then none
      else
        some
          { mapSize := size bits fileSize, image := pixels, line
            sourceWidth := width, sourceHeight := height, sourceLittle := be32 h 28 == 0 }

/-! ### `forge_surface_draw` -/

/-- A pixel that is stored at a place of `rgb`. -/
abbrev PixelStore := ℕ × ℕ

/-- The four bytes at a place of the mapped file, if they lie in it. -/
def read (s : ForgeSurface) (map : Bytes) (p : ℕ) : Option ℕ :=
  if p + 4 ≤ map.length then some (if s.sourceLittle then le32 map p else be32 map p) else none

/-- Where the pixel for `(x, y)` is read: in the same place if the sizes are the same. -/
def source (bits : ℕ) (s : ForgeSurface) (width height x y : ℕ) : ℕ :=
  if s.sourceWidth = width ∧ s.sourceHeight = height then
    size bits (size bits (s.image + size bits (y * s.line)) + 4 * x)
  else
    size bits (s.image + size bits (size bits (unsigned (y * s.sourceHeight) / height) * s.line) +
      size bits (size bits (unsigned (x * s.sourceWidth) / width) * 4))

/-- Where it is stored. -/
def target (bits stride x y : ℕ) : ℕ := size bits (size bits (y * stride) + x)

def drawPixel (bits : ℕ) (s : ForgeSurface) (map : Bytes) (stride width height y x : ℕ) :
    Option PixelStore :=
  (read s map (source bits s width height x y)).map fun v => (target bits stride x y, v % 2 ^ 24)

/-- `forge_surface_draw` on what the mapped file holds, with its stores in their order. There is no
result where it would read outside of the mapped file. -/
def draw (bits : ℕ) (s : ForgeSurface) (map : Bytes) (stride width height : ℕ) :
    Option (ℤ × List PixelStore) :=
  if width = 0 ∨ height = 0 ∨ 2048 < width ∨ 2048 < height ∨ stride < width then some (-1, [])
  else do
    let rows ← (List.range height).mapM fun y =>
      (List.range width).mapM (drawPixel bits s map stride width height y)
    return (0, rows.flatten)

/-- What is in `rgb` after the stores. -/
def paint (stores : List PixelStore) (rgb : ℕ → ℕ) : ℕ → ℕ :=
  stores.foldl (fun rgb w => Function.update rgb w.1 w.2) rgb

/-- The pixel of the image in this row and column. -/
def ForgeSurface.pixel (s : ForgeSurface) (map : Bytes) (row column : ℕ) : ℕ :=
  let p := s.image + row * s.line + column * 4
  (if s.sourceLittle then le32 map p else be32 map p) % 2 ^ 24

/-! ### What is accepted -/

/-- The image lies in the file, row by row. -/
structure ForgeSurface.Fits (s : ForgeSurface) (fileSize : ℕ) : Prop where
  map : s.mapSize = fileSize
  file : fileSize ≤ largest
  width : 0 < s.sourceWidth ∧ s.sourceWidth ≤ 2048
  height : 0 < s.sourceHeight ∧ s.sourceHeight ≤ 2048
  row : s.sourceWidth * 4 ≤ s.line
  image : s.image + s.sourceHeight * s.line ≤ fileSize

theorem size_of_lt {bits n : ℕ} (h : n < 2 ^ bits) : size bits n = n := Nat.mod_eq_of_lt h

theorem openSurface_fits {bits fileSize : ℕ} {h : Bytes} {s : ForgeSurface} (hbits : 32 ≤ bits)
    (hopen : openSurface bits fileSize h = some s) : s.Fits fileSize := by
  have hpow : 2 ^ 32 ≤ 2 ^ bits := Nat.pow_le_pow_right (by omega) hbits
  unfold openSurface at hopen
  dsimp only at hopen
  split_ifs at hopen with hfile hoffset hbad
  obtain rfl := Option.some.inj hopen
  have hlargest : fileSize ≤ largest := by omega
  simp only [Bool.or_eq_true, Bool.not_eq_true', decide_eq_true_eq, not_or, Bool.not_eq_false,
    Nat.not_lt] at hbad
  obtain ⟨⟨⟨⟨⟨⟨hformat, -⟩, -⟩, hrow⟩, hline⟩, -⟩, hend⟩ := hbad
  simp only [format, Bool.and_eq_true, bne_iff_ne, decide_eq_true_eq] at hformat
  obtain ⟨⟨⟨⟨⟨⟨⟨-, hwidth⟩, hheight⟩, hwidth'⟩, hheight'⟩, -⟩, -⟩, -⟩ := hformat
  have hlarge : largest = 33554432 := rfl
  have hpixels : size bits ((be32 h 0 + be32 h 76 * 12) % 2 ^ 64) =
      (be32 h 0 + be32 h 76 * 12) % 2 ^ 64 := size_of_lt (by omega)
  have hfour : size bits (be32 h 16 * 4) = be32 h 16 * 4 := size_of_lt (by omega)
  have hlimit : size bits (be32 h 16 * 4 + 256) = be32 h 16 * 4 + 256 := size_of_lt (by omega)
  rw [hfour] at hrow hline
  rw [hlimit] at hline
  have hproduct : be32 h 20 * be32 h 48 ≤ 2048 * 8448 := Nat.mul_le_mul hheight' (by omega)
  have hrows : size bits (be32 h 20 * be32 h 48) = be32 h 20 * be32 h 48 := size_of_lt (by omega)
  rw [hpixels, hrows, size_of_lt (by omega), size_of_lt (by omega)] at hend
  exact
    { map := size_of_lt (by omega)
      file := hlargest
      width := ⟨Nat.pos_of_ne_zero hwidth, hwidth'⟩
      height := ⟨Nat.pos_of_ne_zero hheight, hheight'⟩
      row := by
        rw [Nat.mul_comm] at hrow ⊢
        exact hrow
      image := by
        dsimp only
        rw [hpixels]
        exact hend }

/-! ### What is read and where it is stored -/

/-- A place between the first and the last is scaled to one between those of the other size. -/
theorem scaled_lt {y height sourceHeight : ℕ} (hy : y < height) (hsource : 0 < sourceHeight) :
    y * sourceHeight / height < sourceHeight := by
  have hheight : 0 < height := by omega
  rw [Nat.div_lt_iff_lt_mul hheight, Nat.mul_comm sourceHeight]
  exact Nat.mul_lt_mul_of_pos_right hy hsource

section Draw

variable {bits fileSize : ℕ} {s : ForgeSurface} {width height x y : ℕ}

/-- The last byte of a pixel is in the file. -/
theorem ForgeSurface.Fits.inside (h : s.Fits fileSize) {row column : ℕ} (hrow : row < s.sourceHeight)
    (hcolumn : column < s.sourceWidth) :
    s.image + row * s.line + column * 4 + 4 ≤ fileSize := by
  have himage := h.image
  have hline := h.row
  have hlast : (row + 1) * s.line ≤ s.sourceHeight * s.line := Nat.mul_le_mul_right _ hrow
  rw [Nat.succ_mul] at hlast
  omega

/-- Nothing wraps on the way to the place of a pixel. -/
theorem source_eq (hbits : 32 ≤ bits) (h : s.Fits fileSize) (hx : x < width) (hy : y < height)
    (hwidth : width ≤ 2048) (hheight : height ≤ 2048) :
    source bits s width height x y =
      s.image + y * s.sourceHeight / height * s.line + x * s.sourceWidth / width * 4 := by
  have hpow : 2 ^ 32 ≤ 2 ^ bits := Nat.pow_le_pow_right (by omega) hbits
  have hlarge : largest = 33554432 := rfl
  have hfile := h.file
  have hrow := scaled_lt hy h.height.1
  have hcolumn := scaled_lt hx h.width.1
  have hinside := h.inside hrow hcolumn
  have hfits : ∀ {n}, n ≤ fileSize → size bits n = n := fun hn => size_of_lt (by omega)
  unfold source
  split_ifs with hsame
  · obtain ⟨rfl, rfl⟩ := hsame
    rw [Nat.mul_div_cancel _ (by omega), Nat.mul_div_cancel _ (by omega)] at hinside ⊢
    rw [hfits (n := y * s.line) (by omega), hfits (n := s.image + y * s.line) (by omega),
      hfits (by omega), Nat.mul_comm 4]
  · have hy32 : unsigned (y * s.sourceHeight) = y * s.sourceHeight := by
      have hproduct : y * s.sourceHeight ≤ 2048 * 2048 := Nat.mul_le_mul (by omega) h.height.2
      exact Nat.mod_eq_of_lt (by omega)
    have hx32 : unsigned (x * s.sourceWidth) = x * s.sourceWidth := by
      have hproduct : x * s.sourceWidth ≤ 2048 * 2048 := Nat.mul_le_mul (by omega) h.width.2
      exact Nat.mod_eq_of_lt (by omega)
    have hheight' := h.height.2
    have hwidth' := h.width.2
    have hrow' : size bits (y * s.sourceHeight / height) = y * s.sourceHeight / height :=
      size_of_lt (by omega)
    have hcolumn' : size bits (x * s.sourceWidth / width) = x * s.sourceWidth / width :=
      size_of_lt (by omega)
    rw [hy32, hx32, hrow', hcolumn', hfits (n := y * s.sourceHeight / height * s.line) (by omega),
      hfits (n := x * s.sourceWidth / width * 4) (by omega), hfits (by omega)]

/-- A place of the rows that are drawn into. -/
theorem place_lt {stride : ℕ} (hx : x < stride) (hy : y < height) :
    y * stride + x < height * stride := by
  have hlast : (y + 1) * stride ≤ height * stride := Nat.mul_le_mul_right _ hy
  rw [Nat.succ_mul] at hlast
  omega

theorem target_eq {stride : ℕ} (hx : x < stride) (hy : y < height)
    (hbuffer : height * stride ≤ 2 ^ bits) : target bits stride x y = y * stride + x := by
  have hplace := place_lt hx hy
  rw [target, size_of_lt (n := y * stride) (by omega), size_of_lt (by omega)]

theorem drawPixel_eq (hbits : 32 ≤ bits) (h : s.Fits fileSize) {map : Bytes} {stride : ℕ}
    (hmap : map.length = fileSize) (hx : x < width) (hy : y < height) (hwidth : width ≤ 2048)
    (hheight : height ≤ 2048) (hstride : width ≤ stride) (hbuffer : height * stride ≤ 2 ^ bits) :
    drawPixel bits s map stride width height y x =
      some (y * stride + x,
        s.pixel map (y * s.sourceHeight / height) (x * s.sourceWidth / width)) := by
  have hinside := h.inside (scaled_lt hy h.height.1) (scaled_lt hx h.width.1)
  rw [drawPixel, source_eq hbits h hx hy hwidth hheight, read, if_pos (by omega),
    target_eq (by omega) hy hbuffer]
  rfl

end Draw

theorem mapM_of_eq {α β : Type*} {f : α → Option β} {g : α → β} {l : List α}
    (h : ∀ a ∈ l, f a = some (g a)) : l.mapM f = some (l.map g) := by
  induction l with
  | nil => rfl
  | cons a l ih =>
    rw [List.mapM_cons, h a List.mem_cons_self, ih fun b hb => h b (List.mem_cons_of_mem _ hb)]
    rfl

/-- What is stored at a place stays there, if nothing else is stored there. -/
theorem paint_of_mem {stores : List PixelStore} (hnodup : (stores.map Prod.fst).Nodup) {i v : ℕ}
    (h : (i, v) ∈ stores) (rgb : ℕ → ℕ) : paint stores rgb i = v := by
  have hother : ∀ (stores : List PixelStore) (rgb : ℕ → ℕ), i ∉ stores.map Prod.fst →
      paint stores rgb i = rgb i := by
    intro stores
    induction stores with
    | nil => exact fun rgb _ => rfl
    | cons w stores ih =>
      intro rgb hi
      rw [List.map_cons, List.mem_cons, not_or] at hi
      exact (ih _ hi.2).trans (Function.update_of_ne hi.1 _ _)
  induction stores generalizing rgb with
  | nil => cases h
  | cons w stores ih =>
    rw [List.map_cons, List.nodup_cons] at hnodup
    rcases List.mem_cons.mp h with rfl | h
    · exact (hother stores _ hnodup.1).trans (Function.update_self _ _ _)
    · exact ih hnodup.2 h _

/-- The stores for a surface, row by row. -/
def storesOf (s : ForgeSurface) (map : Bytes) (stride width height : ℕ) : List PixelStore :=
  ((List.range height).map fun y => (List.range width).map fun x =>
    (y * stride + x, s.pixel map (y * s.sourceHeight / height) (x * s.sourceWidth / width))).flatten

theorem mem_storesOf {s : ForgeSurface} {map : Bytes} {stride width height : ℕ} {w : PixelStore} :
    w ∈ storesOf s map stride width height ↔ ∃ y < height, ∃ x < width,
      w = (y * stride + x,
        s.pixel map (y * s.sourceHeight / height) (x * s.sourceWidth / width)) := by
  simp only [storesOf, List.mem_flatten, List.mem_map, List.mem_range]
  constructor
  · rintro ⟨row, ⟨y, hy, rfl⟩, hw⟩
    obtain ⟨x, hx, rfl⟩ := List.mem_map.mp hw
    exact ⟨y, hy, x, List.mem_range.mp hx, rfl⟩
  · rintro ⟨y, hy, x, hx, rfl⟩
    exact ⟨_, ⟨y, hy, rfl⟩, List.mem_map.mpr ⟨x, List.mem_range.mpr hx, rfl⟩⟩

/-- No place is stored into twice: the rows do not overlap. -/
theorem storesOf_nodup (s : ForgeSurface) (map : Bytes) {stride width : ℕ} (hstride : width ≤ stride)
    (height : ℕ) : ((storesOf s map stride width height).map Prod.fst).Nodup := by
  have hrows : (storesOf s map stride width height).map Prod.fst =
      ((List.range height).map fun y => (List.range width).map fun x => y * stride + x).flatten := by
    simp only [storesOf, List.map_flatten, List.map_map, Function.comp_def]
  rw [hrows, List.nodup_flatten]
  constructor
  · intro row hrow
    obtain ⟨y, -, rfl⟩ := List.mem_map.mp hrow
    exact List.nodup_range.map fun a b hab => Nat.add_left_cancel hab
  · rw [List.pairwise_map]
    refine List.Pairwise.imp (fun {y y'} (hlt : y < y') => ?_) List.pairwise_lt_range
    intro i hi hi'
    obtain ⟨x, hx, rfl⟩ := List.mem_map.mp hi
    obtain ⟨x', hx', heq⟩ := List.mem_map.mp hi'
    rw [List.mem_range] at hx hx'
    have hnext : (y + 1) * stride ≤ y' * stride := Nat.mul_le_mul_right _ hlt
    rw [Nat.succ_mul] at hnext
    omega

/-- For every header that is accepted and every size: nothing is read outside of the mapped file or
stored outside of the rows, and at each place stands the pixel of the image that it is scaled to.
The caller's buffer holds the rows, so their pixels can be counted in a `size_t`. -/
theorem draw_spec {bits fileSize : ℕ} {h : Bytes} {s : ForgeSurface} (hbits : 32 ≤ bits)
    (hopen : openSurface bits fileSize h = some s) (map : Bytes) (hmap : map.length = fileSize)
    {stride width height : ℕ}
    (hargs : ¬(width = 0 ∨ height = 0 ∨ 2048 < width ∨ 2048 < height ∨ stride < width))
    (hbuffer : height * stride ≤ 2 ^ bits) :
    ∃ stores, draw bits s map stride width height = some (0, stores) ∧
      (∀ w ∈ stores, w.1 < height * stride) ∧
      ∀ y < height, ∀ x < width, y * s.sourceHeight / height < s.sourceHeight ∧
        x * s.sourceWidth / width < s.sourceWidth ∧
        ∀ rgb, paint stores rgb (y * stride + x) =
          s.pixel map (y * s.sourceHeight / height) (x * s.sourceWidth / width) := by
  have hfits := openSurface_fits hbits hopen
  obtain ⟨-, -, hwidth, hheight, hstride⟩ : width ≠ 0 ∧ height ≠ 0 ∧ width ≤ 2048 ∧ height ≤ 2048 ∧
      width ≤ stride := by omega
  refine ⟨storesOf s map stride width height, ?_, ?_, ?_⟩
  · have hrow : ∀ y ∈ List.range height,
        (List.range width).mapM (drawPixel bits s map stride width height y) =
          some ((List.range width).map fun x => (y * stride + x,
            s.pixel map (y * s.sourceHeight / height) (x * s.sourceWidth / width))) := by
      intro y hy
      refine mapM_of_eq fun x hx => ?_
      exact drawPixel_eq hbits hfits hmap (List.mem_range.mp hx) (List.mem_range.mp hy) hwidth hheight
        hstride hbuffer
    rw [draw, if_neg hargs, mapM_of_eq hrow]
    rfl
  · intro w hw
    obtain ⟨y, hy, x, hx, rfl⟩ := mem_storesOf.mp hw
    exact place_lt (by omega) hy
  · intro y hy x hx
    refine ⟨scaled_lt hy hfits.height.1, scaled_lt hx hfits.width.1, fun rgb => ?_⟩
    exact paint_of_mem (storesOf_nodup s map hstride height) (mem_storesOf.mpr ⟨y, hy, x, hx, rfl⟩) rgb

/-- The header of a picture of two rows and two columns, word by word. -/
def smallHeader : Bytes :=
  [0, 0, 0, 100, 0, 0, 0, 7, 0, 0, 0, 2, 0, 0, 0, 24, 0, 0, 0, 2, 0, 0, 0, 2, 0, 0, 0, 0,
    0, 0, 0, 0, 0, 0, 0, 32, 0, 0, 0, 0, 0, 0, 0, 32, 0, 0, 0, 32, 0, 0, 0, 8, 0, 0, 0, 4,
    0, 255, 0, 0, 0, 0, 255, 0, 0, 0, 0, 255, 0, 0, 0, 8, 0, 0, 1, 0, 0, 0, 0, 0, 0, 0, 0, 2,
    0, 0, 0, 2, 0, 0, 0, 0, 0, 0, 0, 0, 0, 0, 0, 0]

def smallSurface : ForgeSurface where
  mapSize := 116
  image := 100
  line := 8
  sourceWidth := 2
  sourceHeight := 2
  sourceLittle := true

/-- It is drawn in three rows of three columns, with a pixel to spare in each row. -/
theorem draw_small :
    ∃ stores, draw 64 smallSurface (List.replicate 116 7) 4 3 3 = some (0, stores) ∧
      (∀ w ∈ stores, w.1 < 12) ∧
      ∀ rgb, paint stores rgb (2 * 4 + 2) = smallSurface.pixel (List.replicate 116 7) 1 1 := by
  have hopen : openSurface 64 116 smallHeader = some smallSurface := by decide
  obtain ⟨stores, hdraw, hinside, hpixels⟩ :=
    draw_spec (by decide) hopen (List.replicate 116 7) List.length_replicate
      (show ¬(3 = 0 ∨ 3 = 0 ∨ 2048 < 3 ∨ 2048 < 3 ∨ 4 < 3) by decide) (by decide)
  exact ⟨stores, hdraw, hinside, (hpixels 2 (by decide) 2 (by decide)).2.2⟩

end ForgeOS.Native.Surface
