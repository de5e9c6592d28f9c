import Chip8.Session.Update
import Mathlib.Data.List.Basic

/-!
# The screen pixel by pixel

On its way to the screen the machine's picture is turned on its side, coloured in floating point,
made into a picture and enlarged, and the background is painted line by line. Here the steps are
followed one after the other, so that every pixel of the screen is told from the pixel of the
machine that it shows and from the row that it lies in.
-/

namespace Chip8

namespace Color

/-- The channels of a colour. -/
def channels : List (Color → UInt8) := [red, green, blue]

variable {channel : Color → UInt8}

theorem channel_map (h : channel ∈ channels) (f : UInt8 → UInt8) (c : Color) :
    channel (c.map f) = f (channel c) := by
  simp only [channels, List.mem_cons, List.not_mem_nil, or_false] at h
  rcases h with rfl | rfl | rfl <;> rfl

theorem channel_black (h : channel ∈ channels) : channel black = 0 := by
  simp only [channels, List.mem_cons, List.not_mem_nil, or_false] at h
  rcases h with rfl | rfl | rfl <;> rfl

theorem toNat_channel_add (h : channel ∈ channels) (a b : Color) :
    (channel (a.add b)).toNat = min 255 ((channel a).toNat + (channel b).toNat) := by
  simp only [channels, List.mem_cons, List.not_mem_nil, or_false] at h
  rcases h with rfl | rfl | rfl <;> exact toNat_addChannel _ _

end Color

namespace Picture

/-- Lines painted one after the other cover exactly their rows. -/
theorem foldl_line (lines : List Nat) (c : Color) (p : Picture) :
    lines.foldl (fun p row => p.line row c) p =
      { p with pixel := fun x y => if y ∈ lines then c else p.pixel x y } := by
  induction lines generalizing p with
  | nil => simp
  | cons row rest ih =>
      rw [List.foldl_cons, ih, line, mk.injEq]
      refine ⟨rfl, rfl, ?_⟩
      funext x y
      by_cases later : y ∈ rest
      · simp [later]
      · simp [later]

/-- Enlarged by a whole factor, a picture shows each of its pixels as a square. -/
theorem pixel_resize (p : Picture) (k : Nat) {x y : Nat} (hx : x < p.width * k)
    (hy : y < p.height * k) :
    (p.resize (p.width * k) (p.height * k)).pixel x y = p.pixel (x / k) (y / k) := by
  have nearest {size i : Nat} (h : i < size * k) : i * size / (size * k) = i / k := by
    have positive : 0 < size := Nat.pos_of_mul_pos_right (Nat.zero_lt_of_lt h)
    rw [Nat.mul_comm i, Nat.mul_div_mul_left i k positive]
  simp only [resize, nearest hx, nearest hy]

end Picture

namespace Display

/-- A lit pixel has the channels of its colour: the product in floating point is a whole number, so
that nothing is lost when its fraction is dropped. -/
theorem dim_one (c : UInt8) : dim 1 c = c := by
  have all : ∀ n < 256, dim 1 (UInt8.ofNat n) = UInt8.ofNat n := by decide +kernel
  simpa using all c.toNat c.toNat_lt

open Float.Model in
/-- A dark pixel has no light in any channel. -/
theorem dim_zero (c : UInt8) : dim 0 c = 0 := by
  have zero : (0 : Float32).toModel.unpack = .zero .positive := by with_unfolding_all rfl
  have product : dim 0 c = (Float32.Model.pack (.mul .binary32 (.zero .positive)
      (Float32.ofNat c.toNat).toModel.unpack)).toUInt8 := by
    rw [← zero]
    rfl
  rw [product]
  -- Nothing times anything is zero, or no number at all, which counts as zero too.
  cases (Float32.ofNat c.toNat).toModel.unpack with
  | notANumber => decide +kernel
  | infinity sign =>
      have nothing : UnpackedFloat.mul .binary32 (.zero .positive) (.infinity sign) =
        .notANumber := rfl
      rw [nothing]
      decide +kernel
  | zero sign => cases sign <;> decide +kernel
  | finite sign mantissa exponent positive =>
      have nothing : UnpackedFloat.mul .binary32 (.zero .positive)
        (.finite sign mantissa exponent positive) = .zero (.positive * sign) := rfl
      rw [nothing]
      cases sign <;> decide +kernel

variable {s : Settings}

theorem pixel_colorize {width height : Nat} (c : Color) (g : Intensities width height)
    (x : Fin width) (y : Fin height) :
    (colorize c (Thunk.mk fun _ => g)).pixel x y = c.map (dim (g.get x y)) :=
  dif_pos ⟨x.isLt, y.isLt⟩

/-- A pixel of the enlarged picture has the foreground colour if the pixel of the machine that it
shows is lit. -/
theorem pixel_base (screen : Screen) {x y : Nat} (hx : x < factor s * 64)
    (hy : y < factor s * 32) :
    (base s screen).pixel x y =
      if screen.get ⟨y / factor s, Nat.div_lt_of_lt_mul hy⟩
        ⟨x / factor s, Nat.div_lt_of_lt_mul hx⟩ ≠ 0 then s.fgColor else Color.black := by
  let column : Fin 64 := ⟨x / factor s, Nat.div_lt_of_lt_mul hx⟩
  let row : Fin 32 := ⟨y / factor s, Nat.div_lt_of_lt_mul hy⟩
  have enlarged : (base s screen).pixel x y =
      (colorize s.fgColor (Thunk.mk fun _ => lit screen)).pixel column row := by
    apply Picture.pixel_resize
    · rwa [Nat.mul_comm]
    · rwa [Nat.mul_comm]
  rw [enlarged, pixel_colorize, lit, Grid.get_ofFn]
  simp only [bne_iff_ne]
  split
  · simp only [Color.map, dim_one]
  · simp only [Color.map, dim_zero, Color.black]

theorem mem_scanlines_iff {y : Nat} : y ∈ scanlines s ↔ y < height s ∧ y % 2 = 0 := by
  simp only [scanlines, List.mem_map, List.mem_range]
  constructor
  · rintro ⟨k, below, rfl⟩
    omega
  · rintro ⟨below, even⟩
    exact ⟨y / 2, by omega, by omega⟩

/-- The background keeps its size when the lines are painted, and every other row is brighter. -/
theorem background_eq (s : Settings) :
    (background s).width = width s ∧ (background s).height = height s ∧
      ∀ x y, y < height s → (background s).pixel x y =
        if y % 2 = 0 then s.bgColor.map fun c => Color.addChannel c scanlineGain
        else s.bgColor := by
  rw [background, Picture.foldl_line]
  refine ⟨rfl, rfl, ?_⟩
  intro x y below
  simp only [mem_scanlines_iff, below, true_and, Picture.plain]

end Display

namespace Session

/-- Without a glow every pixel of the screen is the sum of the background, brighter in every other
row, and of the foreground where the machine's pixel is lit. -/
theorem rendered_channel {s : Session} {k : Nat} (off : s.settings.glow = false)
    (scale : s.settings.scale = k) :
    ∃ p : Picture, s.render = ⟨s, [.flip p], none⟩ ∧ p.width = 64 * k ∧ p.height = 32 * k ∧
      ∀ x y (hx : x < k * 64) (hy : y < k * 32), ∀ channel ∈ Color.channels,
        let ground := (channel s.settings.bgColor).toNat
        let pixel := s.machine.screen.get ⟨y / k, Nat.div_lt_of_lt_mul hy⟩
          ⟨x / k, Nat.div_lt_of_lt_mul hx⟩
        (channel (p.pixel x y)).toNat =
          min 255 ((if y % 2 = 0 then min 255 (ground + 5) else ground) +
            if pixel ≠ 0 then (channel s.settings.fgColor).toNat else 0) := by
  obtain rfl : Display.factor s.settings = k := by
    rw [Display.factor, scale, Int.toNat_natCast]
  have drawable : Display.isDrawable s.settings = true := by
    rw [Display.isDrawable, off, Bool.not_false, Bool.true_or]
  have composed : s.picture =
      (Display.background s.settings).add (Display.base s.settings s.machine.screen) := by
    rw [picture, Display.compose, Display.glow?, off, if_neg Bool.false_ne_true]
  obtain ⟨width, height, rows⟩ := Display.background_eq s.settings
  refine ⟨s.picture, by rw [render, if_pos drawable], ?_, ?_, ?_⟩
  · rw [composed]
    exact width
  · rw [composed]
    exact height
  · intro x y hx hy channel mem ground pixel
    have below : y < Display.height s.settings := by
      rw [Display.height, Nat.mul_comm]
      exact hy
    have behind : (channel ((Display.background s.settings).pixel x y)).toNat =
        if y % 2 = 0 then min 255 (ground + 5) else ground := by
      rw [rows x y below, apply_ite channel, Color.channel_map mem, apply_ite UInt8.toNat,
        Color.toNat_addChannel]
      rfl
    have light : (channel ((Display.base s.settings s.machine.screen).pixel x y)).toNat =
        if pixel ≠ 0 then (channel s.settings.fgColor).toNat else 0 := by
      rw [Display.pixel_base _ hx hy, apply_ite channel, Color.channel_black mem,
        apply_ite UInt8.toNat]
      rfl
    rw [composed, ← behind, ← light]
    exact Color.toNat_channel_add mem _ _

/-- A machine's picture with one lit pixel off the diagonal, at three times its size. -/
def dotSession : Session where
  settings := { Settings.default with scale := 3, glow := false }
  machine := { Machine.initial (Generator.cycle []) with screen := Screen.blank.set 1 2 7 }
  rom := none
  running := true
  paused := false
  beeper := ⟨false, none⟩

/-- The dot covers the pixel at column seven and row four, which lies in a bright row, and not the
one with row and column exchanged. -/
theorem rendered_channel_of_dot :
    dotSession.settings.glow = false ∧ dotSession.settings.scale = (3 : Nat) ∧
      ∃ p : Picture, dotSession.render = ⟨dotSession, [.flip p], none⟩ ∧
        p.width = 192 ∧ p.height = 96 ∧
        (p.pixel 7 4).green.toNat = 255 ∧ (p.pixel 7 4).blue.toNat = 158 ∧
        (p.pixel 4 7).blue.toNat = 25 := by
  obtain ⟨p, shown, width, height, channels⟩ :=
    rendered_channel (s := dotSession) (k := 3) rfl rfl
  refine ⟨rfl, rfl, p, shown, width, height, ?_, ?_, ?_⟩
  · exact channels 7 4 (by decide) (by decide) Color.green (by simp [Color.channels])
  · exact channels 7 4 (by decide) (by decide) Color.blue (by simp [Color.channels])
  · exact channels 4 7 (by decide) (by decide) Color.blue (by simp [Color.channels])

end Session

end Chip8
