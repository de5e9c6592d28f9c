import Chip8.Proofs.Rendering
import Mathlib.Data.Int.ModEq

/-!
# Pictures that go round

The edges of a picture are no edges to the blur: a picture whose rows and columns are moved on,
going round, is blurred into the same intensities moved on as far. The steps around the blur keep
this up, so that what is shown of a picture that is moved on is what was shown before, moved on by
as many enlarged pixels.
-/

namespace Chip8

/-- The position that some steps lead away from to this one, going round. -/
def positionBack {n : Nat} (i : Fin n) (steps : Int) : Fin n :=
  ⟨((i.val - steps) % n).toNat, by
    have := i.isLt
    have := Int.emod_nonneg (i.val - steps) (b := n) (by omega)
    have := Int.emod_lt_of_pos (i.val - steps) (b := n) (by omega)
    omega⟩

theorem val_positionBack {n : Nat} (i : Fin n) (steps : Int) :
    ((positionBack i steps).val : Int) = (i.val - steps) % n := by
  apply Int.toNat_of_nonneg
  apply Int.emod_nonneg
  have := i.isLt
  omega

theorem positionBack_positionBack {n : Nat} (i : Fin n) (steps more : Int) :
    positionBack (positionBack i steps) more = positionBack i (steps + more) := by
  apply Fin.ext
  apply Int.ofNat.inj
  calc
    ((positionBack (positionBack i steps) more).val : Int)
    _ = ((i.val - steps) % n - more) % n := by rw [val_positionBack, val_positionBack]
    _ = (i.val - steps - more) % n := Int.emod_sub_emod ..
    _ = (i.val - (steps + more)) % n := by rw [Int.sub_sub]
    _ = (positionBack i (steps + more)).val := (val_positionBack ..).symm

theorem positionBack_comm {n : Nat} (i : Fin n) (steps more : Int) :
    positionBack (positionBack i steps) more = positionBack (positionBack i more) steps := by
  rw [positionBack_positionBack, positionBack_positionBack, Int.add_comm]

theorem positionBefore_eq {n : Nat} (i : Fin n) : positionBefore i = positionBack i 1 := by
  apply Fin.ext
  apply Int.ofNat.inj
  have inside := i.isLt
  calc
    ((positionBefore i).val : Int)
    _ = ((i.val + n - 1 : Nat) : Int) % n := Int.natCast_emod ..
    _ = (i.val - 1 + n) % n := by congr 1; omega
    _ = (i.val - 1) % n := Int.add_emod_right ..
    _ = (positionBack i 1).val := (val_positionBack ..).symm

theorem positionAfter_eq {n : Nat} (i : Fin n) : positionAfter i = positionBack i (-1) := by
  apply Fin.ext
  apply Int.ofNat.inj
  calc
    ((positionAfter i).val : Int)
    _ = ((i.val + 1 : Nat) : Int) % n := Int.natCast_emod ..
    _ = (i.val - -1) % n := by congr 1
    _ = (positionBack i (-1)).val := (val_positionBack ..).symm

/-- A rest by whole squares, counted in squares. -/
theorem emod_mul_ediv (a n : Int) {m : Int} (positive : 0 < m) : a % (n * m) / m = a / m % n := by
  have quotient : a / (n * m) = a / m / n := by
    rw [Int.mul_comm, Int.ediv_ediv_of_nonneg (Int.le_of_lt positive)]
  calc
    a % (n * m) / m
    _ = (a - m * (n * (a / m / n))) / m := by
        rw [Int.emod_def, quotient, Int.mul_comm n m, Int.mul_assoc]
    _ = a / m - n * (a / m / n) := Int.sub_mul_ediv_left _ _ (Int.ne_of_gt positive)
    _ = a / m % n := (Int.emod_def ..).symm

namespace Grid

variable {rows cols : Nat} {α β : Type}

/-- A grid with its rows moved down and its columns moved right, going round. -/
def rotate (down right : Int) (g : Grid rows cols α) : Grid rows cols α :=
  ofFn fun r c => g.get (positionBack r down) (positionBack c right)

@[simp] theorem get_rotate (down right : Int) (g : Grid rows cols α) (r : Fin rows)
    (c : Fin cols) :
    (g.rotate down right).get r c = g.get (positionBack r down) (positionBack c right) := by
  simp [rotate]

/-- The neighbours in a row move on with their row. -/
theorem blurRows_rotate (mean : α → α → α → α) (down right : Int) (g : Grid rows cols α) :
    (g.rotate down right).blurRows mean = (g.blurRows mean).rotate down right := by
  apply ext_get
  intro r c
  simp only [get_blurRows, get_rotate, positionBefore_eq, positionAfter_eq]
  rw [positionBack_comm c 1, positionBack_comm c (-1)]

/-- The neighbours in a column move on with their column. -/
theorem blurColumns_rotate (mean : α → α → α → α) (down right : Int) (g : Grid rows cols α) :
    (g.rotate down right).blurColumns mean = (g.blurColumns mean).rotate down right := by
  apply ext_get
  intro r c
  simp only [get_blurColumns, get_rotate, positionBefore_eq, positionAfter_eq]
  rw [positionBack_comm r 1, positionBack_comm r (-1)]

theorem blur_rotate (mean : α → α → α → α) (down right : Int) (passes : Nat)
    (g : Grid rows cols α) :
    (g.rotate down right).blur mean passes = (g.blur mean passes).rotate down right := by
  induction passes generalizing g with
  | zero => rfl
  | succ passes ih =>
      calc
        (g.rotate down right).blur mean (passes + 1)
        _ = (((g.rotate down right).blurRows mean).blurColumns mean).blur mean passes := rfl
        _ = (((g.blurRows mean).blurColumns mean).rotate down right).blur mean passes := by
            rw [blurRows_rotate, blurColumns_rotate]
        _ = (g.blur mean (passes + 1)).rotate down right := ih _

theorem map_rotate (f : α → β) (down right : Int) (g : Grid rows cols α) :
    (g.rotate down right).map f = (g.map f).rotate down right := by
  apply ext_get
  intro r c
  simp only [get_map, get_rotate]

/-- Steps by whole squares lead to the same place in another square. -/
theorem cellOf_positionBack {n m : Nat} (i : Fin (n * m)) (steps : Int) :
    cellOf (positionBack i (m * steps)) = positionBack (cellOf i) steps := by
  have positive : 0 < (m : Int) :=
    Int.natCast_pos.2 (Nat.pos_of_mul_pos_left (Nat.zero_lt_of_lt i.isLt))
  apply Fin.ext
  apply Int.ofNat.inj
  calc
    ((cellOf (positionBack i (m * steps))).val : Int)
    _ = (i.val - m * steps) % (n * m : Nat) / m := by
        rw [← val_positionBack]
        exact Int.natCast_ediv ..
    _ = (i.val - m * steps) / m % n := by
        rw [Int.natCast_mul]
        exact emod_mul_ediv _ _ positive
    _ = (i.val / m - steps) % n := by
        rw [Int.sub_mul_ediv_left _ _ (Int.ne_of_gt positive)]
    _ = (positionBack (cellOf i) steps).val := (val_positionBack (cellOf i) steps).symm

/-- Cells that are all repeated in squares of one size move on by whole squares. -/
theorem kron_fill_rotate {rows' cols' : Nat} {γ : Type} (mul : α → β → γ) (down right : Int)
    (g : Grid rows cols α) (b : β) :
    (g.rotate down right).kron mul (fill b : Grid rows' cols' β) =
      (g.kron mul (fill b : Grid rows' cols' β)).rotate (rows' * down) (cols' * right) := by
  apply ext_get
  intro r c
  simp only [get_kron, get_rotate, get_fill, cellOf_positionBack]

end Grid

namespace Picture

/-- A picture moved down and to the right, going round. -/
def rotate (down right : Int) (p : Picture) : Picture :=
  { p with pixel := fun x y =>
      p.pixel ((x - right) % p.width).toNat ((y - down) % p.height).toNat }

/-- Two pictures of one size have the same pixels inside of it. -/
structure LooksLike (p q : Picture) : Prop where
  width : p.width = q.width
  height : p.height = q.height
  pixel : ∀ x y, x < p.width → y < p.height → p.pixel x y = q.pixel x y

namespace LooksLike

variable {p q r : Picture}

theorem trans (h : LooksLike p q) (h' : LooksLike q r) : LooksLike p r where
  width := h.width.trans h'.width
  height := h.height.trans h'.height
  pixel x y hx hy := (h.pixel x y hx hy).trans (h'.pixel x y (h.width ▸ hx) (h.height ▸ hy))

theorem rows (h : LooksLike p q) : p.rows = q.rows := by
  rw [Picture.rows, Picture.rows, ← h.height]
  apply List.map_congr_left
  intro y below
  rw [Picture.row, Picture.row, ← h.width]
  apply List.map_congr_left
  intro x before
  exact h.pixel x y (List.mem_range.1 before) (List.mem_range.1 below)

/-- Pictures that look alike do so at every size. -/
theorem resize (h : LooksLike p q) (k : Nat) :
    LooksLike (p.resize (p.width * k) (p.height * k)) (q.resize (q.width * k) (q.height * k)) where
  width := congrArg (· * k) h.width
  height := congrArg (· * k) h.height
  pixel x y hx hy := by
    rw [pixel_resize p k hx hy, pixel_resize q k (h.width ▸ hx) (h.height ▸ hy)]
    exact h.pixel _ _ (Nat.div_lt_of_lt_mul (Nat.mul_comm .. ▸ hx))
      (Nat.div_lt_of_lt_mul (Nat.mul_comm .. ▸ hy))

end LooksLike

/-- An enlarged picture moves on by whole squares. -/
theorem looksLike_resize_rotate (p : Picture) (k : Nat) (down right : Int) :
    LooksLike ((p.rotate down right).resize (p.width * k) (p.height * k))
      ((p.resize (p.width * k) (p.height * k)).rotate (k * down) (k * right)) where
  width := rfl
  height := rfl
  pixel x y hx hy := by
    let column : Fin (p.width * k) := ⟨x, hx⟩
    let row : Fin (p.height * k) := ⟨y, hy⟩
    calc
      ((p.rotate down right).resize (p.width * k) (p.height * k)).pixel x y
      _ = (p.rotate down right).pixel (x / k) (y / k) :=
          pixel_resize (p.rotate down right) k hx hy
      _ = p.pixel (positionBack (Grid.cellOf column) right).val
            (positionBack (Grid.cellOf row) down).val := rfl
      _ = p.pixel (Grid.cellOf (positionBack column (k * right))).val
            (Grid.cellOf (positionBack row (k * down))).val := by
          rw [Grid.cellOf_positionBack, Grid.cellOf_positionBack]
      _ = (p.resize (p.width * k) (p.height * k)).pixel (positionBack column (k * right)).val
            (positionBack row (k * down)).val :=
          (pixel_resize p k (Fin.isLt _) (Fin.isLt _)).symm
      _ = ((p.resize (p.width * k) (p.height * k)).rotate (k * down) (k * right)).pixel x y := rfl

end Picture

namespace Display

theorem lit_rotate (screen : Screen) (down right : Int) :
    lit (screen.rotate down right) = (lit screen).rotate right down := by
  apply Grid.ext_get
  intro x y
  simp only [lit, Grid.get_ofFn, Grid.get_rotate]

theorem sharp_rotate (screen : Screen) (down right : Int) :
    sharp (screen.rotate down right) =
      (sharp screen).rotate (upscale * right) (upscale * down) := by
  rw [sharp, lit_rotate, Grid.kron_fill_rotate]
  rfl

theorem glowIntensities_rotate (s : Settings) (screen : Screen) (down right : Int) :
    glowIntensities s (screen.rotate down right) =
      (glowIntensities s screen).rotate (upscale * right) (upscale * down) := by
  rw [glowIntensities, sharp_rotate, Grid.blur_rotate, Grid.map_rotate]
  rfl

theorem looksLike_colorize_rotate {width height : Nat} (c : Color)
    (g : Intensities width height) (down right : Int) :
    (colorize c (Thunk.mk fun _ => g.rotate right down)).LooksLike
      ((colorize c (Thunk.mk fun _ => g)).rotate down right) where
  width := rfl
  height := rfl
  pixel x y hx hy := by
    let column : Fin width := ⟨x, hx⟩
    let row : Fin height := ⟨y, hy⟩
    calc
      (colorize c (Thunk.mk fun _ => g.rotate right down)).pixel x y
      _ = c.map (dim ((g.rotate right down).get column row)) := pixel_colorize c _ column row
      _ = c.map (dim (g.get (positionBack column right) (positionBack row down))) := by
          rw [Grid.get_rotate]
      _ = (colorize c (Thunk.mk fun _ => g)).pixel (positionBack column right)
            (positionBack row down) := (pixel_colorize c g _ _).symm
      _ = ((colorize c (Thunk.mk fun _ => g)).rotate down right).pixel x y := rfl

variable {s : Settings}

/-- The enlarged picture of a screen that is moved on is moved on by enlarged pixels. -/
theorem looksLike_base_rotate (s : Settings) (screen : Screen) (down right : Int) :
    (base s (screen.rotate down right)).LooksLike
      ((base s screen).rotate (factor s * down) (factor s * right)) := by
  have moved := looksLike_colorize_rotate s.fgColor (lit screen) down right
  have enlarged := Picture.looksLike_resize_rotate
    (colorize s.fgColor (Thunk.mk fun _ => lit screen)) (factor s) down right
  rw [base, lit_rotate]
  exact (moved.resize (factor s)).trans enlarged

/-- At the size at which it is worked out, the glow is not resized. -/
theorem looksLike_glow_rotate (scale : factor s = upscale) (screen : Screen) (down right : Int) :
    (glow s (screen.rotate down right)).LooksLike
      ((glow s screen).rotate (upscale * down) (upscale * right)) := by
  have size : width s = 64 * upscale * 1 ∧ height s = 32 * upscale * 1 := by
    rw [width, height, scale]
    exact ⟨rfl, rfl⟩
  rw [glow, glow, glowIntensities_rotate, size.1, size.2]
  have moved := ((looksLike_colorize_rotate s.fgColor (glowIntensities s screen) (upscale * down)
    (upscale * right)).resize 1).trans (Picture.looksLike_resize_rotate _ 1 _ _)
  rwa [Nat.cast_one, Int.one_mul, Int.one_mul] at moved

/-- A strength between zero and one is near to a double. -/
theorem isDrawable_of_isShare (h : s.bloomStrength.isShare = true) : isDrawable s = true := by
  rw [isDrawable, Bool.or_eq_true]
  right
  cases bloom : s.bloomStrength with
  | float f => rfl
  | int i =>
      rw [bloom, Number.isShare, decide_eq_true_eq] at h
      have small : i.natAbs ≤ 1 := by omega
      have large : 1 < 1 <<< 1024 - 1 <<< 970 := by decide +kernel
      exact decide_eq_true (Nat.lt_of_le_of_lt small large)

end Display

/-- No place of a table is special to the blur: it blurs a table that is moved on, going round, into
the blurred table moved on as far, and passes add up. So at the size at which the glow is worked
out, a screen that is moved on is shown as the same picture and the same glow, moved on by enlarged
pixels. -/
theorem blur_goes_round {s : Settings} (on : s.glow = true)
    (share : s.bloomStrength.isShare = true) (scale : s.scale = 4) :
    (∀ {rows cols : Nat} {α : Type} (mean : α → α → α → α) (g : Grid rows cols α)
      (down right : Int) (m n : Nat),
      (g.rotate down right).blur mean m = (g.blur mean m).rotate down right ∧
        g.blur mean (m + n) = (g.blur mean m).blur mean n) ∧
    ∀ (screen : Screen) (down right : Int), Display.isDrawable s = true ∧
      (Display.base s (screen.rotate down right)).rows =
        ((Display.base s screen).rotate (4 * down) (4 * right)).rows ∧
      ∃ glow moved, Display.glow? s screen = some glow ∧
        Display.glow? s (screen.rotate down right) = some moved ∧
        glow.width = 256 ∧ glow.height = 128 ∧
        moved.rows = (glow.rotate (4 * down) (4 * right)).rows := by
  have factor : Display.factor s = 4 := by
    rw [Display.factor, scale]
    rfl
  constructor
  · intro rows cols α mean g down right m n
    exact ⟨g.blur_rotate mean down right m, g.blur_add mean m n⟩
  · intro screen down right
    have base := Display.looksLike_base_rotate s screen down right
    rw [factor] at base
    refine ⟨Display.isDrawable_of_isShare share, base.rows, _, _, if_pos on, if_pos on, ?_, ?_,
      (Display.looksLike_glow_rotate factor screen down right).rows⟩
    · exact congrArg (64 * ·) factor
    · exact congrArg (32 * ·) factor

/-- A pixel in the lowest row and the last column goes on at the top and on the left, and the light
around it goes with it. -/
theorem blur_goes_round_of_corner :
    let s := { Settings.default with scale := 4 }
    let screen := Screen.blank.set 31 63 9
    let g : Grid 2 3 Nat := Grid.ofFn fun r c => 3 * r.val + c.val
    let mean (a b c : Nat) : Nat := (a + b + c) / 3
    s.glow = true ∧ s.bloomStrength.isShare = true ∧ s.scale = 4 ∧
      (screen.rotate 1 2).get 0 1 = 9 ∧
      (g.rotate (-1) 5).blur mean 2 = (g.blur mean 2).rotate (-1) 5 ∧
      (Display.base s (screen.rotate 1 2)).rows =
        ((Display.base s screen).rotate (4 * 1) (4 * 2)).rows ∧
      ∃ glow moved, Display.glow? s screen = some glow ∧
        Display.glow? s (screen.rotate 1 2) = some moved ∧
        moved.rows = (glow.rotate (4 * 1) (4 * 2)).rows := by
  intro s screen g mean
  have share : s.bloomStrength.isShare = true := by decide +kernel
  obtain ⟨blurred, shown⟩ := blur_goes_round (s := s) rfl share rfl
  obtain ⟨-, base, glow, moved, before, after, -, -, rows⟩ := shown screen 1 2
  refine ⟨rfl, share, rfl, ?_, (blurred mean g (-1) 5 2 0).1, base, glow, moved, before, after, rows⟩
  decide +kernel

end Chip8
