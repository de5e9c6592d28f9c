import Chip8.Screen

/-!
# Sprites as sets of pixels

Drawing goes over the bits of a sprite one after the other and turns pixels over
in place. As no pixel is met twice, the outcome can be told pixel by pixel: the
new picture is the old one combined with the bits that cover each pixel, and a
collision is a lit pixel under a set bit.
-/

namespace Chip8.Screen

theorem zero_or_one_and {bit : UInt8} (h : bit = 0 ∨ bit = 1) (b : UInt8) :
    bit &&& b = 0 ∨ bit &&& b = 1 := by
  rcases h with rfl | rfl
  · exact .inl UInt8.zero_and
  · have parity : (1 &&& b).toNat = b.toNat % 2 := by
      calc
        (1 &&& b).toNat = b.toNat &&& 1 := by rw [UInt8.and_comm, UInt8.toNat_and]; rfl
        _ = b.toNat % 2 := Nat.and_one_is_mod b.toNat
    rcases Nat.mod_two_eq_zero_or_one b.toNat with even | odd
    · exact .inl (UInt8.toNat_inj.1 (parity.trans even))
    · exact .inr (UInt8.toNat_inj.1 (parity.trans odd))

theorem zero_or_one_xor {a b : UInt8} (ha : a = 0 ∨ a = 1) (hb : b = 0 ∨ b = 1) :
    a ^^^ b = 0 ∨ a ^^^ b = 1 := by
  rcases ha with rfl | rfl <;> rcases hb with rfl | rfl <;> decide

theorem spriteBit_zero_or_one (b : UInt8) (column : Nat) :
    spriteBit b column = 0 ∨ spriteBit b column = 1 := by
  rw [spriteBit, UInt8.and_comm]
  exact zero_or_one_and (.inr rfl) _

/-- How a drawing comes of another by bits on pixels. -/
structure Drawn (before : Drawing) (bit : Fin 32 → Fin 64 → UInt8) (after : Drawing) : Prop where
  get : ∀ r c, after.screen.get r c = before.screen.get r c ^^^ bit r c
  hit : after.collision = 1 ↔
    before.collision = 1 ∨ ∃ r c, bit r c &&& before.screen.get r c = 1
  flag : after.collision = 0 ∨ after.collision = 1

namespace Drawn

theorem refl {d : Drawing} (h : d.collision = 0 ∨ d.collision = 1) : Drawn d (fun _ _ => 0) d where
  get r c := by simp
  hit := by simp
  flag := h

/-- Two drawings one after the other, if no pixel has bits of both. -/
theorem trans {d e f : Drawing} {bit bit' : Fin 32 → Fin 64 → UInt8} (first : Drawn d bit e)
    (second : Drawn e bit' f) (apart : ∀ r c, bit r c = 0 ∨ bit' r c = 0) :
    Drawn d (fun r c => bit r c ^^^ bit' r c) f where
  get r c := by
    calc
      f.screen.get r c = e.screen.get r c ^^^ bit' r c := second.get r c
      _ = d.screen.get r c ^^^ bit r c ^^^ bit' r c := by rw [first.get]
      _ = d.screen.get r c ^^^ (bit r c ^^^ bit' r c) := UInt8.xor_assoc _ _ _
  hit := by
    have split : ∀ r c, (bit r c ^^^ bit' r c) &&& d.screen.get r c = 1 ↔
        bit r c &&& d.screen.get r c = 1 ∨ bit' r c &&& e.screen.get r c = 1 := by
      intro r c
      rw [first.get]
      rcases apart r c with none | none <;> simp [none]
    rw [second.hit, first.hit, or_assoc]
    simp only [split, exists_or]
  flag := second.flag

theorem congr {d e : Drawing} {bit bit' : Fin 32 → Fin 64 → UInt8} (h : Drawn d bit e)
    (same : ∀ r c, bit' r c = bit r c) : Drawn d bit' e := by
  have equal : bit' = bit := by
    funext r c
    exact same r c
  rw [equal]
  exact h

theorem pixel {d : Drawing} (flag : d.collision = 0 ∨ d.collision = 1) {b : UInt8}
    (bit : b = 0 ∨ b = 1) (r₀ : Fin 32) (c₀ : Fin 64) :
    Drawn d (fun r c => if r = r₀ ∧ c = c₀ then b else 0) (d.pixel r₀ c₀ b) where
  get r c := by
    by_cases here : r = r₀ ∧ c = c₀
    · obtain ⟨rfl, rfl⟩ := here
      simp [Drawing.pixel, Grid.get_set]
    · have elsewhere : ¬ (r₀ = r ∧ c₀ = c) := fun h => here ⟨h.1.symm, h.2.symm⟩
      simp [Drawing.pixel, Grid.get_set, here, elsewhere]
  hit := by
    have only : (∃ r c, (if r = r₀ ∧ c = c₀ then b else 0) &&& d.screen.get r c = 1) ↔
        b &&& d.screen.get r₀ c₀ = 1 := by
      constructor
      · rintro ⟨r, c, h⟩
        by_cases here : r = r₀ ∧ c = c₀
        · rwa [if_pos here, here.1, here.2] at h
        · simp [here] at h
      · intro h
        exact ⟨r₀, c₀, by simpa using h⟩
    rw [only]
    rcases flag with off | on <;>
      rcases zero_or_one_and bit (d.screen.get r₀ c₀) with low | high <;>
      simp [Drawing.pixel, *]
  flag := by
    rcases flag with off | on <;>
      rcases zero_or_one_and bit (d.screen.get r₀ c₀) with low | high <;>
      simp [Drawing.pixel, *]

end Drawn

/-- How many rows below row `y` a row lies, wrapping. -/
def rowsBelow (y : Nat) (r : Fin 32) : Nat := (((r.val : Int) - y) % 32).toNat

/-- How many columns right of column `x` a column lies, wrapping. -/
def columnsRight (x : Nat) (c : Fin 64) : Nat := (((c.val : Int) - x) % 64).toNat

/-- The bit that a sprite at column `x` and row `y` has on a pixel. -/
def cover (x y : Nat) (sprite : List UInt8) (r : Fin 32) (c : Fin 64) : UInt8 :=
  if rowsBelow y r < sprite.length ∧ columnsRight x c < 8 then
    spriteBit (sprite.getD (rowsBelow y r) 0) (columnsRight x c)
  else 0

theorem rowsBelow_eq_iff (y : Nat) (r : Fin 32) {k : Nat} (h : k < 32) :
    rowsBelow y r = k ↔ r = rowAt (y + k) := by
  simp only [rowsBelow, rowAt, Fin.ext_iff]
  omega

theorem rowsBelow_eq_zero_iff (y : Nat) (r : Fin 32) : rowsBelow y r = 0 ↔ r = rowAt y :=
  rowsBelow_eq_iff y r (by omega)

theorem rowsBelow_succ {y : Nat} {r : Fin 32} (h : rowsBelow y r ≠ 0) :
    rowsBelow y r = rowsBelow (y + 1) r + 1 := by
  simp only [rowsBelow] at h ⊢
  omega

theorem rowsBelow_succ_of_eq_zero {y : Nat} {r : Fin 32} (h : rowsBelow y r = 0) :
    rowsBelow (y + 1) r = 31 := by
  simp only [rowsBelow] at h ⊢
  omega

theorem columnsRight_eq_iff (x : Nat) (c : Fin 64) {k : Nat} (h : k < 64) :
    columnsRight x c = k ↔ c = columnAt (x + k) := by
  simp only [columnsRight, columnAt, Fin.ext_iff]
  omega

theorem cover_zero_or_one (x y : Nat) (sprite : List UInt8) (r : Fin 32) (c : Fin 64) :
    cover x y sprite r c = 0 ∨ cover x y sprite r c = 1 := by
  rw [cover]
  split
  · exact spriteBit_zero_or_one _ _
  · exact .inl rfl

/-- The bit that the first `k` columns of a line at row `y` have on a pixel. -/
def coverLine (x y : Nat) (b : UInt8) (k : Nat) (r : Fin 32) (c : Fin 64) : UInt8 :=
  if r = rowAt y ∧ columnsRight x c < k then spriteBit b (columnsRight x c) else 0

/-- The bits of one more column are those of the columns before and one bit of its own. -/
theorem coverLine_succ (x y : Nat) (b : UInt8) {k : Nat} (r : Fin 32) (c : Fin 64) (h : k < 64) :
    let next := if r = rowAt y ∧ c = columnAt (x + k) then spriteBit b k else 0
    coverLine x y b (k + 1) r c = coverLine x y b k r c ^^^ next ∧
      (coverLine x y b k r c = 0 ∨ next = 0) := by
  intro next
  have place : c = columnAt (x + k) ↔ columnsRight x c = k := (columnsRight_eq_iff x c h).symm
  by_cases here : r = rowAt y ∧ columnsRight x c = k
  · obtain ⟨row, column⟩ := here
    have none : coverLine x y b k r c = 0 := if_neg (by omega)
    refine ⟨?_, .inl none⟩
    rw [none, UInt8.zero_xor]
    simp [coverLine, next, place, row, column]
  · have none : next = 0 := if_neg (by rwa [place])
    refine ⟨?_, .inr none⟩
    rw [none, UInt8.xor_zero]
    have same : r = rowAt y ∧ columnsRight x c < k + 1 ↔ r = rowAt y ∧ columnsRight x c < k := by
      omega
    simp only [coverLine, same]

/-- The first columns of a line, drawn one after the other. -/
theorem drawn_columns {d : Drawing} (flag : d.collision = 0 ∨ d.collision = 1) (x y : Nat)
    (b : UInt8) {k : Nat} (h : k ≤ 64) :
    Drawn d (coverLine x y b k)
      ((List.range k).foldl
        (fun d column => d.pixel (rowAt y) (columnAt (x + column)) (spriteBit b column)) d) := by
  induction k with
  | zero => exact (Drawn.refl flag).congr fun r c => by simp [coverLine]
  | succ k ih =>
      have before := ih (by omega)
      have last := Drawn.pixel before.flag (spriteBit_zero_or_one b k) (rowAt y) (columnAt (x + k))
      have parts := fun r c => coverLine_succ x y b r c (k := k) (by omega)
      have both := before.trans last fun r c => (parts r c).2
      rw [List.range_succ, List.foldl_append, List.foldl_cons, List.foldl_nil]
      exact both.congr fun r c => (parts r c).1

theorem drawn_line {d : Drawing} (flag : d.collision = 0 ∨ d.collision = 1) (x y : Nat)
    (b : UInt8) : Drawn d (cover x y [b]) (d.line x y b) := by
  refine (drawn_columns flag x y b (k := 8) (by omega)).congr ?_
  intro r c
  by_cases row : rowsBelow y r = 0
  · simp [cover, coverLine, ← rowsBelow_eq_zero_iff y r, row]
  · simp [cover, coverLine, ← rowsBelow_eq_zero_iff y r, row]

/-- The bits of a sprite are those of its first line and those of the other lines. -/
theorem cover_cons (x y : Nat) (b : UInt8) (bs : List UInt8) (r : Fin 32) (c : Fin 64)
    (h : bs.length ≤ 31) :
    cover x y (b :: bs) r c = cover x y [b] r c ^^^ cover x (y + 1) bs r c ∧
      (cover x y [b] r c = 0 ∨ cover x (y + 1) bs r c = 0) := by
  by_cases first : rowsBelow y r = 0
  · have last := rowsBelow_succ_of_eq_zero first
    have none : cover x (y + 1) bs r c = 0 := if_neg (by omega)
    refine ⟨?_, .inr none⟩
    rw [none, UInt8.xor_zero]
    simp [cover, first]
  · have below := rowsBelow_succ first
    have none : cover x y [b] r c = 0 := if_neg (by rw [List.length_singleton]; omega)
    refine ⟨?_, .inl none⟩
    rw [none, UInt8.zero_xor]
    simp [cover, below]

/-- A sprite of at most as many lines as the picture has rows meets no pixel twice. -/
theorem drawn_lines {d : Drawing} (flag : d.collision = 0 ∨ d.collision = 1) (x y : Nat)
    {sprite : List UInt8} (h : sprite.length ≤ 32) :
    Drawn d (cover x y sprite) (d.lines x y sprite) := by
  induction sprite generalizing d y with
  | nil => exact (Drawn.refl flag).congr fun r c => by simp [cover]
  | cons b bs ih =>
      rw [List.length_cons] at h
      have line := drawn_line flag x y b
      have parts := fun r c => cover_cons x y b bs r c (by omega)
      have both := line.trans (ih line.flag (y + 1) (by omega)) fun r c => (parts r c).2
      exact both.congr fun r c => (parts r c).1

/-- The picture and the collision of a whole sprite, pixel by pixel. -/
theorem drawn_draw (s : Screen) (x y : Nat) {sprite : List UInt8} (h : sprite.length ≤ 32) :
    Drawn ⟨s, 0⟩ (cover x y sprite) (s.draw x y sprite) :=
  drawn_lines (.inl rfl) x y h

end Chip8.Screen
