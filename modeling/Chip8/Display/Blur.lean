import Chip8.Grid

/-!
# Blurring

A pass of the blur replaces every cell by the mean of three neighbours, first
along the rows and then along the columns. The neighbours of a cell at an edge
are at the opposite edge. Any function of three cells may take the place of the
mean.
-/

namespace Chip8

/-- The position before another, going round. -/
def positionBefore {n : Nat} (i : Fin n) : Fin n :=
  ⟨(i.val + n - 1) % n, Nat.mod_lt _ (Nat.lt_of_le_of_lt (Nat.zero_le _) i.isLt)⟩

/-- The position after another, going round. -/
def positionAfter {n : Nat} (i : Fin n) : Fin n :=
  ⟨(i.val + 1) % n, Nat.mod_lt _ (Nat.lt_of_le_of_lt (Nat.zero_le _) i.isLt)⟩

namespace Grid

variable {rows cols : Nat} {α : Type}

/-- Every cell combined with its neighbours in the same row. -/
def blurRows (mean : α → α → α → α) (g : Grid rows cols α) : Grid rows cols α :=
  ofFn fun r c => mean (g.get r (positionBefore c)) (g.get r c) (g.get r (positionAfter c))

@[simp] theorem get_blurRows (mean : α → α → α → α) (g : Grid rows cols α) (r : Fin rows)
    (c : Fin cols) :
    (g.blurRows mean).get r c =
      mean (g.get r (positionBefore c)) (g.get r c) (g.get r (positionAfter c)) := by
  simp [blurRows]

/-- Every cell combined with its neighbours in the same column. -/
def blurColumns (mean : α → α → α → α) (g : Grid rows cols α) : Grid rows cols α :=
  ofFn fun r c => mean (g.get (positionBefore r) c) (g.get r c) (g.get (positionAfter r) c)

@[simp] theorem get_blurColumns (mean : α → α → α → α) (g : Grid rows cols α) (r : Fin rows)
    (c : Fin cols) :
    (g.blurColumns mean).get r c =
      mean (g.get (positionBefore r) c) (g.get r c) (g.get (positionAfter r) c) := by
  simp [blurColumns]

/-- Some passes of the blur. -/
def blur (mean : α → α → α → α) : Nat → Grid rows cols α → Grid rows cols α
  | 0, g => g
  | passes + 1, g => blur mean passes ((g.blurRows mean).blurColumns mean)

/-- Passes in two parts are passes all at once. -/
theorem blur_add (mean : α → α → α → α) (m n : Nat) (g : Grid rows cols α) :
    g.blur mean (m + n) = (g.blur mean m).blur mean n := by
  induction m generalizing g with
  | zero => simp [blur]
  | succ m ih =>
    rw [show m + 1 + n = (m + n) + 1 by omega]
    exact ih _

end Grid

end Chip8
