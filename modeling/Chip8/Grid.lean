/-!
# Grids

A grid is a table of cells with fixed numbers of rows and columns. It is seen
through `get`, and every operation says what it does to that view.
-/

namespace Chip8

/-- A table of `rows * cols` cells. -/
structure Grid (rows cols : Nat) (α : Type) where
  cells : Vector (Vector α cols) rows

namespace Grid

variable {rows cols : Nat} {α β : Type}

/-- The cell in a row and a column. -/
def get (g : Grid rows cols α) (r : Fin rows) (c : Fin cols) : α := (g.cells[r])[c]

/-- Two grids with the same cells are the same. -/
theorem ext_get {g h : Grid rows cols α} (same : ∀ r c, g.get r c = h.get r c) : g = h := by
  obtain ⟨gs⟩ := g
  obtain ⟨hs⟩ := h
  simp only [get] at same
  congr 1
  apply Vector.ext
  intro i hi
  apply Vector.ext
  intro j hj
  exact same ⟨i, hi⟩ ⟨j, hj⟩

/-- The grid of a function. -/
def ofFn (f : Fin rows → Fin cols → α) : Grid rows cols α :=
  ⟨Vector.ofFn fun r => Vector.ofFn (f r)⟩

@[simp] theorem get_ofFn (f : Fin rows → Fin cols → α) (r : Fin rows) (c : Fin cols) :
    (ofFn f).get r c = f r c := by
  simp [ofFn, get]

/-- The grid with one value in every cell. -/
def fill (a : α) : Grid rows cols α := ⟨Vector.replicate rows (Vector.replicate cols a)⟩

@[simp] theorem get_fill (a : α) (r : Fin rows) (c : Fin cols) :
    (fill a : Grid rows cols α).get r c = a := by
  simp [fill, get]

/-- The grid with one cell changed. -/
def set (g : Grid rows cols α) (r : Fin rows) (c : Fin cols) (a : α) : Grid rows cols α :=
  ⟨g.cells.set r ((g.cells[r]).set c a)⟩

theorem get_set (g : Grid rows cols α) (r r' : Fin rows) (c c' : Fin cols) (a : α) :
    (g.set r c a).get r' c' = if r = r' ∧ c = c' then a else g.get r' c' := by
  obtain ⟨r, hr⟩ := r
  obtain ⟨r', hr'⟩ := r'
  obtain ⟨c, hc⟩ := c
  obtain ⟨c', hc'⟩ := c'
  simp only [get, set, Fin.getElem_fin, Fin.mk.injEq, Vector.getElem_set]
  by_cases h : r = r'
  · subst h
    simp only [if_true, true_and, Vector.getElem_set]
  · simp only [h, if_false, false_and]

/-- The grid with a function applied to every cell. -/
def map (f : α → β) (g : Grid rows cols α) : Grid rows cols β :=
  ⟨g.cells.map fun row => row.map f⟩

@[simp] theorem get_map (f : α → β) (g : Grid rows cols α) (r : Fin rows) (c : Fin cols) :
    (g.map f).get r c = f (g.get r c) := by
  simp [map, get]

/-- The cell of a table of squares that a position lies in, where a square has `m` positions. -/
def cellOf {n m : Nat} (i : Fin (n * m)) : Fin n :=
  ⟨i.val / m, Nat.div_lt_of_lt_mul (Nat.mul_comm n m ▸ i.isLt)⟩

/-- The place of a position in its square. -/
def placeIn {n m : Nat} (i : Fin (n * m)) : Fin m :=
  ⟨i.val % m, Nat.mod_lt _ (Nat.pos_of_mul_pos_left (Nat.zero_lt_of_lt i.isLt))⟩

/-- The product of two grids: every cell of the first is replaced by its products with all
cells of the second. -/
def kron {rows' cols' : Nat} {γ : Type} (mul : α → β → γ) (g : Grid rows cols α)
    (h : Grid rows' cols' β) : Grid (rows * rows') (cols * cols') γ :=
  ofFn fun r c => mul (g.get (cellOf r) (cellOf c)) (h.get (placeIn r) (placeIn c))

@[simp] theorem get_kron {rows' cols' : Nat} {γ : Type} (mul : α → β → γ) (g : Grid rows cols α)
    (h : Grid rows' cols' β) (r : Fin (rows * rows')) (c : Fin (cols * cols')) :
    (g.kron mul h).get r c = mul (g.get (cellOf r) (cellOf c)) (h.get (placeIn r) (placeIn c)) := by
  simp [kron]

/-- The cells of a grid, row by row. -/
def toLists (g : Grid rows cols α) : List (List α) := g.cells.toList.map Vector.toList

end Grid

end Chip8
