/-!
# Instruction words

A word has sixteen bits. Its operand fields keep the customary letters: `x` and
`y` name registers, `n` is the last nibble, `kk` the last byte and `nnn` the last
twelve bits.
-/

namespace Chip8

/-- A sixteen-bit instruction word. -/
structure Word where
  value : Nat
  value_lt : value < 0x10000
deriving DecidableEq

namespace Word

/-- The low sixteen bits of an integer in two's complement. -/
def ofInt (i : Int) : Word := ⟨(i % 0x10000).toNat, by omega⟩

/-- The word of two bytes, high byte first. -/
def ofBytes (high low : UInt8) : Word :=
  ⟨high.toNat * 0x100 + low.toNat, by
    have h := high.toNat_lt
    have l := low.toNat_lt
    omega⟩

/-- The first nibble, which tells the family of instructions. -/
def kind (w : Word) : Fin 16 := ⟨w.value / 0x1000, by have := w.value_lt; omega⟩

/-- The second nibble, a register number. -/
def x (w : Word) : Fin 16 := ⟨w.value / 0x100 % 16, by omega⟩

/-- The third nibble, a register number. -/
def y (w : Word) : Fin 16 := ⟨w.value / 0x10 % 16, by omega⟩

/-- The last nibble. -/
def n (w : Word) : Fin 16 := ⟨w.value % 16, by omega⟩

/-- The last byte. -/
def kk (w : Word) : UInt8 := UInt8.ofNat (w.value % 0x100)

/-- The last twelve bits, an address. -/
def nnn (w : Word) : Fin 0x1000 := ⟨w.value % 0x1000, by omega⟩

/-- The first byte of the word in memory order. -/
def highByte (w : Word) : UInt8 := UInt8.ofNat (w.value / 0x100)

theorem value_injective {v w : Word} (same : v.value = w.value) : v = w := by
  obtain ⟨v, hv⟩ := v
  obtain ⟨w, hw⟩ := w
  simpa using same

theorem value_ofInt (i : Int) : ((ofInt i).value : Int) = i % 0x10000 := by
  simp only [ofInt]
  omega

theorem ofInt_value (w : Word) : ofInt w.value = w := by
  obtain ⟨v, h⟩ := w
  simp only [ofInt, mk.injEq]
  omega

theorem value_eq_fields (w : Word) :
    w.value = w.kind.val * 0x1000 + w.x.val * 0x100 + w.y.val * 0x10 + w.n.val := by
  simp only [kind, x, y, n]
  omega

end Word

end Chip8
