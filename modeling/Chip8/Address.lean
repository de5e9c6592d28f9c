/-!
# Addresses

An address has twelve bits; anything beyond them is dropped. Addresses past the
end of memory wrap to its start.
-/

namespace Chip8

/-- A twelve-bit address. -/
structure Address where
  value : Nat
  value_lt : value < 0x1000
deriving DecidableEq

namespace Address

/-- The low twelve bits of an integer in two's complement. -/
def ofInt (i : Int) : Address := ⟨(i % 0x1000).toNat, by omega⟩

theorem value_ofInt (i : Int) : ((ofInt i).value : Int) = i % 0x1000 := by
  simp only [ofInt]
  omega

theorem ofInt_value (a : Address) : ofInt a.value = a := by
  obtain ⟨v, h⟩ := a
  simp only [ofInt, mk.injEq]
  omega

/-- The address of an operand. -/
def ofFin (a : Fin 0x1000) : Address := ⟨a.val, a.isLt⟩

/-- The address as a position among all addresses. -/
def toFin (a : Address) : Fin 0x1000 := ⟨a.value, a.value_lt⟩

/-- The address some bytes further on. -/
def offset (a : Address) (n : Nat) : Address := ⟨(a.value + n) % 0x1000, by omega⟩

/-- The sum with any integer, and whether it went past the last address. -/
def overflowingAdd (a : Address) (i : Int) : Address × Bool :=
  (ofInt (a.value + i), decide (0xFFF < a.value + i))

end Address

end Chip8
