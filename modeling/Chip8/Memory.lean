import Chip8.Address

/-!
# Memory

The memory has 4096 bytes. The glyphs of the sixteen hexadecimal digits stand at
its start, programs from `0x200` on. The memory is seen through `get`.
-/

namespace Chip8

/-- The bytes of the machine. -/
structure Memory where
  bytes : Vector UInt8 0x1000
deriving DecidableEq

namespace Memory

/-- The number of bytes. -/
def size : Nat := 0x1000

/-- The bits of the greatest address. -/
def addressMask : Nat := 0xFFF

/-- Where programs are loaded. -/
def programStart : Nat := 0x200

/-- The greatest number of bytes that fit above the start of programs. -/
def capacity : Nat := size - programStart

/-- Where the glyphs begin. -/
def fontStart : Nat := 0

/-- The bytes of one glyph. -/
def glyphSize : Nat := 5

/-- The glyphs of the digits `0` to `F`, four pixels wide and five high. -/
def font : List UInt8 :=
  [0xF0, 0x90, 0x90, 0x90, 0xF0,
    0x20, 0x60, 0x20, 0x20, 0x70,
    0xF0, 0x10, 0xF0, 0x80, 0xF0,
    0xF0, 0x10, 0xF0, 0x10, 0xF0,
    0x90, 0x90, 0xF0, 0x10, 0x10,
    0xF0, 0x80, 0xF0, 0x10, 0xF0,
    0xF0, 0x80, 0xF0, 0x90, 0xF0,
    0xF0, 0x10, 0x20, 0x40, 0x40,
    0xF0, 0x90, 0xF0, 0x90, 0xF0,
    0xF0, 0x90, 0xF0, 0x10, 0xF0,
    0xF0, 0x90, 0xF0, 0x90, 0x90,
    0xE0, 0x90, 0xE0, 0x90, 0xE0,
    0xF0, 0x80, 0x80, 0x80, 0xF0,
    0xE0, 0x90, 0x90, 0x90, 0xE0,
    0xF0, 0x80, 0xF0, 0x80, 0xF0,
    0xF0, 0x80, 0xF0, 0x80, 0x80]

/-- The byte at an address. -/
def get (m : Memory) (a : Address) : UInt8 := m.bytes[a.toFin]

/-- The memory with one byte changed. -/
def set (m : Memory) (a : Address) (b : UInt8) : Memory :=
  ⟨m.bytes.set a.value b a.value_lt⟩

theorem get_set (m : Memory) (a a' : Address) (b : UInt8) :
    (m.set a b).get a' = if a = a' then b else m.get a' := by
  obtain ⟨a, ha⟩ := a
  obtain ⟨a', ha'⟩ := a'
  simp only [get, set, Address.toFin, Fin.getElem_fin, Vector.getElem_set, Address.mk.injEq]

/-- Two memories with the same bytes are the same. -/
theorem ext_get {c d : Memory} (same : ∀ a, c.get a = d.get a) : c = d := by
  obtain ⟨cs⟩ := c
  obtain ⟨ds⟩ := d
  congr 1
  apply Vector.ext
  intro i hi
  exact same ⟨i, hi⟩

section Write
variable {start : Nat} {b : UInt8} {bs : List UInt8}

theorem lt_of_room (room : start + (b :: bs).length ≤ size) : start < 0x1000 := by
  simp only [List.length_cons, size] at room
  omega

theorem room_behind (room : start + (b :: bs).length ≤ size) : start + 1 + bs.length ≤ size := by
  simp only [List.length_cons] at room
  omega

/-- There is room for some bytes if there is for as many as are taken at the most. -/
theorem room_take {n : Nat} (fits : start + n ≤ size) : start + (bs.take n).length ≤ size := by
  rw [List.length_take]
  omega

/-- The memory with bytes written from `start` on, where there is room for all of them. -/
def write (m : Memory) (start : Nat) : (bs : List UInt8) → start + bs.length ≤ size → Memory
  | [], _ => m
  | b :: bs, room => write (m.set ⟨start, lt_of_room room⟩ b) (start + 1) bs (room_behind room)

/-- A written byte is read back; every other byte is as before. -/
theorem get_write (m : Memory) (room : start + bs.length ≤ size) (a : Address) :
    (m.write start bs room).get a =
      if start ≤ a.value then bs.getD (a.value - start) (m.get a) else m.get a := by
  induction bs generalizing m start with
  | nil => simp [write]
  | cons b bs ih =>
    have same : (m.set ⟨start, lt_of_room room⟩ b).get a =
        if start = a.value then b else m.get a := by
      obtain ⟨a, ha⟩ := a
      simp [get_set]
    simp only [write, ih, same]
    by_cases eq : start = a.value
    · subst eq
      rw [if_neg (by omega)]
      simp
    · by_cases le : start ≤ a.value
      · rw [if_pos (by omega), if_pos le, if_neg eq,
          show a.value - start = (a.value - (start + 1)) + 1 by omega, List.getD_cons_succ]
      · rw [if_neg (by omega), if_neg le, if_neg eq]

end Write

/-- Some bytes from an address on, wrapping at the end of memory. -/
def read (m : Memory) (a : Address) (n : Nat) : List UInt8 :=
  (List.range n).map fun i => m.get (a.offset i)

@[simp] theorem length_read (m : Memory) (a : Address) (n : Nat) : (m.read a n).length = n := by
  simp [read]

/-- Empty memory. -/
def zero : Memory := ⟨Vector.replicate 0x1000 0⟩

/-- The memory of a machine before a program is loaded. -/
def initial : Memory := zero.write fontStart font (by decide)

end Memory

end Chip8
