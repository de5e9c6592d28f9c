/-!
# Random bytes

A generator is an endless sequence of bytes and a place in it. The machine takes
one byte at a time and never goes back.
-/

namespace Chip8

/-- A source of bytes. -/
structure Generator where
  byteAt : Nat → UInt8
  position : Nat

namespace Generator

/-- The next byte, and the generator behind it. -/
def next (g : Generator) : UInt8 × Generator :=
  (g.byteAt g.position, { g with position := g.position + 1 })

/-- The generator that repeats a list of bytes; the empty list stands for zeros. -/
def cycle (bytes : List UInt8) : Generator :=
  let bytes := bytes.toArray
  { byteAt := fun i => bytes.getD (i % bytes.size) 0, position := 0 }

/-- The bytes that are still to come. -/
def remaining (g : Generator) (i : Nat) : UInt8 := g.byteAt (g.position + i)

theorem remaining_next (g : Generator) (i : Nat) :
    g.next.2.remaining i = g.remaining (i + 1) := by
  simp only [remaining, next, Nat.add_assoc, Nat.add_comm 1 i]

end Generator

end Chip8
