import Chip8.Text.Hex

/-!
# Conditions and faults

A condition is reported by a tick and leaves the machine able to go on. A fault
lies outside the machine: only a state that was put together by hand, or a
snapshot of the wrong size, leads to one.
-/

namespace Chip8

/-- What a running program may do wrong. -/
inductive Condition
  | unrecognized (word : Int)
  | stackOverflow
  | stackUnderflow
deriving DecidableEq

/-- The text of a condition. -/
def Condition.message : Condition → String
  | unrecognized word => "unrecognized instruction $" ++ Text.Hex.text 4 word
  | stackOverflow => "call with a full stack"
  | stackUnderflow => "return with an empty stack"

/-- What a state outside the machine's bounds leads to. -/
inductive Fault
  | keypadSize (keys : Nat)
  | byteRange
  | registerPosition
  | stackRead
  | stackWrite
  | positionSize
deriving DecidableEq

/-- The text of a fault. -/
def Fault.message : Fault → String
  | keypadSize keys => "keypad snapshot needs 16 keys, got " ++ toString keys
  | byteRange => "byte must be in range(0, 256)"
  | registerPosition => "bytearray index out of range"
  | stackRead => "list index out of range"
  | stackWrite => "list assignment index out of range"
  | positionSize => "cannot fit 'int' into an index-sized integer"

/-- The byte of an integer that is one. -/
def byte? (i : Int) : Except Fault UInt8 :=
  if 0 ≤ i ∧ i < 256 then .ok (UInt8.ofNat i.toNat) else .error .byteRange

/-- A position among `size` places, counted from the start or, below zero, from
the end. Another position leads to `outside`, an enormous one to its own fault. -/
def position? (size : Nat) (outside : Fault) (i : Int) : Except Fault (Fin size) :=
  if h : 0 ≤ i ∧ i < size then .ok ⟨i.toNat, by omega⟩
  else if h' : -size ≤ i ∧ i < 0 then .ok ⟨(i + size).toNat, by omega⟩
  else if -0x8000000000000000 ≤ i ∧ i < 0x8000000000000000 then .error outside
  else .error .positionSize

theorem position?_of_lt {size : Nat} {outside : Fault} {i : Int} (h : 0 ≤ i ∧ i < size) :
    position? size outside i = .ok ⟨i.toNat, by omega⟩ := by
  simp [position?, h]

end Chip8
