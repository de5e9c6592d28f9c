import Chip8.Machine.Condition

/-!
# The call stack

Sixteen slots for return addresses and a pointer to the first free one. Slots at
and above the pointer keep what was left in them. The addresses on the stack are
seen through `entries`.
-/

namespace Chip8

/-- Return addresses and the pointer behind the last. -/
structure CallStack where
  slots : Vector Int 16
  pointer : Int
deriving DecidableEq

namespace CallStack

/-- The number of slots. -/
def capacity : Nat := 16

/-- A stack without addresses. -/
def empty : CallStack := ⟨Vector.replicate 16 0, 0⟩

/-- The addresses on the stack, the oldest first. -/
def entries (s : CallStack) : List Int := s.slots.toList.take s.pointer.toNat

/-- The stack with one slot changed. -/
def write (s : CallStack) (slot : Int) (address : Int) : Except Fault CallStack :=
  (position? 16 .stackWrite slot).map fun (i : Fin 16) => { s with slots := s.slots.setIfInBounds i address }

/-- What comes of a push or a pop, with the stack that it leaves. -/
inductive Access (α : Type)
  | done (s : CallStack) (a : α)
  | refused (s : CallStack)
  | fault (s : CallStack) (f : Fault)

/-- One more address. A full stack refuses it. -/
def push (s : CallStack) (address : Int) : Access Unit :=
  if 16 ≤ s.pointer then .refused s
  else
    match s.write s.pointer address with
    | .ok written => .done { written with pointer := s.pointer + 1 } ()
    | .error f => .fault s f

/-- The last address taken off. An empty stack refuses it. -/
def pop (s : CallStack) : Access Int :=
  if s.pointer = 0 then .refused s
  else
    let lowered := { s with pointer := s.pointer - 1 }
    match position? 16 .stackRead lowered.pointer with
    | .ok i => .done lowered (s.slots.get i)
    | .error f => .fault lowered f

end CallStack

end Chip8
