/-!
# The keypad

Sixteen keys, one for every hexadecimal digit. The machine looks at a snapshot
of all of them at once.
-/

namespace Chip8

/-- Which of the sixteen keys are down. -/
abbrev Keypad := Vector Bool 16

namespace Keypad

/-- The number of keys. -/
def size : Nat := 16

/-- No key is down. -/
def none : Keypad := Vector.replicate 16 false

/-- A snapshot of exactly sixteen keys, key zero first. -/
def ofList? (keys : List Bool) : Option Keypad :=
  if h : keys.length = 16 then some ⟨keys.toArray, by simpa using h⟩ else .none

/-- Whether a key is down. -/
def isDown (k : Keypad) (key : Fin 16) : Bool := k.get key

/-- The lowest key that is down. -/
def lowest? (k : Keypad) : Option (Fin 16) := (List.finRange 16).find? fun key => k.isDown key

/-- The keypad on which exactly the given keys are down. -/
def ofKeys (keys : List (Fin 16)) : Keypad := Vector.ofFn fun key => keys.contains key

end Keypad

end Chip8
