import Chip8.Keypad

/-!
# Controls

The keypad lies on the left half of a keyboard, row by row. Escape ends a
session, P pauses it and Backspace starts the program over.
-/

namespace Chip8

/-- What happens at the window. -/
inductive WindowEvent
  | quit
  | keyDown (code : Int)
  | keyUp (code : Int)
  | motion
deriving DecidableEq

namespace Controls

/-- The code of a character's key. -/
def codeOf (c : Char) : Int := c.toNat

/-- The key of the keypad under every character. -/
def keyMap : List (Char × Fin 16) :=
  [('1', 0x1), ('2', 0x2), ('3', 0x3), ('4', 0xC),
    ('q', 0x4), ('w', 0x5), ('e', 0x6), ('r', 0xD),
    ('a', 0x7), ('s', 0x8), ('d', 0x9), ('f', 0xE),
    ('z', 0xA), ('x', 0x0), ('c', 0xB), ('v', 0xF)]

/-- The code of Escape. -/
def escape : Int := 27

/-- The code of the key that pauses. -/
def pause : Int := codeOf 'p'

/-- The code of Backspace. -/
def backspace : Int := 8

/-- The keypad while the keys with the given codes are held. -/
def snapshot (held : List Int) : Keypad :=
  Keypad.ofKeys ((keyMap.filter fun entry => held.contains (codeOf entry.1)).map Prod.snd)

end Controls

end Chip8
