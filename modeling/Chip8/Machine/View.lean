import Chip8.Machine.State

/-!
# Pictures handed out

A picture that a tick hands out is a view of the machine: it shows what is drawn
later. A reset gives the machine a new picture, and the view keeps the old one.
-/

namespace Chip8.Machine

/-- A picture handed out by a tick. -/
inductive View
  | live
  | kept (screen : Screen)

namespace View

/-- What a view shows beside the machine. -/
def screen (m : Machine) : View → Screen
  | live => m.screen
  | kept screen => screen

/-- A view after the machine is reset; the machine is given as it was before. -/
def afterReset (m : Machine) (view : View) : View := kept (view.screen m)

end View

end Chip8.Machine
