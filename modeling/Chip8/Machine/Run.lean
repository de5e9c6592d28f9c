import Chip8.Machine.Tick

/-!
# Runs

A run is a sequence of ticks. The states that a fresh machine comes to by loads,
ticks and resets are the reachable ones.
-/

namespace Chip8.Machine

/-- The ticks of a run, up to the first that a fault breaks off. -/
def run (m : Machine) : List (List Bool) → List Tick
  | [] => []
  | keys :: rest =>
    let t := m.tick keys
    match t.output with
    | .ok _ => t :: run t.machine rest
    | .error _ => [t]

/-- The machine at the end of a run. -/
def afterRun (m : Machine) (ticks : List Tick) : Machine :=
  match ticks.getLast? with
  | some t => t.machine
  | none => m

/-- What a run with the same keys all along amounts to. -/
structure Tally where
  machine : Machine
  ticks : Nat
  errors : Nat
  firstError : Option (Nat × Condition)
  changes : Nat
  beeps : Nat
  /-- The program counters after the ticks, the latest first. -/
  counters : List Int
  fault : Option Fault

/-- The tally of no ticks. -/
def Tally.start (m : Machine) : Tally := ⟨m, 0, 0, none, 0, 0, [], none⟩

/-- The tally with one more tick. -/
def Tally.add (t : Tally) (tick : Tick) : Tally :=
  match tick.output with
  | .error f => { t with machine := tick.machine, fault := some f }
  | .ok out =>
    { machine := tick.machine
      ticks := t.ticks + 1
      errors := t.errors + if out.error.isSome then 1 else 0
      firstError := t.firstError <|> out.error.map fun c => (t.ticks, c)
      changes := t.changes + if out.changed then 1 else 0
      beeps := t.beeps + if out.beep then 1 else 0
      counters := tick.machine.pc :: t.counters
      fault := none }

/-- The tally of at most `n` ticks with the same keys. -/
def Tally.run (keys : List Bool) : Nat → Tally → Tally
  | 0, t => t
  | n + 1, t =>
    match t.fault with
    | some _ => t
    | none => run keys n (t.add (t.machine.tick keys))

/-- What may happen to a machine. -/
inductive Event
  | load (program : List UInt8)
  | tick (keys : Keypad)
  | reset

/-- The machine after an event. -/
def apply (m : Machine) : Event → Machine
  | .load program => m.load program
  | .tick keys => (m.tickWith keys).machine
  | .reset => m.reset

/-- The states that a fresh machine comes to. -/
inductive Reachable : Machine → Prop
  | initial (g : Generator) : Reachable (initial g)
  | event {m : Machine} (e : Event) : Reachable m → Reachable (m.apply e)

theorem tick_toList (m : Machine) (keys : Keypad) : m.tick keys.toList = m.tickWith keys := by
  have h : Keypad.ofList? keys.toList = some keys := by
    simp [Keypad.ofList?, Vector.toList]
  simp [tick, h]

end Chip8.Machine
