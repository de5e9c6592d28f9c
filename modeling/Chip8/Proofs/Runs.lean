import Chip8.Proofs.Bounds

/-!
# Runs of reachable machines

A reachable machine never breaks a run off, so a run is followed by its machines
alone. Everything that a run passes through is reachable again and keeps the
bounds; only a snapshot without exactly sixteen keys leads to a fault.
-/

namespace Chip8.Machine

/-- The machine after ticks with the given snapshots. -/
def follow (m : Machine) (history : List Keypad) : Machine :=
  history.foldl (fun m keys => (m.tickWith keys).machine) m

@[simp] theorem follow_nil (m : Machine) : m.follow [] = m := rfl

theorem follow_cons (m : Machine) (keys : Keypad) (history : List Keypad) :
    m.follow (keys :: history) = (m.tickWith keys).machine.follow history := rfl

theorem follow_append (m : Machine) (first later : List Keypad) :
    m.follow (first ++ later) = (m.follow first).follow later :=
  List.foldl_append

theorem follow_concat (m : Machine) (history : List Keypad) (keys : Keypad) :
    m.follow (history ++ [keys]) = ((m.follow history).tickWith keys).machine := by
  simp [follow]

theorem Reachable.tickWith {m : Machine} (h : Reachable m) (keys : Keypad) :
    Reachable (m.tickWith keys).machine :=
  h.event (.tick keys)

theorem Reachable.follow {m : Machine} (h : Reachable m) (history : List Keypad) :
    Reachable (m.follow history) := by
  induction history generalizing m with
  | nil => exact h
  | cons keys history ih => exact ih (h.tickWith keys)

/-- A run goes on after a tick that comes to its end. -/
theorem run_cons {m n : Machine} {keys : Keypad} {notices : List Notice}
    (ended : m.tickWith keys = .ended n notices) (history : List Keypad) :
    m.run ((keys :: history).map Vector.toList) =
      .ended n notices :: n.run (history.map Vector.toList) := by
  simp only [List.map_cons, run, tick_toList, ended, Tick.ended]

/-- Every tick of a reachable machine comes to its end, so a run of it goes on. -/
theorem Reachable.run_cons {m : Machine} (h : Reachable m) (keys : Keypad)
    (history : List Keypad) :
    m.run ((keys :: history).map Vector.toList) =
      m.tickWith keys :: (m.tickWith keys).machine.run (history.map Vector.toList) := by
  obtain ⟨n, notices, ended, -⟩ := transition h.bounded.toSafe keys
  rw [Machine.run_cons ended, ended]
  rfl

/-- A run of a reachable machine has a tick for every snapshot. -/
theorem length_run {m : Machine} (h : Reachable m) (history : List Keypad) :
    (m.run (history.map Vector.toList)).length = history.length := by
  induction history generalizing m with
  | nil => rfl
  | cons keys history ih =>
      rw [h.run_cons, List.length_cons, List.length_cons, ih (h.tickWith keys)]

/-- A run may be cut anywhere: its rest is a run of the machine that stands there. -/
theorem run_append {m : Machine} (h : Reachable m) (first later : List Keypad) :
    m.run ((first ++ later).map Vector.toList) =
      m.run (first.map Vector.toList) ++ (m.follow first).run (later.map Vector.toList) := by
  induction first generalizing m with
  | nil => rfl
  | cons keys first ih =>
      rw [List.cons_append, h.run_cons, h.run_cons, follow_cons, List.cons_append,
        ih (h.tickWith keys)]

/-- A tick of a reachable machine hands out what the machine shows after it. -/
theorem Reachable.output_tickWith {m : Machine} (h : Reachable m) (keys : Keypad) :
    (m.tickWith keys).output = .ok (m.tickWith keys).machine.output := by
  obtain ⟨n, notices, ended, -⟩ := transition h.bounded.toSafe keys
  rw [ended]
  rfl

/-- Every tick of a run of a reachable machine hands out what its machine shows. -/
theorem output_run {m : Machine} (h : Reachable m) (history : List Keypad) :
    ∀ t ∈ m.run (history.map Vector.toList), t.output = .ok t.machine.output := by
  induction history generalizing m with
  | nil => exact fun t mem => (nomatch mem)
  | cons keys history ih =>
      intro t mem
      rw [h.run_cons] at mem
      rcases List.mem_cons.1 mem with rfl | later
      · exact h.output_tickWith keys
      · exact ih (h.tickWith keys) t later

/-- The machine at the end of a run of a reachable machine. -/
theorem afterRun_run {m : Machine} (h : Reachable m) (history : List Keypad) :
    m.afterRun (m.run (history.map Vector.toList)) = m.follow history := by
  induction history generalizing m with
  | nil => rfl
  | cons keys history ih =>
      rw [follow_cons, ← ih (h.tickWith keys), h.run_cons]
      simp only [afterRun]
      cases last : ((m.tickWith keys).machine.run (history.map Vector.toList)).getLast? with
      | none => simp [List.getLast?_eq_none_iff.1 last]
      | some t => simp [List.getLast?_cons, last]

/-- Something holds of every tick of a run: of the machine before the tick and its keys. -/
def Throughout (m : Machine) (history : List Keypad) (P : Machine → Keypad → Prop) : Prop :=
  ∀ before keys, before ++ [keys] <+: history → P (m.follow before) keys

theorem throughout_nil (m : Machine) (P : Machine → Keypad → Prop) : m.Throughout [] P := by
  intro before keys passed
  simp at passed

theorem throughout_cons_iff (m : Machine) (keys : Keypad) (history : List Keypad)
    (P : Machine → Keypad → Prop) :
    m.Throughout (keys :: history) P ↔
      P m keys ∧ (m.tickWith keys).machine.Throughout history P := by
  constructor
  · intro all
    refine ⟨all [] keys (by simp), ?_⟩
    intro before last passed
    exact all (keys :: before) last ((List.prefix_cons_inj keys).2 passed)
  · rintro ⟨first, later⟩ before last passed
    cases before with
    | nil =>
        obtain rfl : last = keys := by simpa using passed
        exact first
    | cons keys' before =>
        obtain ⟨rfl, rest⟩ := List.cons_prefix_cons.1 passed
        exact later before last rest

/-- A fresh machine with a program and zeros for random bytes. -/
def loaded (program : List UInt8) : Machine := (initial (Generator.cycle [])).load program

theorem reachable_loaded (program : List UInt8) : Reachable (loaded program) :=
  .event (.load program) (.initial _)

theorem tick_of_length {m : Machine} {keys : List Bool} (h : keys.length = 16) :
    ∃ keypad : Keypad, keypad.toList = keys ∧ m.tick keys = m.tickWith keypad := by
  refine ⟨⟨keys.toArray, by simpa using h⟩, rfl, ?_⟩
  simp [tick, Keypad.ofList?, h]

/-- A reachable state keeps its bounds, a tick with sixteen keys comes to its end, and
a tick with another number of keys is refused and leaves everything as it was. -/
theorem reachable_bounds_and_ticks {m : Machine} (h : Reachable m) :
    (m.memory.bytes.toList.length = 4096 ∧ ∀ b ∈ m.memory.bytes.toList, b.toNat ≤ 255) ∧
    (m.registers.toList.length = 16 ∧ ∀ b ∈ m.registers.toList, b.toNat ≤ 255) ∧
    m.index.value ≤ 0xFFF ∧
    (0 ≤ m.pc ∧ m.pc ≤ 0xFFF) ∧
    (0 ≤ m.stack.pointer ∧ m.stack.pointer ≤ 16) ∧
    (m.stack.slots.toList.length = 16 ∧ ∀ a ∈ m.stack.slots.toList, 0 ≤ a ∧ a ≤ 0xFFF) ∧
    (0 ≤ m.delay ∧ m.delay ≤ 255) ∧
    (0 ≤ m.sound ∧ m.sound ≤ 255) ∧
    (∀ r c, m.screen.get r c = 0 ∨ m.screen.get r c = 1) ∧
    (∀ register, m.awaiting = some register → 0 ≤ register ∧ register ≤ 15) ∧
    (∀ keys : List Bool, keys.length = 16 → ∃ out, (m.tick keys).output = .ok out) ∧
    (∀ keys : List Bool, keys.length ≠ 16 →
      m.tick keys = .broken m (.keypadSize keys.length)) := by
  have bounds := h.bounded
  have byte : ∀ b : UInt8, b.toNat ≤ 255 := fun b => by
    have := b.toNat_lt
    omega
  refine ⟨⟨by simp, fun b _ => byte b⟩, ⟨by simp, fun b _ => byte b⟩, ?_, bounds.pc, bounds.stack,
    ⟨by simp, bounds.slots⟩, ?_, ?_, bounds.pixels, ?_, ?_, ?_⟩
  · have := m.index.value_lt
    omega
  · have := bounds.delay
    omega
  · have := bounds.sound
    omega
  · intro register waiting
    have := bounds.awaiting register waiting
    omega
  · intro keys length
    obtain ⟨keypad, -, ticked⟩ := tick_of_length (m := m) length
    obtain ⟨n, notices, ended, -⟩ := Machine.transition bounds.toSafe keypad
    exact ⟨n.output, by rw [ticked, ended]; rfl⟩
  · intro keys length
    simp [tick, Keypad.ofList?, length]

/-- A machine whose stack is full and that waits for a key, with sixteen keys and with one. -/
theorem bounds_and_ticks_of_full_and_waiting :
    let m := ((loaded [0x22, 0x00]).follow (List.replicate 16 Keypad.none)).load [0xFF, 0x0A]
    let n := (m.tickWith Keypad.none).machine
    Reachable n ∧ n.awaiting = some 15 ∧ n.stack.pointer = 16 ∧ n.stack.pointer ≤ 16 ∧
      (∃ out, (n.tick (List.replicate 16 true)).output = .ok out) ∧
      n.tick [true] = .broken n (.keypadSize 1) := by
  intro m n
  have reachable : Reachable n :=
    .event (.tick Keypad.none) (.event (.load [0xFF, 0x0A]) ((reachable_loaded _).follow _))
  have state : n.awaiting = some 15 ∧ n.stack.pointer = 16 := by decide +kernel
  obtain ⟨-, -, -, -, stack, -, -, -, -, -, sixteen, others⟩ := reachable_bounds_and_ticks reachable
  exact ⟨reachable, state.1, state.2, stack.2, sixteen _ rfl, others [true] (by decide)⟩

end Chip8.Machine
