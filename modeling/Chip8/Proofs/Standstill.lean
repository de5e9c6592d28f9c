import Chip8.Proofs.Conditions

/-!
# Machines that stand still

A condition arises from the word at the program counter and from the stack pointer, and
the tick that reports it leaves both as they were. So the next tick reports the same
condition, and so does every tick after it. A machine that stands still only counts its
delay timer down.
-/

namespace Chip8.Machine

/-- The next tick reports a condition. -/
def Stuck (m : Machine) (c : Condition) : Prop := m.awaiting = none ∧ m.Arises c

/-- The machine after some ticks without effect, the last of them with the given keys. -/
def stood (m : Machine) (c : Condition) (ticks : Nat) (keys : Keypad) : Machine :=
  { m with keypad := keys, changed := false, lastError := some c, delay := max 0 (m.delay - ticks) }

theorem delay_stood_nonneg (m : Machine) (c : Condition) (ticks : Nat) (keys : Keypad) :
    0 ≤ (m.stood c ticks keys).delay := Int.le_max_left 0 _

section Stuck
variable {m : Machine} {c : Condition}

/-- What a machine leaves alone while it stands still is all that a condition looks at. -/
theorem Stuck.stood (h : m.Stuck c) (ticks : Nat) (keys : Keypad) :
    (m.stood c ticks keys).Stuck c := by
  obtain ⟨running, arises⟩ := h
  refine ⟨running, ?_⟩
  cases c <;> exact arises

theorem Stuck.tickWith (h : m.Stuck c) (timer : 0 ≤ m.delay) (keys : Keypad) :
    m.tickWith keys = .ended (m.stood c 1 keys) [.failed m.pc c] := by
  have count : (m.ready keys).delay = max 0 (m.delay - (1 : Nat)) := by
    rw [delay_ready]
    split <;> omega
  have same : { m.ready keys with lastError := some c } = m.stood c 1 keys := by
    rw [Machine.stood, ← count]
    rfl
  rw [tickWith_refuse h.1 h.2, report, same]
  rfl

theorem stood_stood (m : Machine) (c : Condition) (first later : Nat) (keys keys' : Keypad) :
    (m.stood c first keys).stood c later keys' = m.stood c (first + later) keys' := by
  simp only [stood, mk.injEq, true_and, and_true]
  omega

/-- A machine that stands still goes on to do so, whatever keys are pressed. -/
theorem Stuck.follow (h : m.Stuck c) (timer : 0 ≤ m.delay) (keys : Keypad)
    (history : List Keypad) :
    m.follow (keys :: history) = m.stood c (history.length + 1) (history.getLastD keys) := by
  induction history generalizing m keys with
  | nil =>
      rw [follow_cons, h.tickWith timer]
      rfl
  | cons keys' history ih =>
      -- The machine after the first tick is stuck as well, and its delay timer has counted once.
      have later := ih (h.stood 1 keys) (m.delay_stood_nonneg c 1 keys) keys'
      rw [stood_stood, Nat.add_comm 1, ← List.getLastD_cons] at later
      rw [follow_cons, h.tickWith timer]
      exact later

/-- All ticks of a machine that stands still hand out the same. -/
theorem Stuck.output_run (h : m.Stuck c) (timer : 0 ≤ m.delay) (history : List Keypad) :
    ∀ t ∈ m.run (history.map Vector.toList),
      t.output = .ok ⟨m.screen, false, m.beeping, some c⟩ := by
  induction history generalizing m with
  | nil => exact fun t mem => (nomatch mem)
  | cons keys history ih =>
      intro t mem
      rw [run_cons (h.tickWith timer keys)] at mem
      rcases List.mem_cons.1 mem with rfl | later
      · rfl
      · exact ih (h.stood 1 keys) (m.delay_stood_nonneg c 1 keys) t later

end Stuck

/-- A tick that reports a condition finds the machine stuck. -/
theorem stuck_of_error {m : Machine} (h : m.Safe) {keys : Keypad} {out : Output} {c : Condition}
    (ended : (m.tickWith keys).output = .ok out) (failed : out.error = some c) : m.Stuck c := by
  obtain ⟨n, notices, ticked, t⟩ := transition h keys
  rw [ticked] at ended
  cases ended
  obtain ⟨running, arises, -⟩ := t.refused failed
  exact ⟨running, arises⟩

/-- The next tick reports a condition, also if the machine lies outside the bounds of
reachable ones. -/
def Refuses (m : Machine) (c : Condition) : Prop :=
  m.awaiting = none ∧
    (m.current = .error c ∨ ∃ ins, m.current = .ok ins ∧ m.execute ins = .refused m c)

section Refuses
variable {m n : Machine} {c : Condition}

/-- A refusal depends on the instruction at the program counter and on the stack alone. -/
theorem Refuses.of_same (h : m.Refuses c) (awaiting : n.awaiting = m.awaiting)
    (current : n.current = m.current) (stack : n.stack = m.stack) : n.Refuses c := by
  obtain ⟨running, refused⟩ := h
  refine ⟨awaiting.trans running, ?_⟩
  rw [current]
  simpa only [execute_refused_iff_pointer, stack] using refused

theorem Refuses.tickWith (h : m.Refuses c) (keys : Keypad) :
    m.tickWith keys = (m.ready keys).report c := by
  have ready : (m.ready keys).Refuses c := h.of_same rfl rfl rfl
  rw [tickWith_run h.1, step]
  rcases ready.2 with failed | ⟨ins, decoded, refused⟩
  · rw [failed]
  · simp only [decoded, refused]

/-- A machine that refuses goes on to refuse after the tick that reports it. -/
theorem Refuses.machine_tickWith (h : m.Refuses c) (keys : Keypad) :
    (m.tickWith keys).machine.Refuses c := by
  rw [h.tickWith keys]
  exact h.of_same rfl rfl rfl

/-- A tick that reports a condition finds the machine refusing. -/
theorem refuses_of_error {keys : Keypad} {out : Output}
    (ended : (m.tickWith keys).output = .ok out) (failed : out.error = some c) : m.Refuses c := by
  cases waiting : m.awaiting with
  | some register =>
      rw [tickWith_sample waiting, sampleKey] at ended
      split at ended
      · cases ended
        cases failed
      · split at ended
        · cases ended
          cases failed
        · cases ended
  | none =>
      have silent : (m.ready keys).lastError = none := rfl
      rw [tickWith_run waiting, step] at ended
      refine Refuses.of_same (m := m.ready keys) ⟨waiting, ?_⟩ rfl rfl rfl
      split at ended
      next c' failing =>
        cases ended
        cases failed
        exact .inl failing
      next ins decoded =>
        split at ended
        next n move done =>
          cases ended
          rw [← (execute_control done).2.2] at silent
          cases silent.symm.trans failed
        next n c' refused =>
          cases eq_of_execute_refused refused
          cases ended
          cases failed
          exact .inr ⟨ins, decoded, refused⟩
        next n f fault => cases ended

end Refuses

/-- A fresh machine without a program finds no instruction. -/
theorem refuses_initial (g : Generator) : (initial g).Refuses (.unrecognized 0) := by
  have zero : (initial g).fetch = ⟨0, by decide⟩ := by
    change Word.ofBytes (Memory.initial.get (Address.ofInt 0x200))
      (Memory.initial.get (Address.ofInt 0x201)) = _
    decide +kernel
  refine ⟨rfl, .inl ?_⟩
  rw [current, zero]
  rfl

/-- A tick that reports a condition is followed by ticks that hand out the very same. The
machine stays as it was, apart from the keys and the delay timer. -/
theorem stands_still_after_error {m : Machine} (h : Reachable m) {keys : Keypad} {out : Output}
    {c : Condition} (ended : (m.tick keys.toList).output = .ok out) (failed : out.error = some c)
    (history : List Keypad) :
    let n := (m.tick keys.toList).machine
    let ticks := n.run (history.map Vector.toList)
    ticks.length = history.length ∧
      (∀ t ∈ ticks, t.output = .ok out) ∧ out.changed = false ∧
      n.afterRun ticks =
        { m with
          keypad := history.getLastD keys
          changed := false
          lastError := some c
          delay := max 0 (n.delay - history.length) } := by
  intro n ticks
  have machine : n = (m.tickWith keys).machine := congrArg Tick.machine (tick_toList m keys)
  rw [tick_toList] at ended
  have stuck := stuck_of_error h.bounded.toSafe ended failed
  have timer : 0 ≤ m.delay := h.bounded.delay.1
  have stays : n = m.stood c 1 keys :=
    machine.trans (congrArg Tick.machine (stuck.tickWith timer keys))
  rw [stuck.tickWith timer] at ended
  cases ended
  have reachable : Reachable n := machine ▸ h.tickWith keys
  have count : max 0 (m.delay - (history.length + 1 : Nat)) =
      max 0 (n.delay - history.length) := by
    simp only [stays, stood]
    omega
  refine ⟨length_run reachable history, ?_, rfl, ?_⟩
  · intro t mem
    simp only [ticks, stays] at mem
    exact (stuck.stood 1 keys).output_run (m.delay_stood_nonneg c 1 keys) history t mem
  · calc
      n.afterRun ticks = n.follow history := afterRun_run reachable history
      _ = m.follow (keys :: history) := by rw [machine, follow_cons]
      _ = m.stood c (history.length + 1) (history.getLastD keys) :=
        stuck.follow timer keys history
      _ = _ := by rw [stood, count]

/-- A machine with a full stack at a call, while its delay timer still runs. -/
def overflowing : Machine :=
  (loaded [0x60, 0x14, 0xF0, 0x15, 0x22, 0x04]).follow (List.replicate 18 Keypad.none)

/-- A machine with a full stack calls again and again, first while its delay timer runs
and then after the timer has run out. -/
theorem stands_still_after_overflow :
    let n := (overflowing.tick Keypad.none.toList).machine
    let ticks := n.run ((List.replicate 5 (Keypad.ofKeys [3])).map Vector.toList)
    Reachable overflowing ∧ n.delay = 3 ∧
      ∃ out, (overflowing.tick Keypad.none.toList).output = .ok out ∧
        out.error = some .stackOverflow ∧ ticks.length = 5 ∧ (∀ t ∈ ticks, t.output = .ok out) ∧
        n.afterRun ticks =
          { overflowing with
            keypad := Keypad.ofKeys [3]
            changed := false
            lastError := some .stackOverflow
            delay := 0 } := by
  have reachable : Reachable overflowing := (reachable_loaded _).follow _
  obtain ⟨four, running, full, call⟩ : overflowing.delay = 4 ∧ overflowing.awaiting = none ∧
      overflowing.stack.pointer = 16 ∧
      Opcode.lookup overflowing.fetch.value = some .call := by decide +kernel
  have stuck : overflowing.Stuck .stackOverflow :=
    ⟨running, (Opcode.lookup_eq_some_iff _ _).1 call, full⟩
  have ticked := stuck.tickWith reachable.bounded.delay.1 Keypad.none
  rw [← tick_toList] at ticked
  have delay : (overflowing.tick Keypad.none.toList).machine.delay = 3 := by
    rw [ticked]
    change max 0 (overflowing.delay - 1) = 3
    omega
  have ended := congrArg Tick.output ticked
  obtain ⟨length, same, -, after⟩ := stands_still_after_error reachable ended rfl
    (List.replicate 5 (Keypad.ofKeys [3]))
  refine ⟨reachable, delay, _, ended, rfl, length, same, ?_⟩
  rw [after, delay]
  rfl

end Chip8.Machine
