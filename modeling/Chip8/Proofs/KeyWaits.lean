import Chip8.Proofs.Inputs

/-!
# Waiting for a key

A machine that waits for a key does nothing else: a tick without a key replaces the snapshot and
leaves all the rest alone, and the first tick with a key puts the lowest one into the awaited
register. Nothing that comes later tells how many ticks the wait took.
-/

namespace Chip8

theorem Keypad.isDown_none (key : Fin 16) : Keypad.none.isDown key = false := by
  simp [Keypad.none, isDown, Vector.get]

theorem Keypad.exists_isLowest {keys : Keypad} {key : Fin 16} (down : keys.isDown key = true) :
    ∃ lowest, keys.IsLowest lowest := by
  cases found : keys.lowest? with
  | some lowest => exact ⟨lowest, (keys.lowest?_eq_some_iff lowest).1 found⟩
  | none =>
      have up := keys.lowest?_eq_none_iff.1 found key
      cases down.symm.trans up

namespace Machine

/-- A reachable machine comes to wait by a tick that neither draws nor reports anything. -/
theorem Reachable.silent_of_awaiting {m : Machine} (h : Reachable m) :
    m.awaiting ≠ none → m.changed = false ∧ m.lastError = none := by
  induction h with
  | initial g => exact fun waiting => absurd rfl waiting
  | @event m e reachable ih =>
      cases e with
      | load program => exact ih
      | reset => exact fun waiting => absurd rfl waiting
      | tick keys =>
          obtain ⟨n, notices, ended, t⟩ := transition reachable.bounded.toSafe keys
          intro waiting
          simp only [apply, ended, Tick.ended] at waiting ⊢
          cases t with
          | wait => exact ⟨rfl, rfl⟩
          | resume => exact absurd rfl waiting
          | refuse running => exact absurd running waiting
          | @execute op n move running form done =>
              obtain rfl : op = .awaitKey := by
                by_contra other
                exact waiting ((execute_awaiting done).trans ((if_neg other).trans running))
              have undrawn : n.screen = m.screen ∧ n.changed = false :=
                execute_frame done .screen (by simp [Opcode.writes])
              exact ⟨undrawn.2, (execute_control done).2.2⟩

section Wait
variable {m : Machine} {r : Fin 16}

/-- What a tick starts from while a key is awaited. -/
theorem Reachable.begin_of_awaiting (h : Reachable m) (waiting : m.awaiting = some (r.val : Int))
    (keys : Keypad) : m.begin keys = { m with keypad := keys } := by
  obtain ⟨unchanged, silent⟩ := h.silent_of_awaiting (by simp [waiting])
  rw [begin, ← unchanged, ← silent]

theorem Reachable.tickWith_up (h : Reachable m) (waiting : m.awaiting = some (r.val : Int))
    {keys : Keypad} (up : ∀ key, keys.isDown key = false) :
    m.tickWith keys = .ended { m with keypad := keys } [] := by
  rw [tickWith_wait waiting (keys.lowest?_eq_none_iff.2 up), h.begin_of_awaiting waiting]

theorem Reachable.tickWith_down (h : Reachable m) (waiting : m.awaiting = some (r.val : Int))
    {keys : Keypad} {key : Fin 16} (lowest : keys.IsLowest key) :
    m.tickWith keys =
      .ended { m.setReg r (UInt8.ofNat key.val) with awaiting := none, keypad := keys }
        [.keyStored key r.val] := by
  rw [tickWith_resume waiting ((keys.lowest?_eq_some_iff key).2 lowest),
    h.begin_of_awaiting waiting]
  rfl

/-- Ticks without a key replace the snapshot and nothing else. -/
theorem Reachable.follow_up (h : Reachable m) (waiting : m.awaiting = some (r.val : Int))
    {idle : List Keypad} (up : ∀ keys ∈ idle, ∀ key, keys.isDown key = false) :
    m.follow idle = { m with keypad := idle.getLastD m.keypad } := by
  induction idle generalizing m with
  | nil => rfl
  | cons keys idle ih =>
      obtain ⟨first, later⟩ := List.forall_mem_cons.1 up
      have ticked := h.tickWith_up waiting first
      have next := h.tickWith keys
      rw [ticked] at next
      rw [follow_cons, ticked, List.getLastD_cons]
      exact ih next waiting later

/-- Ticks of a wait show the machine as it stands, whether or not they end the wait. -/
theorem Reachable.output_of_awaiting (h : Reachable m) (waiting : m.awaiting = some (r.val : Int))
    (keys : Keypad) :
    (m.tickWith keys).output = .ok ⟨m.screen, false, m.beeping, none⟩ := by
  have shown : m.output = ⟨m.screen, false, m.beeping, none⟩ := by
    obtain ⟨unchanged, silent⟩ := h.silent_of_awaiting (by simp [waiting])
    rw [output, unchanged, silent]
  rw [← shown]
  cases found : keys.lowest? with
  | none =>
      rw [h.tickWith_up waiting (keys.lowest?_eq_none_iff.1 found)]
      rfl
  | some key =>
      rw [h.tickWith_down waiting ((keys.lowest?_eq_some_iff key).1 found)]
      rfl

theorem Reachable.output_run_up (h : Reachable m) (waiting : m.awaiting = some (r.val : Int))
    {idle : List Keypad} (up : ∀ keys ∈ idle, ∀ key, keys.isDown key = false) :
    ∀ t ∈ m.run (idle.map Vector.toList), t.output = .ok ⟨m.screen, false, m.beeping, none⟩ := by
  induction idle generalizing m with
  | nil => exact fun t mem => (nomatch mem)
  | cons keys idle ih =>
      obtain ⟨first, later⟩ := List.forall_mem_cons.1 up
      have ticked := h.tickWith_up waiting first
      have shown := h.output_of_awaiting waiting keys
      have next := h.tickWith keys
      rw [ticked] at shown next
      intro t mem
      rw [h.run_cons, ticked] at mem
      rcases List.mem_cons.1 mem with rfl | rest
      · exact shown
      · exact ih next waiting later t rest

end Wait

/-- A tick looks at nothing of the snapshot before it. -/
theorem tickWith_keypad (m : Machine) (keypad keys : Keypad) :
    ({ m with keypad := keypad } : Machine).tickWith keys = m.tickWith keys := rfl

theorem run_keypad (m : Machine) (keypad : Keypad) (history : List Keypad) :
    ({ m with keypad := keypad } : Machine).run (history.map Vector.toList) =
      m.run (history.map Vector.toList) := by
  cases history with
  | nil => rfl
  | cons keys history => simp only [List.map_cons, run, tick_toList, tickWith_keypad]

theorem follow_keypad (m : Machine) (keypad : Keypad) {history : List Keypad}
    (some : history ≠ []) :
    ({ m with keypad := keypad } : Machine).follow history = m.follow history := by
  obtain ⟨keys, later, rfl⟩ := List.exists_cons_of_ne_nil some
  rw [follow_cons, follow_cons, tickWith_keypad]

/-- A machine that waits for a key stands still until one is down, and then it only takes the
lowest one. Ticks without a key that are put in while it waits change nothing that comes later. -/
theorem waiting_stutters {m : Machine} (h : Reachable m) {before idle : List Keypad} {r : Fin 16}
    (waiting : (m.follow before).awaiting = some (r.val : Int))
    (up : ∀ keys ∈ idle, ∀ key, keys.isDown key = false) :
    let w := m.follow before
    (∀ keys key, keys.isDown key = true → ∃ lowest, keys.IsLowest lowest ∧
      w.follow (idle ++ [keys]) = (w.tick keys.toList).machine ∧
      w.follow (idle ++ [keys]) =
        { w.setReg r (UInt8.ofNat lowest.val) with awaiting := none, keypad := keys } ∧
      let ticks := w.run ((idle ++ [keys]).map Vector.toList)
      ticks.length = idle.length + 1 ∧
        ∀ t ∈ ticks, t.output = .ok ⟨w.screen, false, w.sound != 0, none⟩) ∧
    ∀ later,
      m.run ((before ++ later).map Vector.toList) =
        m.run (before.map Vector.toList) ++ w.run (later.map Vector.toList) ∧
      m.run ((before ++ idle ++ later).map Vector.toList) =
        m.run (before.map Vector.toList) ++ w.run (idle.map Vector.toList) ++
          w.run (later.map Vector.toList) ∧
      (later ≠ [] → m.follow (before ++ idle ++ later) = m.follow (before ++ later)) := by
  intro w
  have reachable : Reachable w := h.follow before
  have idles : w.follow idle = { w with keypad := idle.getLastD w.keypad } :=
    reachable.follow_up waiting up
  have resumes (later : List Keypad) :
      (w.follow idle).run (later.map Vector.toList) = w.run (later.map Vector.toList) := by
    rw [idles]
    exact run_keypad w _ later
  constructor
  · intro keys key down
    obtain ⟨lowest, isLowest⟩ := Keypad.exists_isLowest down
    have ended := reachable.tickWith_down waiting isLowest
    have last : w.follow (idle ++ [keys]) = (w.tickWith keys).machine := by
      rw [follow_concat, idles, tickWith_keypad]
    refine ⟨lowest, isLowest, by rw [last, tick_toList], by rw [last, ended]; rfl, ?_, ?_⟩
    · rw [length_run reachable, List.length_append, List.length_singleton]
    · intro t mem
      rw [run_append reachable, resumes] at mem
      rcases List.mem_append.1 mem with idling | taking
      · exact reachable.output_run_up waiting up t idling
      · have shown := reachable.output_of_awaiting waiting keys
        rw [ended] at shown
        rw [run_cons ended] at taking
        rw [List.mem_singleton.1 taking]
        exact shown
  · intro later
    refine ⟨run_append h before later, ?_, ?_⟩
    · rw [run_append h, run_append h, follow_append, resumes]
    · intro some
      rw [follow_append, follow_append, follow_append, idles, follow_keypad _ _ some]

/-- A program that turns the tone on and waits for a key into the flag register. -/
theorem waiting_stutters_of_flag :
    let m := loaded [0x60, 0x09, 0xF0, 0x18, 0xFF, 0x0A, 0x61, 0x07]
    let before := [.none, .none, Keypad.ofKeys [5]]
    let idle := List.replicate 2 Keypad.none
    let keys := Keypad.ofKeys [3, 9]
    let w := m.follow before
    Reachable m ∧ w.awaiting = some 15 ∧
      w.follow (idle ++ [keys]) = { w.setReg flag 3 with awaiting := none, keypad := keys } ∧
      (∀ t ∈ w.run ((idle ++ [keys]).map Vector.toList),
        t.output = .ok ⟨w.screen, false, true, none⟩) ∧
      m.follow (before ++ idle ++ [keys, .none]) = m.follow (before ++ [keys, .none]) := by
  intro m before idle keys w
  have reachable : Reachable m := reachable_loaded _
  obtain ⟨waiting, sound, three⟩ :
      w.awaiting = some ((flag.val : Nat) : Int) ∧ (w.sound != 0) = true ∧
        keys.lowest? = some 3 := by decide +kernel
  have up : ∀ k ∈ idle, ∀ key, k.isDown key = false := by
    intro k mem key
    rw [List.eq_of_mem_replicate mem]
    exact Keypad.isDown_none key
  obtain ⟨press, insert⟩ := waiting_stutters reachable waiting up
  obtain ⟨lowest, isLowest, -, taken, -, shown⟩ := press keys 3 (by decide +kernel)
  obtain rfl : lowest = 3 :=
    Option.some.inj (((keys.lowest?_eq_some_iff lowest).2 isLowest).symm.trans three)
  rw [sound] at shown
  exact ⟨reachable, waiting, taken, shown, (insert _).2.2 (by simp)⟩

end Machine

end Chip8
