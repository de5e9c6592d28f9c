import Chip8.Proofs.Calls

/-!
# Timers over runs

The delay timer counts every tick that starts while no key is awaited, whether the tick carries
an instruction out or reports a condition, and stops at zero. The sound timer counts nothing:
it keeps the value that was stored last, and the tone is on exactly while it is not zero. A tick
counts before it carries its instruction out, so that a value is stored after the count of its
own tick and read after it as well.
-/

namespace Chip8.Machine

/-- How many ticks of a run start while no key is awaited. -/
def runningTicks (m : Machine) : List Keypad → Nat
  | [] => 0
  | keys :: history =>
    (if m.awaiting = none then 1 else 0) + (m.tickWith keys).machine.runningTicks history

/-- No tick of a run carries an instruction out. -/
def NeverExecutes (m : Machine) (history : List Keypad) (op : Opcode) : Prop :=
  m.Throughout history fun n keys => ¬ n.Executes keys op

/-- The last tick of a run that carries an instruction out, between the ticks before it and
those after it. -/
structure LastExecution (m : Machine) (history : List Keypad) (op : Opcode)
    (before : List Keypad) (keys : Keypad) (after : List Keypad) : Prop where
  split : history = before ++ keys :: after
  executes : (m.follow before).Executes keys op
  last : (m.follow (before ++ [keys])).NeverExecutes after op

/-- A run never carries an instruction out, or it does so for a last time. -/
theorem never_or_last (m : Machine) (history : List Keypad) (op : Opcode) :
    m.NeverExecutes history op ∨
      ∃ before keys after, LastExecution m history op before keys after := by
  induction history generalizing m with
  | nil => exact .inl (m.throughout_nil _)
  | cons keys history ih =>
      rcases ih (m.tickWith keys).machine with never | ⟨before, last, after, split, executes, rest⟩
      · by_cases first : m.Executes keys op
        · exact .inr ⟨[], keys, history, rfl, first, never⟩
        · exact .inl ((m.throughout_cons_iff keys history _).2 ⟨first, never⟩)
      · exact .inr ⟨keys :: before, last, after, congrArg (List.cons keys) split, executes, rest⟩

/-- Whether a run carries an instruction out can be read off by evaluation. -/
theorem neverExecutes_of_lookup {m : Machine} {history : List Keypad} {op : Opcode}
    (other : ∀ n < history.length,
      Opcode.lookup (m.follow (history.take n)).fetch.value ≠ some op) :
    m.NeverExecutes history op := by
  intro before keys passed
  apply not_executes_of_lookup
  have inside := passed.length_le
  rw [List.length_append, List.length_singleton] at inside
  rw [List.prefix_iff_eq_take.1 ((List.prefix_append before [keys]).trans passed)]
  exact other _ inside

section Ticks
variable {m : Machine} {keys : Keypad}

/-- What one tick makes of the delay timer. -/
theorem delay_tickWith (h : m.Safe) (keys : Keypad) :
    (m.Executes keys .setDelay →
        (m.tickWith keys).machine.delay = (m.reg m.fetch.x).toNat) ∧
      (¬ m.Executes keys .setDelay →
        (m.tickWith keys).machine.delay =
          if m.awaiting = none then (m.ready keys).delay else m.delay) := by
  rcases executes_or_idles h keys with
    ⟨op, n, move, only, done, machine⟩ | ⟨idle, registers, awaiting, lastError, machine⟩
  · have running := ((only op).2 rfl).1
    rw [machine, only, if_pos running]
    have delay := execute_delay done
    constructor
    · rintro rfl
      exact delay
    · intro other
      exact delay.trans (if_neg (Ne.symm other))
  · rw [machine]
    exact ⟨fun executes => absurd executes (idle _), fun _ => rfl⟩

/-- What one tick makes of the sound timer. -/
theorem sound_tickWith (h : m.Safe) (keys : Keypad) :
    (m.Executes keys .setSound →
        (m.tickWith keys).machine.sound = (m.reg m.fetch.x).toNat) ∧
      (¬ m.Executes keys .setSound → (m.tickWith keys).machine.sound = m.sound) := by
  rcases executes_or_idles h keys with
    ⟨op, n, move, only, done, machine⟩ | ⟨idle, registers, awaiting, lastError, machine⟩
  · rw [machine, only]
    have sound := execute_sound done
    constructor
    · rintro rfl
      exact sound
    · intro other
      exact sound.trans (if_neg (Ne.symm other))
  · rw [machine]
    exact ⟨fun executes => absurd executes (idle _), fun _ => rfl⟩

/-- A tick that reads the delay timer reads it after its own count. -/
theorem reg_tickWith_of_readDelay (h : m.Safe) (executes : m.Executes keys .readDelay) :
    ((m.tickWith keys).machine.reg m.fetch.x).toNat = max 0 (m.delay - 1) := by
  obtain ⟨running, form, -⟩ := executes
  have bounds := h.ready keys
  have count : (m.ready keys).delay = max 0 (m.delay - 1) := by
    have := h.delay
    rw [delay_ready]
    split <;> omega
  have done := execute_readDelay (m := m.ready keys) m.fetch bounds
  rw [tickWith_execute running form done, ← count]
  change (((m.ready keys).setReg m.fetch.x _).reg m.fetch.x).toNat = (m.ready keys).delay
  rw [reg_setReg, if_pos rfl, UInt8.toNat_ofNat']
  omega

end Ticks

/-- Over a run that does not set it, the delay timer counts down to zero and stays there. -/
theorem delay_follow {m : Machine} (h : Reachable m) {history : List Keypad}
    (unset : m.NeverExecutes history .setDelay) :
    (m.follow history).delay = max 0 (m.delay - m.runningTicks history) := by
  induction history generalizing m with
  | nil =>
      have := h.bounded.delay
      simp only [follow_nil, runningTicks]
      omega
  | cons keys history ih =>
      obtain ⟨first, later⟩ := (m.throughout_cons_iff keys history _).1 unset
      have tick := (delay_tickWith h.bounded.toSafe keys).2 first
      rw [follow_cons, ih (h.tickWith keys) later, tick, runningTicks]
      by_cases running : m.awaiting = none
      · rw [if_pos running, if_pos running, delay_ready]
        split <;> omega
      · rw [if_neg running, if_neg running, Nat.zero_add]

/-- Over a run that does not set it, the sound timer stays as it is. -/
theorem sound_follow {m : Machine} (h : Reachable m) {history : List Keypad}
    (unset : m.NeverExecutes history .setSound) : (m.follow history).sound = m.sound := by
  induction history generalizing m with
  | nil => rfl
  | cons keys history ih =>
      obtain ⟨first, later⟩ := (m.throughout_cons_iff keys history _).1 unset
      rw [follow_cons, ih (h.tickWith keys) later]
      exact (sound_tickWith h.bounded.toSafe keys).2 first

theorem LastExecution.follow_eq {m : Machine} {history before after : List Keypad} {op : Opcode}
    {keys : Keypad} (l : LastExecution m history op before keys after) :
    m.follow history = (m.follow (before ++ [keys])).follow after := by
  rw [l.split, List.append_cons, follow_append]

/-- Both timers in closed form over a run, with what the ticks read and hand out. -/
theorem timers_over_run {m : Machine} (h : Reachable m) (history : List Keypad) :
    let n := m.follow history
    let ticks := m.run (history.map Vector.toList)
    (∀ op, m.NeverExecutes history op ∨
      ∃ before keys after, LastExecution m history op before keys after) ∧
    (m.NeverExecutes history .setDelay → n.delay = max 0 (m.delay - m.runningTicks history)) ∧
    (∀ before keys after, LastExecution m history .setDelay before keys after →
      let stored : Int := ((m.follow before).reg (m.follow before).fetch.x).toNat
      n.delay = max 0 (stored - (m.follow (before ++ [keys])).runningTicks after)) ∧
    (∀ before keys, before ++ [keys] <+: history → (m.follow before).Executes keys .readDelay →
      ((m.follow (before ++ [keys])).reg (m.follow before).fetch.x).toNat =
        max 0 ((m.follow before).delay - 1)) ∧
    (m.NeverExecutes history .setSound → n.sound = m.sound) ∧
    (∀ before keys after, LastExecution m history .setSound before keys after →
      n.sound = ((m.follow before).reg (m.follow before).fetch.x).toNat) ∧
    ticks.length = history.length ∧ m.afterRun ticks = n ∧
    ∀ t ∈ ticks, ∃ out, t.output = .ok out ∧ (out.beep = true ↔ t.machine.sound ≠ 0) := by
  intro n ticks
  refine ⟨m.never_or_last history, delay_follow h, ?_, ?_, sound_follow h, ?_,
    length_run h history, afterRun_run h history, ?_⟩
  · intro before keys after last stored
    have start := (delay_tickWith (h.follow before).bounded.toSafe keys).1 last.executes
    calc
      n.delay = ((m.follow (before ++ [keys])).follow after).delay := by rw [← last.follow_eq]
      _ = max 0 ((m.follow (before ++ [keys])).delay -
          (m.follow (before ++ [keys])).runningTicks after) := delay_follow (h.follow _) last.last
      _ = _ := by rw [follow_concat, start]
  · intro before keys _ executes
    rw [follow_concat]
    exact reg_tickWith_of_readDelay (h.follow before).bounded.toSafe executes
  · intro before keys after last
    have start := (sound_tickWith (h.follow before).bounded.toSafe keys).1 last.executes
    calc
      n.sound = ((m.follow (before ++ [keys])).follow after).sound := by rw [← last.follow_eq]
      _ = (m.follow (before ++ [keys])).sound := sound_follow (h.follow _) last.last
      _ = _ := by rw [follow_concat, start]
  · intro t mem
    exact ⟨_, output_run h history t mem, bne_iff_ne⟩

/-- A program that sets both timers, reads one, waits for a key and then fails until the delay
timer has run out. -/
theorem timers_over_run_of_wait_and_failure :
    let program : List UInt8 :=
      [0x60, 0x05, 0xF0, 0x15, 0xF0, 0x18, 0xF2, 0x07, 0xF1, 0x0A, 0xFF, 0xFF]
    let k := Keypad.none
    let m := loaded program
    let after := [k, k, k, k, Keypad.ofKeys [3], k, k, k]
    let history := [k] ++ k :: after
    Reachable m ∧ LastExecution m history .setDelay [k] k after ∧
      (m.follow [k, k]).runningTicks after = 6 ∧ (m.follow history).delay = 0 ∧
      (m.follow [k, k, k]).Executes k .readDelay ∧ ((m.follow [k, k, k, k]).reg 2).toNat = 3 ∧
      LastExecution m history .setSound [k, k] k after.tail ∧ (m.follow history).sound = 5 ∧
      ∀ t ∈ m.run (history.map Vector.toList), ∃ out, t.output = .ok out ∧
        (out.beep = true ↔ t.machine.sound ≠ 0) := by
  intro program k m after history
  have reachable : Reachable m := reachable_loaded _
  obtain ⟨carried, unset, toneless, ticks, five, four, two, tone⟩ :
      (∀ p ∈ [([k], Opcode.setDelay), ([k, k], .setSound), ([k, k, k], .readDelay)],
        (m.follow p.1).awaiting = none ∧
          Opcode.lookup (m.follow p.1).fetch.value = some p.2 ∧
          ((m.follow p.1).tickWith k).machine.lastError = none) ∧
      (∀ n < after.length,
        Opcode.lookup ((m.follow [k, k]).follow (after.take n)).fetch.value ≠ some .setDelay) ∧
      (∀ n < after.tail.length,
        Opcode.lookup ((m.follow [k, k, k]).follow (after.tail.take n)).fetch.value ≠
          some .setSound) ∧
      (m.follow [k, k]).runningTicks after = 6 ∧
      ((m.follow [k]).reg (m.follow [k]).fetch.x).toNat = 5 ∧
      (m.follow [k, k, k]).delay = 4 ∧ (m.follow [k, k, k]).fetch.x = 2 ∧
      ((m.follow [k, k]).reg (m.follow [k, k]).fetch.x).toNat = 5 := by decide +kernel
  have executes : ∀ p ∈ [([k], Opcode.setDelay), ([k, k], .setSound), ([k, k, k], .readDelay)],
      (m.follow p.1).Executes k p.2 := fun p mem =>
    executes_of_lookup (reachable.follow p.1).bounded.toSafe (carried p mem)
  have delay : LastExecution m history .setDelay [k] k after :=
    ⟨rfl, executes ([k], _) (by simp), neverExecutes_of_lookup unset⟩
  have sound : LastExecution m history .setSound [k, k] k after.tail :=
    ⟨rfl, executes ([k, k], _) (by simp), neverExecutes_of_lookup toneless⟩
  have read : (m.follow [k, k, k]).Executes k .readDelay := executes ([k, k, k], _) (by simp)
  obtain ⟨-, -, closed, values, -, kept, -, -, beeps⟩ := timers_over_run reachable history
  refine ⟨reachable, delay, ticks, ?_, read, ?_, sound, ?_, beeps⟩
  · have final := closed _ _ _ delay
    change _ = max 0 (_ - (((m.follow [k, k]).runningTicks after : Nat) : Int)) at final
    rw [five, ticks] at final
    exact final
  · have value := values [k, k, k] k ⟨[k, k, Keypad.ofKeys [3], k, k, k], rfl⟩ read
    rw [two, four] at value
    exact Int.ofNat_inj.1 value
  · exact (kept _ _ _ sound).trans (congrArg Nat.cast tone)

end Chip8.Machine
