import Chip8.Proofs.Runs

/-!
# Calls and returns over runs

The entries of the call stack form a list: a call appends the address behind it, a
return takes the last address off and goes there, and no other tick touches the
list. From this follows that a call comes back: the first return that brings the
stack pointer to where it was goes behind the call and leaves the stack as the
call found it, whatever the subroutine did in between.

## Implementation notes

The invariant of a subroutine is that the entries of its caller and the return
address stay below whatever it calls itself. Only a return of the subroutine
itself could take the return address off, and the first such return ends it.
-/

namespace Chip8.Machine

/-- A tick carries out an instruction and reports nothing. -/
def Executes (m : Machine) (keys : Keypad) (op : Opcode) : Prop :=
  m.awaiting = none ∧ HasForm op.form.toList m.fetch.value ∧
    ∃ out, (m.tick keys.toList).output = .ok out ∧ out.error = none

theorem executes_iff {m n : Machine} {keys : Keypad} {notices : List Notice}
    (ended : m.tickWith keys = .ended n notices) (op : Opcode) :
    m.Executes keys op ↔
      m.awaiting = none ∧ HasForm op.form.toList m.fetch.value ∧ n.lastError = none := by
  simp [Executes, tick_toList, ended, Tick.ended, output]

/-- Whether a tick carries an instruction out can be read off by evaluation. -/
theorem executes_of_lookup {m : Machine} (h : m.Safe) {keys : Keypad} {op : Opcode}
    (state : m.awaiting = none ∧ Opcode.lookup m.fetch.value = some op ∧
      (m.tickWith keys).machine.lastError = none) : m.Executes keys op := by
  obtain ⟨n, notices, ended, -⟩ := transition h keys
  rw [ended] at state
  obtain ⟨running, found, silent⟩ := state
  exact (executes_iff ended op).2 ⟨running, (Opcode.lookup_eq_some_iff _ _).1 found, silent⟩

theorem not_executes_of_lookup {m : Machine} {keys : Keypad} {op : Opcode}
    (other : Opcode.lookup m.fetch.value ≠ some op) : ¬ m.Executes keys op := by
  rintro ⟨-, form, -⟩
  exact other ((Opcode.lookup_eq_some_iff _ _).2 form)

/-- A tick carries out one instruction. Otherwise it reports a condition or looks for a key,
and memory, index, stack, tone, picture and random bytes stay as they were. -/
theorem executes_or_idles {m : Machine} (h : m.Safe) (keys : Keypad) :
    (∃ op n move, (∀ other, m.Executes keys other ↔ other = op) ∧
        (m.ready keys).execute ⟨m.fetch, op⟩ = .done n move ∧
        (m.tickWith keys).machine = { n with pc := moved n.pc move }) ∨
      (∀ op, ¬ m.Executes keys op) ∧ ∃ registers awaiting lastError,
        (m.tickWith keys).machine =
          { m with
            registers := registers
            delay := if m.awaiting = none then (m.ready keys).delay else m.delay
            changed := false
            keypad := keys
            awaiting := awaiting
            lastError := lastError } := by
  obtain ⟨n, notices, ended, t⟩ := transition h keys
  have executes := executes_iff ended
  rw [ended]
  cases t with
  | wait waiting up =>
      refine .inr ⟨?_, m.registers, m.awaiting, none, ?_⟩
      · intro op he
        cases waiting.symm.trans ((executes op).1 he).1
      · rw [waiting]
        exact congrArg (fun a => { m.begin keys with awaiting := a }) waiting
  | @resume register key waiting down =>
      refine .inr ⟨?_, m.registers.set register (UInt8.ofNat key.val), none, none, ?_⟩
      · intro op he
        cases waiting.symm.trans ((executes op).1 he).1
      · rw [waiting]
        rfl
  | @refuse c running arises =>
      refine .inr ⟨?_, m.registers, m.awaiting, some c, ?_⟩
      · intro op he
        cases ((executes op).1 he).2.2
      · rw [if_pos running]
        rfl
  | @execute op n move running form done =>
      refine .inl ⟨op, n, move, ?_, done, rfl⟩
      intro other
      rw [executes]
      constructor
      · rintro ⟨-, otherForm, -⟩
        exact Opcode.eq_of_hasForm otherForm form
      · rintro rfl
        exact ⟨running, form, (execute_control done).2.2⟩

/-- What a tick does to the entries of the stack. -/
structure EntriesStep (m : Machine) (keys : Keypad) (n : Machine) : Prop where
  call : m.Executes keys .call →
    n.stack.entries = m.stack.entries ++ [(m.pc + 2) % 4096] ∧ n.pc = m.fetch.nnn.val
  back : m.Executes keys .returnFromCall → m.stack.entries = n.stack.entries ++ [n.pc]
  other : ¬ m.Executes keys .call → ¬ m.Executes keys .returnFromCall →
    n.stack.entries = m.stack.entries

/-- A tick that carries nothing out leaves the stack alone. -/
theorem EntriesStep.of_idle {m n : Machine} {keys : Keypad} (idle : ∀ op, ¬ m.Executes keys op)
    (same : n.stack = m.stack) : EntriesStep m keys n where
  call executes := absurd executes (idle _)
  back executes := absurd executes (idle _)
  other _ _ := by rw [same]

/-- A tick that carries an instruction out acts on the stack as that instruction does. -/
theorem EntriesStep.of_execute {m n : Machine} {keys : Keypad} {op : Opcode} {move : Move}
    (hs : m.stack.Within) (only : ∀ other, m.Executes keys other ↔ other = op)
    (done : (m.ready keys).execute ⟨m.fetch, op⟩ = .done n move) :
    EntriesStep m keys { n with pc := moved n.pc move } := by
  rcases execute_stack (m := m.ready keys) hs done with
    ⟨rfl, room, pushed, rfl⟩ | ⟨rfl, entry, popped, rfl⟩ | ⟨notCall, notBack, same⟩
  · constructor
    case call =>
      intro _
      rw [pushed]
      exact ⟨CallStack.entries_pushed hs room _, rfl⟩
    case back =>
      intro executes
      cases (only _).1 executes
    case other =>
      intro notCall
      exact absurd ((only _).2 rfl) notCall
  · constructor
    case call =>
      intro executes
      cases (only _).1 executes
    case back =>
      intro _
      rw [popped]
      exact CallStack.entries_popped hs entry
    case other =>
      intro _ notBack
      exact absurd ((only _).2 rfl) notBack
  · constructor
    case call =>
      intro executes
      exact absurd ((only _).1 executes).symm notCall
    case back =>
      intro executes
      exact absurd ((only _).1 executes).symm notBack
    case other =>
      intro _ _
      rw [same]
      rfl

theorem entriesStep_tickWith {m : Machine} (h : m.Bounded) (keys : Keypad) :
    EntriesStep m keys (m.tickWith keys).machine := by
  rcases executes_or_idles h.toSafe keys with
    ⟨op, n, move, only, done, machine⟩ | ⟨idle, registers, awaiting, lastError, machine⟩
  · rw [machine]
    exact EntriesStep.of_execute h.stack only done
  · apply EntriesStep.of_idle idle
    rw [machine]

/-- A run of ticks that starts with a call and ends with the first return that brings
the stack pointer back to its value before the call. -/
structure Subroutine (m : Machine) (first : Keypad) (inner : List Keypad)
    (last : Keypad) : Prop where
  call : m.Executes first .call
  back : (m.follow (first :: inner)).Executes last .returnFromCall
  pointer : (m.follow (first :: inner ++ [last])).stack.pointer = m.stack.pointer
  earlier : ∀ before keys, before ++ [keys] <+: inner →
    (m.follow (first :: before)).Executes keys .returnFromCall →
      (m.follow (first :: before ++ [keys])).stack.pointer ≠ m.stack.pointer

/-- Lists of entries of one length belong to stacks with one pointer. -/
theorem pointer_eq_of_length_entries {m n : Machine} (hm : m.Bounded) (hn : n.Bounded)
    (same : m.stack.entries.length = n.stack.entries.length) :
    m.stack.pointer = n.stack.pointer := by
  have lowM := hm.stack.1
  have lowN := hn.stack.1
  rw [CallStack.length_entries hm.stack, CallStack.length_entries hn.stack] at same
  omega

/-- As long as a subroutine runs, the entries of its caller and the return address stay
at the bottom of the stack. -/
theorem Subroutine.entries_of_isPrefix {m : Machine} (h : Reachable m) {first last : Keypad}
    {inner : List Keypad} (s : Subroutine m first inner last) (before : List Keypad)
    (passed : before <+: inner) :
    ∃ above, (m.follow (first :: before)).stack.entries =
      m.stack.entries ++ [(m.pc + 2) % 4096] ++ above := by
  induction before using List.reverseRecOn with
  | nil =>
      refine ⟨[], ?_⟩
      rw [List.append_nil]
      exact ((entriesStep_tickWith h.bounded first).call s.call).1
  | append_singleton before keys ih =>
      obtain ⟨above, entries⟩ := ih ((List.prefix_append before [keys]).trans passed)
      have reachable := h.follow (first :: before)
      have step := entriesStep_tickWith reachable.bounded keys
      rw [← follow_concat] at step
      by_cases call : (m.follow (first :: before)).Executes keys .call
      · refine ⟨above ++ [((m.follow (first :: before)).pc + 2) % 4096], ?_⟩
        rw [← List.append_assoc, ← entries]
        exact (step.call call).1
      · by_cases back : (m.follow (first :: before)).Executes keys .returnFromCall
        · have popped := step.back back
          rw [entries] at popped
          rcases List.eq_nil_or_concat above with rfl | ⟨above, address, rfl⟩
          · -- This return would end the subroutine before its end.
            rw [List.append_nil] at popped
            have caller := (List.append_inj_left' popped rfl).symm
            exact absurd (pointer_eq_of_length_entries ((h.follow _).bounded) h.bounded
              (congrArg List.length caller)) (s.earlier before keys passed back)
          · rw [List.concat_eq_append, ← List.append_assoc] at popped
            exact ⟨above, (List.append_inj_left' popped rfl).symm⟩
        · exact ⟨above, (step.other call back).trans entries⟩

/-- A call comes back behind itself and finds the stack as it left it. -/
theorem Subroutine.returns {m : Machine} (h : Reachable m) {first last : Keypad}
    {inner : List Keypad} (s : Subroutine m first inner last) :
    (m.follow (first :: inner ++ [last])).pc = (m.pc + 2) % 4096 ∧
      (m.follow (first :: inner ++ [last])).stack.entries = m.stack.entries := by
  obtain ⟨above, entries⟩ := s.entries_of_isPrefix h inner (List.prefix_refl inner)
  have step := entriesStep_tickWith (h.follow (first :: inner)).bounded last
  rw [← follow_concat] at step
  have popped := step.back s.back
  have length : (m.follow (first :: inner ++ [last])).stack.entries.length =
      m.stack.entries.length := by
    rw [CallStack.length_entries (h.follow _).bounded.stack, s.pointer,
      CallStack.length_entries h.bounded.stack]
  have alone : above = [] := by
    have lengths := congrArg List.length (entries.symm.trans popped)
    simp only [List.length_append, List.length_singleton, length] at lengths
    exact List.eq_nil_of_length_eq_zero (by omega)
  rw [entries, alone, List.append_nil] at popped
  obtain ⟨caller, address⟩ := List.append_inj' popped rfl
  exact ⟨(List.singleton_inj.1 address).symm, caller.symm⟩

/-- The call stack of a reachable machine acts as a list, tick by tick and from a call
to the return that ends it. -/
theorem call_stack_refines_list {m : Machine} (h : Reachable m) :
    (∀ keys, EntriesStep m keys (m.tickWith keys).machine) ∧
    (m.stack.entries.length = m.stack.pointer ∧ m.stack.entries.length ≤ 16) ∧
    ∀ first inner last, Subroutine m first inner last →
      (m.follow (first :: inner ++ [last])).pc = (m.pc + 2) % 4096 ∧
        (m.follow (first :: inner ++ [last])).stack.entries = m.stack.entries := by
  have bounds := h.bounded
  obtain ⟨low, high⟩ := bounds.stack
  refine ⟨entriesStep_tickWith bounds, ?_, fun first inner last s => s.returns h⟩
  rw [CallStack.length_entries bounds.stack]
  omega

/-- A subroutine that calls another one. -/
theorem call_stack_refines_list_of_nested :
    let m := loaded [0x22, 0x06, 0, 0, 0, 0, 0x22, 0x0A, 0x00, 0xEE, 0x00, 0xEE]
    let k := Keypad.none
    Reachable m ∧ Subroutine m k [k, k] k ∧
      (m.follow [k, k, k, k]).pc = (m.pc + 2) % 4096 ∧
      (m.follow [k, k, k, k]).stack.entries = m.stack.entries := by
  intro m k
  have reachable : Reachable m := reachable_loaded _
  have segment : Subroutine m k [k, k] k := by
    refine ⟨?_, ?_, by decide +kernel, ?_⟩
    · exact executes_of_lookup reachable.bounded.toSafe (by decide +kernel)
    · exact executes_of_lookup (reachable.follow _).bounded.toSafe (by decide +kernel)
    · intro before keys passed _
      match before, passed with
      | [], passed =>
          obtain rfl : keys = k := by simpa using passed
          decide +kernel
      | [b], passed =>
          obtain ⟨rfl, rfl⟩ : b = k ∧ keys = k := by simpa using passed
          decide +kernel
      | b :: c :: rest, passed =>
          have := passed.length_le
          simp at this
  exact ⟨reachable, segment, (call_stack_refines_list reachable).2.2 k [k, k] k segment⟩

end Chip8.Machine
