import Chip8.Proofs.Drawing
import Chip8.Proofs.Transition

/-!
# The bounds of reachable states

Program counter, stack, timers, picture and awaited register are plain values
that any assignment could take out of range. Loads, ticks and resets never do:
`Bounded` holds of a fresh machine and every event keeps it. It includes the
bounds that keep faults away.
-/

namespace Chip8.Machine

/-- The bounds that every run from a fresh machine keeps. -/
structure Bounded (m : Machine) : Prop extends Safe m where
  pc : 0 ≤ m.pc ∧ m.pc ≤ 0xFFF
  slots : ∀ a ∈ m.stack.slots.toList, 0 ≤ a ∧ a ≤ 0xFFF
  sound : 0 ≤ m.sound ∧ m.sound < 256
  pixels : ∀ r c, m.screen.get r c = 0 ∨ m.screen.get r c = 1

theorem bounded_initial (g : Generator) : (initial g).Bounded where
  stack := ⟨by simp [initial, CallStack.empty], by simp [initial, CallStack.empty]⟩
  delay := by simp [initial]
  awaiting register h := by simp [initial] at h
  pc := by simp [initial, Memory.programStart]
  slots a ha := by
    simp only [initial, CallStack.empty, Vector.toList_replicate, List.mem_replicate] at ha
    omega
  sound := by simp [initial]
  pixels r c := .inl (Grid.get_fill 0 r c)

section Execute
variable {m n : Machine} {w : Word} {op : Opcode} {move : Move}

/-- An instruction keeps the bounds that keep faults away. -/
theorem Safe.execute (h : m.Safe) (done : m.execute ⟨w, op⟩ = .done n move) : n.Safe where
  stack := by
    rcases execute_stack h.stack done with
      ⟨-, room, pushed, -⟩ | ⟨-, entry, popped, -⟩ | ⟨-, -, same⟩
    · exact pushed ▸ CallStack.within_pushed h.stack room _
    · exact popped ▸ CallStack.within_popped h.stack entry
    · exact same ▸ h.stack
  delay := by
    have byte := (m.reg w.x).toNat_lt
    have before := h.delay
    rw [execute_delay done]
    split <;> omega
  awaiting register waiting := by
    rw [execute_awaiting done] at waiting
    split at waiting
    · cases waiting
      omega
    · exact h.awaiting register waiting

theorem sound_bounds_of_execute (h : 0 ≤ m.sound ∧ m.sound < 256)
    (done : m.execute ⟨w, op⟩ = .done n move) : 0 ≤ n.sound ∧ n.sound < 256 := by
  have byte := (m.reg w.x).toNat_lt
  rw [execute_sound done]
  split <;> omega

theorem pixels_of_execute (h : ∀ r c, m.screen.get r c = 0 ∨ m.screen.get r c = 1)
    (done : m.execute ⟨w, op⟩ = .done n move) (r : Fin 32) (c : Fin 64) :
    n.screen.get r c = 0 ∨ n.screen.get r c = 1 := by
  rcases execute_screen done with ⟨-, blank, -⟩ | ⟨-, rfl⟩ | ⟨-, -, same, -⟩
  · rw [blank]
    exact .inl (Grid.get_fill 0 r c)
  · have short : (m.memory.read m.index w.n.val).length ≤ 32 := by
      rw [Memory.length_read]
      omega
    have drawn := Screen.drawn_draw m.screen (m.reg w.x).toNat (m.reg w.y).toNat short
    have pixel : (m.drawSprite w.x w.y w.n).screen.get r c = _ := drawn.get r c
    rw [pixel]
    exact Screen.zero_or_one_xor (h r c) (Screen.cover_zero_or_one _ _ _ r c)
  · rw [same]
    exact h r c

/-- Every instruction but a return moves the program counter to an address of memory. -/
theorem exists_address_of_execute (done : m.execute ⟨w, op⟩ = .done n move)
    (notBack : op ≠ .returnFromCall) : ∃ a : Address, moved n.pc move = a.value := by
  cases move with
  | next => exact ⟨Address.ofInt (n.pc + 2), (Address.value_ofInt _).symm⟩
  | skip => exact ⟨Address.ofInt (n.pc + 4), (Address.value_ofInt _).symm⟩
  | jump address => exact (execute_jump done).resolve_left notBack

end Execute

namespace Bounded
variable {m n : Machine} {w : Word} {op : Opcode} {move : Move}

/-- Where the program counter stands after an instruction of a bounded machine. -/
theorem moved (h : m.Bounded) (done : m.execute ⟨w, op⟩ = .done n move) :
    0 ≤ Machine.moved n.pc move ∧ Machine.moved n.pc move ≤ 0xFFF := by
  by_cases back : op = .returnFromCall
  · rcases execute_stack h.stack done with ⟨rfl, -⟩ | ⟨-, -, -, rfl⟩ | ⟨-, no, -⟩
    · cases back
    · exact CallStack.top_of_forall_mem h.slots (by omega)
    · exact absurd back no
  · obtain ⟨a, address⟩ := exists_address_of_execute done back
    have := a.value_lt
    omega

/-- An instruction keeps the bounds of all parts but the program counter, which it
leaves to its move. -/
theorem execute (h : m.Bounded) (done : m.execute ⟨w, op⟩ = .done n move) :
    { n with pc := Machine.moved n.pc move }.Bounded where
  __ := h.toSafe.execute done
  pc := h.moved done
  slots := by
    rcases execute_stack h.stack done with
      ⟨-, -, pushed, -⟩ | ⟨-, -, popped, -⟩ | ⟨-, -, same⟩
    · rw [pushed]
      exact CallStack.forall_mem_pushed h.slots (by omega)
    · rw [popped]
      exact h.slots
    · rw [same]
      exact h.slots
  sound := sound_bounds_of_execute (n := n) h.sound done
  pixels := pixels_of_execute (n := n) h.pixels done

theorem begin (h : m.Bounded) (keys : Keypad) : (m.begin keys).Bounded := { h with }

theorem ready (h : m.Bounded) (keys : Keypad) : (m.ready keys).Bounded :=
  { h with delay := h.toSafe.ready keys }

/-- Each of the four transitions keeps the bounds. -/
theorem transition {keys : Keypad} (h : m.Bounded) (t : Transition m keys n) : n.Bounded := by
  cases t with
  | wait waiting up => exact h.begin keys
  | resume waiting down => exact { h with awaiting := fun _ none => by cases none }
  | refuse running arises => exact { h.ready keys with }
  | execute running form done => exact (h.ready keys).execute done

theorem tickWith (h : m.Bounded) (keys : Keypad) : (m.tickWith keys).machine.Bounded := by
  obtain ⟨n, notices, ticked, t⟩ := Machine.transition h.toSafe keys
  rw [ticked]
  exact h.transition t

theorem apply (h : m.Bounded) (e : Event) : (m.apply e).Bounded := by
  cases e with
  | load program => exact { h with }
  | tick keys => exact h.tickWith keys
  | reset => exact bounded_initial m.generator

end Bounded

theorem Reachable.bounded {m : Machine} (h : Reachable m) : m.Bounded := by
  induction h with
  | initial g => exact bounded_initial g
  | event e _ ih => exact ih.apply e

end Chip8.Machine
