import Chip8.Proofs.WriteSets

/-!
# Registers kept in memory

One instruction stores the registers up to its operand from the index on, another takes them
back. Both wrap at the end of memory, where their at most sixteen bytes still have an address
each. So registers that were stored come back, whatever became of them in between, and to store
what was just taken from memory changes no byte.
-/

namespace Chip8.Machine

theorem execute_storeRegisters (m : Machine) (w : Word) :
    m.execute ⟨w, .storeRegisters⟩ = .done (m.store ((upTo w.x).map m.reg)) .next := rfl

theorem execute_loadRegisters (m : Machine) (w : Word) :
    m.execute ⟨w, .loadRegisters⟩ = .done (m.restore w.x) .next := rfl

theorem getD_map_upTo (x : Fin 16) (f : Fin 16 → UInt8) (i : Nat) (old : UInt8) :
    ((upTo x).map f).getD i old = if h : i ≤ x.val then f ⟨i, by omega⟩ else old := by
  rw [List.getD_eq_getElem?_getD, List.getElem?_map]
  by_cases inside : i ≤ x.val
  · rw [dif_pos inside, getElem?_upTo x (j := ⟨i, by omega⟩) inside]
    rfl
  · have outside : (upTo x).length ≤ i := by
      simp only [upTo, List.length_take, List.length_finRange]
      omega
    rw [dif_neg inside, List.getElem?_eq_none outside]
    rfl

section Transfers
variable (m : Machine) (x : Fin 16)

/-- The memory after registers were stored: the first bytes from the index on are theirs. -/
theorem get_storeRegisters (a : Address) :
    (m.store ((upTo x).map m.reg)).memory.get a =
      if h : m.index.stepsFrom a ≤ x.val then m.reg ⟨m.index.stepsFrom a, by omega⟩
      else m.memory.get a := by
  have small : ((upTo x).map m.reg).length ≤ 0x1000 := m.length_storedBytes_le x .storeRegisters
  rw [get_store m small, getD_map_upTo]

/-- A stored register stands in its place behind the index. -/
theorem get_storeRegisters_offset {j : Fin 16} (h : j ≤ x) :
    (m.store ((upTo x).map m.reg)).memory.get (m.index.offset j.val) = m.reg j := by
  have steps : m.index.stepsFrom (m.index.offset j.val) = j.val :=
    Address.stepsFrom_offset _ (by omega)
  simp only [get_storeRegisters, steps]
  exact dif_pos h

/-- Registers that were just taken from memory are stored as the bytes that stand there. -/
theorem memory_store_restore :
    ((m.restore x).store ((upTo x).map (m.restore x).reg)).memory = m.memory := by
  have kept := restore_eq m x
  have index : (m.restore x).index = m.index := by rw [kept]
  have memory : (m.restore x).memory = m.memory := by rw [kept]
  apply Memory.ext_get
  intro a
  simp only [get_storeRegisters, index, memory]
  split
  · next inside =>
    calc
      (m.restore x).reg ⟨m.index.stepsFrom a, _⟩ =
          m.memory.get (m.index.offset (m.index.stepsFrom a)) :=
        (m.reg_restore x _).trans (if_pos inside)
      _ = m.memory.get a := by rw [(Address.offset_eq_iff _ a (by omega)).2 rfl]
  · rfl

end Transfers

/-- Registers that were stored come back: whatever becomes of the machine, as long as it keeps its
index and the stored bytes, they are taken back as they were, and nothing but registers changes.
What was taken from memory is stored as it stood there. -/
theorem registers_stored_and_taken_back (m : Machine) {x : Fin 16} {save load : Word}
    (saves : save.x = x) (loads : load.x = x) :
    (∃ stored, m.execute ⟨save, .storeRegisters⟩ = .done stored .next ∧
      ∀ n : Machine, n.index = stored.index →
        (∀ j ≤ x, n.memory.get (n.index.offset j.val) =
          stored.memory.get (stored.index.offset j.val)) →
        ∃ loaded, n.execute ⟨load, .loadRegisters⟩ = .done loaded .next ∧
          (∀ j ≤ x, loaded.reg j = m.reg j) ∧ (∀ j > x, loaded.reg j = n.reg j) ∧
          loaded = { n with registers := loaded.registers }) ∧
    ∃ loaded stored, m.execute ⟨load, .loadRegisters⟩ = .done loaded .next ∧
      loaded.execute ⟨save, .storeRegisters⟩ = .done stored .next ∧
      stored.memory = m.memory := by
  subst saves
  constructor
  · refine ⟨_, execute_storeRegisters m save, ?_⟩
    intro n index bytes
    refine ⟨_, execute_loadRegisters n load, ?_, ?_, restore_eq n _⟩
    · intro j inside
      rw [loads]
      calc
        (n.restore save.x).reg j = n.memory.get (n.index.offset j.val) :=
          (n.reg_restore save.x j).trans (if_pos inside)
        _ = (m.store ((upTo save.x).map m.reg)).memory.get (m.index.offset j.val) := bytes j inside
        _ = m.reg j := m.get_storeRegisters_offset save.x inside
    · intro j outside
      rw [loads]
      exact (n.reg_restore save.x j).trans (if_neg (Fin.not_le.2 outside))
  · refine ⟨_, _, execute_loadRegisters m load, execute_storeRegisters _ save, ?_⟩
    rw [loads]
    exact m.memory_store_restore save.x

/-- Two registers stored over the end of memory, and taken back after all registers were
overwritten. -/
theorem registers_stored_and_taken_back_of_wrap :
    let m := (loaded [0x60, 0x11, 0x61, 0x22, 0xAF, 0xFF]).follow (List.replicate 3 Keypad.none)
    let save : Word := ⟨0xF155, by decide⟩
    let load : Word := ⟨0xF165, by decide⟩
    Reachable m ∧ m.index.value = 0xFFF ∧ save.x = 1 ∧ load.x = 1 ∧
      ∃ stored, m.execute ⟨save, .storeRegisters⟩ = .done stored .next ∧
        let n : Machine := { stored with registers := Vector.replicate 16 0xEE }
        ∃ loaded, n.execute ⟨load, .loadRegisters⟩ = .done loaded .next ∧
          loaded.reg 0 = 0x11 ∧ loaded.reg 1 = 0x22 ∧ loaded.reg 2 = 0xEE := by
  intro m save load
  have reachable : Reachable m := (reachable_loaded _).follow _
  obtain ⟨index, first, second⟩ : m.index.value = 0xFFF ∧ m.reg 0 = 0x11 ∧ m.reg 1 = 0x22 := by
    decide +kernel
  have saves : save.x = 1 := by decide
  have loads : load.x = 1 := by decide
  obtain ⟨⟨stored, saved, back⟩, -⟩ := m.registers_stored_and_taken_back saves loads
  refine ⟨reachable, index, saves, loads, stored, saved, ?_⟩
  intro n
  obtain ⟨loaded, done, same, others, -⟩ := back n rfl (fun _ _ => rfl)
  refine ⟨loaded, done, ?_, ?_, ?_⟩
  · exact (same 0 (by decide)).trans first
  · exact (same 1 (by decide)).trans second
  · exact others 2 (by decide)

/-- Registers that a tick stores come back with a later tick that takes as many from the same
index, unless a tick in between stores at their place. -/
theorem registers_come_back {m n : Machine} (h : Reachable m) {save load : Keypad}
    {history : List Keypad} (saves : m.Executes save .storeRegisters)
    (untouched : ∀ j ≤ m.fetch.x, (m.tickWith save).machine.Throughout history
      fun k keys => ¬ k.StoresAt keys (m.index.offset j.val))
    (passed : (m.tickWith save).machine.follow history = n) (index : n.index = m.index)
    (loads : n.Executes load .loadRegisters) (operand : n.fetch.x = m.fetch.x) :
    ∀ j ≤ m.fetch.x, (n.tickWith load).machine.reg j = m.reg j := by
  intro j inside
  have stored : (m.tickWith save).machine.memory.get (m.index.offset j.val) = m.reg j :=
    (storeStep_tickWith h.bounded.toSafe save).registers saves j inside
  have kept : n.memory.get (m.index.offset j.val) = m.reg j := by
    rw [← passed, get_follow (h.tickWith save) (untouched j inside), stored]
  have reachable : Reachable n := passed ▸ (h.tickWith save).follow history
  obtain ⟨op, k, move, only, done, machine⟩ | ⟨idle, -⟩ :=
    executes_or_idles reachable.bounded.toSafe load
  · obtain rfl := (only _).1 loads
    rw [execute_loadRegisters, Execution.done.injEq] at done
    obtain ⟨rfl, rfl⟩ := done
    have within : j ≤ n.fetch.x := by
      rw [operand]
      exact inside
    calc
      (n.tickWith load).machine.reg j = ((n.ready load).restore n.fetch.x).reg j := by
        rw [machine]
        rfl
      _ = n.memory.get (n.index.offset j.val) :=
        (reg_restore (n.ready load) n.fetch.x j).trans (if_pos within)
      _ = m.reg j := by rw [index, kept]
  · exact absurd loads (idle _)

end Chip8.Machine
