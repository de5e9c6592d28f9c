import Chip8.Proofs.Calls

/-!
# What is stored in memory

Two instructions write to memory: one stores the decimal digits of a register, the other
some registers. Both go on from the index and wrap at the end of memory, and as they store
fewer bytes than there are addresses, no byte is written over by a later one. All other ticks
leave the memory alone, so that over a run a byte changes only where a store has put it, even
if the stores change the program itself.
-/

namespace Chip8

namespace Address

/-- How many bytes an address lies behind another, wrapping. -/
def stepsFrom (base a : Address) : Nat := (((a.value : Int) - base.value) % 0x1000).toNat

theorem offset_eq_iff (base a : Address) {i : Nat} (h : i < 0x1000) :
    base.offset i = a ↔ base.stepsFrom a = i := by
  obtain ⟨b, hb⟩ := base
  obtain ⟨v, hv⟩ := a
  simp only [offset, stepsFrom, mk.injEq]
  omega

theorem stepsFrom_offset (base : Address) {i : Nat} (h : i < 0x1000) :
    base.stepsFrom (base.offset i) = i :=
  (offset_eq_iff base _ h).1 rfl

end Address

namespace Machine

/-- A byte of the memory after a store: the one that was stored there, or the old one. -/
theorem get_store (m : Machine) {bytes : List UInt8} (h : bytes.length ≤ 0x1000) (a : Address) :
    (m.store bytes).memory.get a = bytes.getD (m.index.stepsFrom a) (m.memory.get a) := by
  induction bytes using List.reverseRecOn with
  | nil => rfl
  | append_singleton bytes b ih =>
      rw [List.length_append, List.length_singleton] at h
      have before := ih (by omega)
      have last : (m.store (bytes ++ [b])).memory =
          (m.store bytes).memory.set (m.index.offset bytes.length) b := by
        simp [store, List.zipIdx_append]
      rw [last, Memory.get_set, before, List.getD_eq_getElem?_getD, List.getD_eq_getElem?_getD]
      by_cases here : m.index.stepsFrom a = bytes.length
      · rw [if_pos ((Address.offset_eq_iff _ _ h).2 here), here, List.getElem?_concat_length]
        rfl
      · rw [if_neg (mt (Address.offset_eq_iff _ _ h).1 here)]
        by_cases inside : m.index.stepsFrom a < bytes.length
        · rw [List.getElem?_append_left inside]
        · rw [List.getElem?_eq_none (by omega), List.getElem?_eq_none (by simp; omega)]

/-- The bytes that an instruction stores from the index on. -/
def storedBytes (m : Machine) (x : Fin 16) : Opcode → List UInt8
  | .storeDigits => decimalDigits (m.reg x)
  | .storeRegisters => (upTo x).map m.reg
  | _ => []

theorem getElem?_upTo (x : Fin 16) {j : Fin 16} (h : j ≤ x) : (upTo x)[j.val]? = some j := by
  have inside : j.val < x.val + 1 := Nat.lt_succ_of_le h
  simp [upTo, inside]

theorem length_storedBytes_le (m : Machine) (x : Fin 16) (op : Opcode) :
    (m.storedBytes x op).length ≤ 0x1000 := by
  cases op
  case storeDigits => simp [storedBytes, decimalDigits]
  case storeRegisters =>
    simp only [storedBytes, upTo, List.length_map, List.length_take, List.length_finRange]
    omega
  all_goals simp [storedBytes]

/-- What an instruction does to the memory is a store, of no bytes for most of them. -/
theorem execute_memory {m n : Machine} {w : Word} {op : Opcode} {move : Move}
    (done : m.execute ⟨w, op⟩ = .done n move) :
    n.memory = (m.store (m.storedBytes w.x op)).memory := by
  by_cases writes : .memory ∈ op.writes
  · rcases op.memory_mem_writes_iff.1 writes with rfl | rfl
    · cases done
      rfl
    · cases done
      rfl
  · have none : m.storedBytes w.x op = [] := by
      cases op <;> first | rfl | exact absurd (by decide) writes
    rw [none]
    exact execute_frame done .memory writes

/-- The digits of a byte in three places make up the byte. -/
theorem decimalDigits_spec (b : UInt8) :
    ∃ h t o : UInt8, decimalDigits b = [h, t, o] ∧ h.toNat ≤ 9 ∧ t.toNat ≤ 9 ∧ o.toNat ≤ 9 ∧
      100 * h.toNat + 10 * t.toNat + o.toNat = b.toNat := by
  have bound := b.toNat_lt
  refine ⟨b / 100, b / 10 % 10, b % 10, rfl, ?_⟩
  simp only [UInt8.toNat_div, UInt8.toNat_mod, UInt8.reduceToNat]
  omega

/-- A tick stores at an address: one of three digits, or one of the registers up to `x`. -/
def StoresAt (m : Machine) (keys : Keypad) (a : Address) : Prop :=
  m.Executes keys .storeDigits ∧ (∃ j < 3, a = m.index.offset j) ∨
    m.Executes keys .storeRegisters ∧ ∃ j ≤ m.fetch.x.val, a = m.index.offset j

theorem storesAt_of_lt {m : Machine} {keys : Keypad} {op : Opcode} {a : Address}
    (executes : m.Executes keys op)
    (inside : m.index.stepsFrom a < (m.storedBytes m.fetch.x op).length) : m.StoresAt keys a := by
  have small := length_storedBytes_le m m.fetch.x op
  have place : a = m.index.offset (m.index.stepsFrom a) :=
    ((Address.offset_eq_iff _ _ (by omega)).2 rfl).symm
  cases op
  case storeDigits => exact .inl ⟨executes, _, inside, place⟩
  case storeRegisters =>
    refine .inr ⟨executes, _, ?_, place⟩
    simp only [storedBytes, upTo, List.length_map, List.length_take] at inside
    omega
  all_goals cases inside

theorem not_storesAt_of_ne {m : Machine} {keys : Keypad} {a : Address}
    (apart : ∀ j < 16, a ≠ m.index.offset j) : ¬ m.StoresAt keys a := by
  rintro (⟨-, j, inside, place⟩ | ⟨-, j, inside, place⟩)
  · exact apart j (by omega) place
  · exact apart j (by omega) place

/-- What a tick does to the memory. -/
structure StoreStep (m : Machine) (keys : Keypad) (n : Machine) : Prop where
  digits : m.Executes keys .storeDigits →
    let digit := fun j => (n.memory.get (m.index.offset j)).toNat
    digit 0 ≤ 9 ∧ digit 1 ≤ 9 ∧ digit 2 ≤ 9 ∧
      100 * digit 0 + 10 * digit 1 + digit 2 = (m.reg m.fetch.x).toNat
  registers : m.Executes keys .storeRegisters →
    ∀ j ≤ m.fetch.x, n.memory.get (m.index.offset j.val) = m.reg j
  kept : m.Executes keys .storeDigits ∨ m.Executes keys .storeRegisters →
    n.index = m.index ∧ n.registers = m.registers ∧ n.stack = m.stack ∧ n.sound = m.sound ∧
      n.screen = m.screen ∧ n.awaiting = m.awaiting
  elsewhere : ∀ a, ¬ m.StoresAt keys a → n.memory.get a = m.memory.get a

/-- The bytes of the memory after an instruction was carried out. -/
theorem get_of_execute {m n : Machine} {keys : Keypad} {op : Opcode} {move : Move}
    (done : (m.ready keys).execute ⟨m.fetch, op⟩ = .done n move) (a : Address) :
    n.memory.get a =
      (m.storedBytes m.fetch.x op).getD (m.index.stepsFrom a) (m.memory.get a) := by
  rw [execute_memory done]
  exact get_store (m.ready keys) (length_storedBytes_le _ _ op) a

/-- A tick that carries an instruction out stores what that instruction does. -/
theorem StoreStep.of_execute {m n : Machine} {keys : Keypad} {op : Opcode} {move : Move}
    (only : ∀ other, m.Executes keys other ↔ other = op)
    (done : (m.ready keys).execute ⟨m.fetch, op⟩ = .done n move) :
    StoreStep m keys { n with pc := moved n.pc move } := by
  have bytes := get_of_execute done
  constructor
  case digits =>
    intro executes
    obtain rfl := (only _).1 executes
    obtain ⟨h, t, o, digits, sum⟩ := decimalDigits_spec (m.reg m.fetch.x)
    have byte : ∀ j < 3, n.memory.get (m.index.offset j) = [h, t, o].getD j 0 := by
      intro j inside
      rw [bytes, Address.stepsFrom_offset _ (by omega), storedBytes, digits]
      simp [List.getD_eq_getElem?_getD, inside]
    simp only [byte 0 (by omega), byte 1 (by omega), byte 2 (by omega)]
    exact sum
  case registers =>
    intro executes j upTo
    obtain rfl := (only _).1 executes
    rw [bytes, Address.stepsFrom_offset _ (by omega), storedBytes, List.getD_eq_getElem?_getD,
      List.getElem?_map, getElem?_upTo _ upTo]
    rfl
  case kept =>
    intro executes
    have same : ∀ part, part ≠ .memory → (m.ready keys).SameAt n part := by
      intro part other
      apply execute_frame done
      rcases executes with digits | registers
      · obtain rfl := (only _).1 digits
        simpa [Opcode.writes] using other
      · obtain rfl := (only _).1 registers
        simpa [Opcode.writes] using other
    exact ⟨same .index (by decide), same .registers (by decide), same .stack (by decide),
      same .sound (by decide), (same .screen (by decide)).1, same .awaiting (by decide)⟩
  case elsewhere =>
    intro a untouched
    have outside : (m.storedBytes m.fetch.x op).length ≤ m.index.stepsFrom a := by
      by_contra inside
      exact untouched (storesAt_of_lt ((only op).2 rfl) (Nat.lt_of_not_le inside))
    rw [bytes, List.getD_eq_getElem?_getD, List.getElem?_eq_none outside]
    rfl

/-- A tick that carries nothing out leaves the memory alone. -/
theorem StoreStep.of_idle {m n : Machine} {keys : Keypad} (idle : ∀ op, ¬ m.Executes keys op)
    (same : n.memory = m.memory) : StoreStep m keys n where
  digits executes := absurd executes (idle _)
  registers executes := absurd executes (idle _)
  kept executes := (executes.elim (idle _) (idle _)).elim
  elsewhere a _ := by rw [same]

theorem storeStep_tickWith {m : Machine} (h : m.Safe) (keys : Keypad) :
    StoreStep m keys (m.tickWith keys).machine := by
  rcases executes_or_idles h keys with
    ⟨op, n, move, only, done, machine⟩ | ⟨idle, registers, awaiting, lastError, machine⟩
  · rw [machine]
    exact StoreStep.of_execute only done
  · apply StoreStep.of_idle idle
    rw [machine]

/-- A byte that no tick of a run stores at keeps its value. -/
theorem get_follow {m : Machine} (h : Reachable m) {history : List Keypad} {a : Address}
    (untouched : m.Throughout history fun n keys => ¬ n.StoresAt keys a) :
    (m.follow history).memory.get a = m.memory.get a := by
  induction history generalizing m with
  | nil => rfl
  | cons keys history ih =>
      obtain ⟨first, later⟩ := (m.throughout_cons_iff keys history _).1 untouched
      calc
        (m.follow (keys :: history)).memory.get a = (m.tickWith keys).machine.memory.get a :=
          ih (h.tickWith keys) later
        _ = m.memory.get a := (storeStep_tickWith h.bounded.toSafe keys).elsewhere a first

/-- The memory of a reachable machine changes only where a tick stores decimal digits or
registers, and such a tick leaves index, registers, stack, tone, picture and awaited key alone.
A byte that no tick of a run stores at keeps its value over the whole run. -/
theorem memory_changes_by_stores {m : Machine} (h : Reachable m) :
    (∀ keys, StoreStep m keys (m.tick keys.toList).machine) ∧
    ∀ history a, (m.Throughout history fun n keys => ¬ n.StoresAt keys a) →
      (m.follow history).memory.get a = m.memory.get a := by
  constructor
  · intro keys
    rw [tick_toList]
    exact storeStep_tickWith h.bounded.toSafe keys
  · intro history a untouched
    exact get_follow h untouched

/-- A program that stores digits over the end of memory and then registers over its own code,
while a byte of the font keeps its value. -/
theorem memory_changes_by_stores_of_wrap :
    let program : List UInt8 := [0xAF, 0xFF, 0x60, 0xFE, 0xF0, 0x33, 0xA2, 0x08, 0xF1, 0x55]
    let k := Keypad.none
    let m := (loaded program).follow [k, k]
    let n := (m.tick k.toList).machine
    let overwritten := m.follow [k, k, k]
    let font : Address := ⟨0x04F, by decide⟩
    Reachable m ∧ m.Executes k .storeDigits ∧ m.index.value = 0xFFF ∧
      (100 * (n.memory.get (m.index.offset 0)).toNat +
        10 * (n.memory.get (m.index.offset 1)).toNat +
        (n.memory.get (m.index.offset 2)).toNat = 254) ∧
      overwritten.memory.get ⟨0x208, by decide⟩ ≠ m.memory.get ⟨0x208, by decide⟩ ∧
      (m.Throughout [k, k, k] fun n keys => ¬ n.StoresAt keys font) ∧
      overwritten.memory.get font = m.memory.get font := by
  intro program k m n overwritten font
  have reachable : Reachable m := (reachable_loaded _).follow _
  have executes : m.Executes k .storeDigits :=
    executes_of_lookup reachable.bounded.toSafe (by decide +kernel)
  obtain ⟨index, value, changed⟩ : m.index.value = 0xFFF ∧ (m.reg m.fetch.x).toNat = 254 ∧
      overwritten.memory.get ⟨0x208, by decide⟩ ≠ m.memory.get ⟨0x208, by decide⟩ := by
    decide +kernel
  have untouched : m.Throughout [k, k, k] fun n keys => ¬ n.StoresAt keys font := by
    simp only [throughout_cons_iff]
    refine ⟨?_, ?_, ?_, throughout_nil _ _⟩ <;> exact not_storesAt_of_ne (by decide +kernel)
  obtain ⟨steps, run⟩ := memory_changes_by_stores reachable
  obtain ⟨-, -, -, sum⟩ := (steps k).digits executes
  exact ⟨reachable, executes, index, sum.trans value, changed, untouched, run _ _ untouched⟩

end Machine

end Chip8
