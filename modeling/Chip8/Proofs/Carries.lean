import Chip8.Proofs.IndexSums
import Chip8.Proofs.WriteSets
import Mathlib.Data.Nat.Bitwise

/-!
# Carries and borrows

Sums, differences and shifts leave a byte and a flag behind. Together they are exact: an equation
over the integers ties them to the operands, and no other byte and flag satisfy it. If the flag
register is the destination, it keeps the flag and the byte is lost. A sum in the index is exact
in the same way, with the flag as its thirteenth bit.
-/

namespace Chip8

namespace Opcode

/-- The instructions that leave a byte and a flag. -/
def flagged : List Opcode := [add, subtract, subtractFrom, shiftRight, shiftLeft]

/-- The equation between the operands `a` and `b`, the byte `r` and the flag `f`. The flag of a
difference is set if there is no borrow, that of a shift is the bit shifted out. -/
def Balances (a b r f : Int) : Opcode → Prop
  | add => r + 256 * f = a + b
  | subtract => r = a - b + 256 * (1 - f)
  | subtractFrom => r = b - a + 256 * (1 - f)
  | shiftRight => 2 * r + f = a
  | shiftLeft => r + 256 * f = 2 * a
  | _ => False

/-- A byte and a flag satisfy the equation of an instruction, and no others do. -/
structure Determines (op : Opcode) (a b : UInt8) (r f : Nat) : Prop where
  byte : r ≤ 255
  flag : f ≤ 1
  balances : op.Balances a.toNat b.toNat r f
  only : ∀ r' f' : Nat, r' ≤ 255 → f' ≤ 1 → op.Balances a.toNat b.toNat r' f' → r' = r ∧ f' = f

/-- A byte and a flag that satisfy an equation are determined by it. -/
theorem Balances.determines {op : Opcode} {a b r : UInt8} {up : Bool}
    (h : op.Balances a.toNat b.toNat r.toNat up.toNat) : op.Determines a b r.toNat up.toNat where
  byte := by
    have := r.toNat_lt
    omega
  flag := Bool.toNat_le up
  balances := h
  only r' f' byte flag other := by
    have := r.toNat_lt
    have := Bool.toNat_le up
    cases op <;> simp only [Balances] at h other <;> omega

end Opcode

section Bytes
variable (a b : UInt8)

/-- Whether a byte has a bit that a mask singles out. -/
theorem toNat_and_mask (mask : UInt8) (place : Nat) (single : mask.toNat = 2 ^ place) :
    (a &&& mask != 0).toNat = a.toNat / 2 ^ place % 2 := by
  have masked : (a &&& mask).toNat = (a.toNat.testBit place).toNat * 2 ^ place := by
    rw [UInt8.toNat_and, single, Nat.and_two_pow]
  rw [← Nat.toNat_testBit]
  congr 1
  cases bit : a.toNat.testBit place with
  | false =>
      have none : a &&& mask = 0 := UInt8.toNat_inj.1 (by simp [masked, bit])
      simp [none]
  | true =>
      have some : a &&& mask ≠ 0 := by
        intro none
        have positive : 0 < 2 ^ place := Nat.two_pow_pos place
        simp only [none, bit, Bool.toNat_true, Nat.one_mul] at masked
        exact absurd masked (Nat.ne_of_lt positive)
      simpa using some

theorem balances_add :
    Opcode.add.Balances a.toNat b.toNat (a + b).toNat
      (decide (0xFF < a.toNat + b.toNat)).toNat := by
  have := a.toNat_lt
  have := b.toNat_lt
  rw [Opcode.Balances, UInt8.toNat_add]
  by_cases carry : 0xFF < a.toNat + b.toNat
  · rw [decide_eq_true carry, Bool.toNat_true]
    omega
  · rw [decide_eq_false carry, Bool.toNat_false]
    omega

/-- A difference and whether it needs no borrow. -/
theorem toNat_sub_of_borrow :
    ((a - b).toNat : Int) = a.toNat - b.toNat + 256 * (1 - (decide (b ≤ a)).toNat) := by
  have := a.toNat_lt
  have := b.toNat_lt
  rw [UInt8.toNat_sub]
  by_cases above : b ≤ a
  · rw [decide_eq_true above, Bool.toNat_true]
    rw [UInt8.le_iff_toNat_le] at above
    omega
  · rw [decide_eq_false above, Bool.toNat_false]
    rw [UInt8.le_iff_toNat_le] at above
    omega

theorem balances_shiftRight :
    Opcode.shiftRight.Balances a.toNat b.toNat (a >>> 1).toNat (a &&& 0x01 != 0).toNat := by
  have half : (a >>> 1).toNat = a.toNat / 2 := by
    rw [UInt8.toNat_shiftRight]
    exact Nat.shiftRight_eq_div_pow a.toNat 1
  rw [Opcode.Balances, half, toNat_and_mask a 0x01 0 rfl]
  omega

theorem balances_shiftLeft :
    Opcode.shiftLeft.Balances a.toNat b.toNat (a <<< 1).toNat (a &&& 0x80 != 0).toNat := by
  have := a.toNat_lt
  have double : (a <<< 1).toNat = a.toNat * 2 % 256 := by
    rw [UInt8.toNat_shiftLeft, Nat.shiftLeft_eq]
    rfl
  rw [Opcode.Balances, double, toNat_and_mask a 0x80 7 rfl]
  omega

end Bytes

/-- The sum of an address and a byte, in twelve bits and a carry. -/
theorem Address.overflowingAdd_exact (a : Address) (b : UInt8) :
    (a.overflowingAdd b.toNat).1.value + 4096 * (a.overflowingAdd b.toNat).2.toNat =
      a.value + b.toNat := by
  have := b.toNat_lt
  have balances := a.overflowingAdd_balances (i := b.toNat) (by omega) (by omega)
  omega

namespace Machine

/-- The flag register after a flag was put into it. -/
theorem reg_flag_setReg (m : Machine) (up : Bool) :
    ((m.setReg flag (if up then 1 else 0)).reg flag).toNat = up.toNat := by
  rw [reg_setReg, if_pos rfl]
  cases up <;> rfl

theorem reg_flag_setWithFlag (m : Machine) (x : Fin 16) (b : UInt8) (up : Bool) :
    ((m.setWithFlag x b up).reg flag).toNat = up.toNat :=
  reg_flag_setReg (m.setReg x b) up

theorem reg_result_setWithFlag (m : Machine) {x : Fin 16} (other : x ≠ flag) (b : UInt8)
    (up : Bool) : (m.setWithFlag x b up).reg x = b := by
  rw [setWithFlag, reg_setReg, if_neg (Ne.symm other), reg_setReg, if_pos rfl]

/-- An instruction with a flag leaves the byte and the flag that its equation determines. -/
theorem execute_flagged {op : Opcode} (flagged : op ∈ Opcode.flagged) (m : Machine) (w : Word) :
    ∃ result up, m.execute ⟨w, op⟩ = .done (m.setWithFlag w.x result up) .next ∧
      op.Determines (m.reg w.x) (m.reg w.y) result.toNat up.toNat := by
  simp only [Opcode.flagged, List.mem_cons, List.not_mem_nil, or_false] at flagged
  rcases flagged with rfl | rfl | rfl | rfl | rfl
  · exact ⟨_, _, rfl, (balances_add _ _).determines⟩
  · have balances : Opcode.subtract.Balances _ _ _ _ := toNat_sub_of_borrow (m.reg w.x) (m.reg w.y)
    exact ⟨_, _, rfl, balances.determines⟩
  · have balances : Opcode.subtractFrom.Balances _ _ _ _ :=
      toNat_sub_of_borrow (m.reg w.y) (m.reg w.x)
    exact ⟨_, _, rfl, balances.determines⟩
  · exact ⟨_, _, rfl, (balances_shiftRight _ _).determines⟩
  · exact ⟨_, _, rfl, (balances_shiftLeft _ _).determines⟩

theorem execute_addToIndex (m : Machine) (w : Word) :
    m.execute ⟨w, .addToIndex⟩ =
      .done ({ m with index := (m.index.overflowingAdd (m.reg w.x).toNat).1 }.setReg flag
        (if (m.index.overflowingAdd (m.reg w.x).toNat).2 then 1 else 0)) .next := rfl

/-- An instruction that a running machine carries out. -/
theorem executes_of_done {m n : Machine} {keys : Keypad} {op : Opcode} {move : Move}
    (running : m.awaiting = none) (form : HasForm op.form.toList m.fetch.value)
    (done : (m.ready keys).execute ⟨m.fetch, op⟩ = .done n move) :
    m.Executes keys op ∧ (m.tickWith keys).machine = { n with pc := moved n.pc move } := by
  have ended := tickWith_execute running form done
  have silent : n.lastError = none := (execute_control done).2.2
  exact ⟨(executes_iff ended op).2 ⟨running, form, silent⟩, congrArg Tick.machine ended⟩

/-- Arithmetic with a flag is exact: the byte and the flag are those that the equation between
them and the operands from before the tick determines. Into the flag register goes the flag alone.
A sum in the index is exact with the flag as its thirteenth bit. -/
theorem flagged_arithmetic_is_exact {m : Machine} (running : m.awaiting = none) (keys : Keypad)
    {op : Opcode} (form : HasForm op.form.toList m.fetch.value) :
    let x := m.fetch.x
    let a := m.reg x
    let b := m.reg m.fetch.y
    let n := (m.tick keys.toList).machine
    (op ∈ Opcode.flagged → m.Executes keys op ∧
      ∃ r f, op.Determines a b r f ∧ (n.reg flag).toNat = f ∧ (x ≠ flag → (n.reg x).toNat = r) ∧
        ∀ j, j ≠ x → j ≠ flag → n.reg j = m.reg j) ∧
    (op = .addToIndex → m.Executes keys op ∧
      n.index.value + 4096 * (n.reg flag).toNat = m.index.value + a.toNat ∧
      n.index.value ≤ 0xFFF ∧ (n.reg flag).toNat ≤ 1 ∧ ∀ j, j ≠ flag → n.reg j = m.reg j) := by
  intro x a b n
  have tick : n = (m.tickWith keys).machine := congrArg Tick.machine (tick_toList m keys)
  constructor
  · intro flagged
    obtain ⟨result, up, done, determines⟩ := execute_flagged flagged (m.ready keys) m.fetch
    obtain ⟨executes, machine⟩ := executes_of_done running form done
    have registers (j : Fin 16) : n.reg j = ((m.ready keys).setWithFlag x result up).reg j := by
      rw [tick, machine]
      rfl
    refine ⟨executes, _, _, determines, ?_, ?_, ?_⟩
    · rw [registers, reg_flag_setWithFlag]
    · intro other
      rw [registers, reg_result_setWithFlag _ other]
    · intro j notX notFlag
      rw [registers]
      exact reg_setWithFlag _ _ _ _ _ (not_or.2 ⟨notX, notFlag⟩)
  · rintro rfl
    have done := execute_addToIndex (m.ready keys) m.fetch
    obtain ⟨executes, machine⟩ := executes_of_done running form done
    let sum := m.index.overflowingAdd a.toNat
    have index : n.index = sum.1 := by
      rw [tick, machine]
      rfl
    have registers (j : Fin 16) :
        n.reg j = ({ m.ready keys with index := sum.1 }.setReg flag
          (if sum.2 then 1 else 0)).reg j := by
      rw [tick, machine]
      rfl
    have carry : (n.reg flag).toNat = sum.2.toNat := by rw [registers, reg_flag_setReg]
    refine ⟨executes, ?_, ?_, ?_, ?_⟩
    · rw [index, carry]
      exact Address.overflowingAdd_exact m.index a
    · have := n.index.value_lt
      omega
    · rw [carry]
      exact Bool.toNat_le sum.2
    · intro j notFlag
      rw [registers, reg_setReg, if_neg (Ne.symm notFlag)]
      rfl

/-- A difference with the flag register as its second operand, then a sum whose destination is
the flag register, and at last the flag register added to the index. -/
theorem flagged_arithmetic_is_exact_of_flag :
    let k := Keypad.none
    let m := (loaded [0x61, 0x05, 0x6F, 0x07, 0x81, 0xF5, 0x6F, 0xC8, 0x8F, 0x14, 0xAF, 0xFF,
      0x6F, 0x05, 0xFF, 0x1E]).follow [k, k]
    let n := m.follow [k, k]
    let i := n.follow [k, k, k]
    Reachable m ∧ m.awaiting = none ∧ m.Executes k .subtract ∧
      m.reg 1 = 5 ∧ m.reg flag = 7 ∧
      ((m.tick k.toList).machine.reg 1).toNat = 254 ∧
      ((m.tick k.toList).machine.reg flag).toNat = 0 ∧
      n.Executes k .add ∧ n.reg 1 = 254 ∧ n.reg flag = 200 ∧
      ((n.tick k.toList).machine.reg flag).toNat = 1 ∧ (n.tick k.toList).machine.reg 1 = 254 ∧
      i.Executes k .addToIndex ∧ i.index.value = 0xFFF ∧
      (i.tick k.toList).machine.index.value + 4096 * ((i.tick k.toList).machine.reg flag).toNat =
        0xFFF + 5 := by
  intro k m n i
  have reachable : Reachable m := (reachable_loaded _).follow [k, k]
  obtain ⟨running, lookup, x, y, a, b⟩ : m.awaiting = none ∧
      Opcode.lookup m.fetch.value = some .subtract ∧ m.fetch.x = 1 ∧ m.fetch.y = flag ∧
      m.reg 1 = 5 ∧ m.reg flag = 7 := by decide +kernel
  obtain ⟨running', lookup', x', y', a', b'⟩ : n.awaiting = none ∧
      Opcode.lookup n.fetch.value = some .add ∧ n.fetch.x = flag ∧ n.fetch.y = 1 ∧
      n.reg flag = 200 ∧ n.reg 1 = 254 := by decide +kernel
  obtain ⟨running'', lookup'', x'', a'', index⟩ : i.awaiting = none ∧
      Opcode.lookup i.fetch.value = some .addToIndex ∧ i.fetch.x = flag ∧
      i.reg flag = 5 ∧ i.index.value = 0xFFF := by decide +kernel
  obtain ⟨subtracts, r, f, determined, flagged, result, -⟩ := (flagged_arithmetic_is_exact
    running k ((Opcode.lookup_eq_some_iff _ _).1 lookup)).1 (by decide)
  obtain ⟨adds, r', f', determined', flagged', -, kept⟩ := (flagged_arithmetic_is_exact
    running' k ((Opcode.lookup_eq_some_iff _ _).1 lookup')).1 (by decide)
  obtain ⟨sums, exact, -⟩ := (flagged_arithmetic_is_exact
    running'' k ((Opcode.lookup_eq_some_iff _ _).1 lookup'')).2 rfl
  rw [x, y, a, b] at determined
  rw [x', y', a', b'] at determined'
  rw [x] at result
  rw [x'', a'', index] at exact
  -- The equations are solved by hand, and nothing else solves them.
  obtain ⟨rfl, rfl⟩ := determined.only 254 0 (by decide) (by decide) rfl
  obtain ⟨-, rfl⟩ := determined'.only 198 1 (by decide) (by decide) rfl
  refine ⟨reachable, running, subtracts, a, b, result (by decide), flagged, adds, b', a', flagged',
    ?_, sums, index, exact⟩
  rw [kept 1 (by rw [x']; decide) (by decide), b']

end Machine

end Chip8
