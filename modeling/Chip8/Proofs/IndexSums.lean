import Chip8.Address
import Mathlib.Algebra.BigOperators.Group.List.Basic
import Mathlib.Algebra.Ring.Int.Defs
import Mathlib.Data.List.Perm.Basic

/-!
# Sums in the index

Integers of any size are added to an address one after another, and every sum is cut to twelve
bits at once. The outcome is the whole sum cut a single time, in whatever order the integers are
added. As long as none of them is negative or larger than the memory, the additions that went past
the last address account for all that was cut off.
-/

namespace Chip8.Address

/-- The sums after each of some additions in a row, and whether they went past the last address. -/
def additions : Address → List Int → List (Address × Bool)
  | _, [] => []
  | a, i :: rest => a.overflowingAdd i :: (a.overflowingAdd i).1.additions rest

/-- The address that additions in a row end at. -/
def total (a : Address) (is : List Int) : Address := is.foldl (fun a i => (a.overflowingAdd i).1) a

/-- How many of some additions in a row went past the last address. -/
def carries (a : Address) (is : List Int) : Nat := (a.additions is).countP Prod.snd

theorem total_cons (a : Address) (i : Int) (rest : List Int) :
    a.total (i :: rest) = (a.overflowingAdd i).1.total rest := rfl

theorem carries_cons (a : Address) (i : Int) (rest : List Int) :
    a.carries (i :: rest) = (a.overflowingAdd i).2.toNat + (a.overflowingAdd i).1.carries rest := by
  rw [carries, additions, List.countP_cons, Nat.add_comm]
  cases (a.overflowingAdd i).2 <;> rfl

/-- Every addition goes on from the address that those before it end at. -/
theorem getElem?_additions (a : Address) (is : List Int) {k : Nat} (inside : k < is.length) :
    (a.additions is)[k]? = some ((a.total (is.take k)).overflowingAdd is[k]) := by
  induction is generalizing a k with
  | nil => cases inside
  | cons i rest ih =>
      cases k with
      | zero => rfl
      | succ k => exact ih _ (Nat.lt_of_succ_lt_succ inside)

/-- One addition keeps the sum but for a multiple of the size of the memory. -/
theorem value_overflowingAdd (a : Address) (i : Int) :
    ((a.overflowingAdd i).1.value : Int) = (a.value + i) % 4096 :=
  value_ofInt (a.value + i)

theorem value_total (a : Address) (is : List Int) :
    ((a.total is).value : Int) = (a.value + is.sum) % 4096 := by
  induction is generalizing a with
  | nil =>
      have := a.value_lt
      have still : a.total [] = a := rfl
      rw [still, List.sum_nil, Int.add_zero]
      omega
  | cons i rest ih =>
      rw [total_cons, ih, value_overflowingAdd, Int.emod_add_emod, List.sum_cons, Int.add_assoc]

/-- Addresses are told apart by their values. -/
theorem value_injective {a b : Address} (same : a.value = b.value) : a = b := by
  obtain ⟨v, hv⟩ := a
  obtain ⟨w, hw⟩ := b
  simpa using same

theorem total_eq_of_perm (a : Address) {is js : List Int} (same : js.Perm is) :
    a.total js = a.total is := by
  apply value_injective
  have sums := value_total a js
  rw [same.sum_eq, ← value_total a is] at sums
  exact Int.ofNat.inj sums

/-- An addition that is not negative and not larger than the memory goes past the last address at
most once, and tells of it. -/
theorem overflowingAdd_balances (a : Address) {i : Int} (positive : 0 ≤ i) (small : i ≤ 4096) :
    ((a.overflowingAdd i).1.value : Int) + 4096 * (a.overflowingAdd i).2.toNat = a.value + i := by
  have below := a.value_lt
  have sum := value_overflowingAdd a i
  by_cases past : (0xFFF : Int) < a.value + i
  · have told : (a.overflowingAdd i).2 = true := decide_eq_true past
    rw [told, Bool.toNat_true]
    omega
  · have told : (a.overflowingAdd i).2 = false := decide_eq_false past
    rw [told, Bool.toNat_false]
    omega

theorem total_balances (a : Address) {is : List Int} (fit : ∀ i ∈ is, 0 ≤ i ∧ i ≤ 4096) :
    ((a.total is).value : Int) + 4096 * a.carries is = a.value + is.sum := by
  induction is generalizing a with
  | nil => rfl
  | cons i rest ih =>
      obtain ⟨⟨positive, small⟩, later⟩ := List.forall_mem_cons.1 fit
      have first := a.overflowingAdd_balances positive small
      have rest := ih (a.overflowingAdd i).1 later
      rw [total_cons, carries_cons, List.sum_cons]
      push_cast
      omega

/-- Additions in a row end at the whole sum in twelve bits, in whatever order they are made, and on
the way lie the sums of their beginnings in twelve bits. If none of them is negative or larger than
the memory, then the additions that went past the last address make up for the rest. -/
theorem additions_are_modular (start : Int) (is : List Int) :
    let a := ofInt start
    ((a.total is).value : Int) = (start + is.sum) % 4096 ∧
    (∀ js : List Int, js.Perm is → a.total js = a.total is) ∧
    (∀ k, (a.total (is.take k)).value ≤ 0xFFF ∧
      ((a.total (is.take k)).value : Int) = (start + (is.take k).sum) % 4096) ∧
    (∀ (k : Nat) (inside : k < is.length),
      (a.additions is)[k]? = some ((a.total (is.take k)).overflowingAdd is[k])) ∧
    ((∀ i ∈ is, 0 ≤ i ∧ i ≤ 4096) →
      start % 4096 + is.sum = (a.total is).value + 4096 * a.carries is) := by
  intro a
  have begin : (a.value : Int) = start % 4096 := value_ofInt start
  have modular (js : List Int) : ((a.total js).value : Int) = (start + js.sum) % 4096 := by
    rw [value_total, begin, Int.emod_add_emod]
  refine ⟨modular is, fun js same => a.total_eq_of_perm same, ?_, ?_, ?_⟩
  · intro k
    have := (a.total (is.take k)).value_lt
    exact ⟨by omega, modular (is.take k)⟩
  · intro k inside
    exact a.getElem?_additions is inside
  · intro fit
    rw [← begin]
    exact (a.total_balances fit).symm

/-- From the last address, past it and round the whole memory. -/
theorem additions_are_modular_of_last :
    let a := ofInt (-1)
    let is : List Int := [1, 4096, 255]
    (∀ i ∈ is, 0 ≤ i ∧ i ≤ 4096) ∧ (a.total is).value = 255 ∧
      (a.additions is).map Prod.snd = [true, true, false] ∧ a.carries is = 2 := by
  intro a is
  have fit : ∀ i ∈ is, 0 ≤ i ∧ i ≤ 4096 := by decide
  obtain ⟨ends, -, -, -, accounts⟩ := additions_are_modular (-1) is
  have value : (a.total is).value = 255 := Int.ofNat.inj ends
  have whole : (-1 : Int) % 4096 + is.sum = 255 + 4096 * 2 := rfl
  have balances : (-1 : Int) % 4096 + is.sum = (a.total is).value + 4096 * a.carries is :=
    accounts fit
  rw [value, whole] at balances
  refine ⟨fit, value, ?_, by omega⟩
  decide

end Chip8.Address
