import Chip8.CallStack

/-!
# The call stack as a list

Between an empty and a full stack a push appends to the entries and a pop takes
the last entry off, whatever the slots above the pointer still hold.
-/

namespace Chip8.CallStack

/-- The pointer stands at one of the slots or right behind the last. -/
def Within (s : CallStack) : Prop := 0 ≤ s.pointer ∧ s.pointer ≤ 16

/-- The stack with one more address. -/
def pushed (s : CallStack) (address : Int) : CallStack :=
  ⟨s.slots.setIfInBounds s.pointer.toNat address, s.pointer + 1⟩

/-- The stack with its last address behind the pointer. -/
def popped (s : CallStack) : CallStack := { s with pointer := s.pointer - 1 }

/-- The last address, or zero if there is none. -/
def top (s : CallStack) : Int := s.slots.toList.getD (s.pointer - 1).toNat 0

theorem push_of_full {s : CallStack} (h : s.pointer = 16) (address : Int) :
    s.push address = .refused s := by
  simp [push, h]

theorem push_of_room {s : CallStack} (h : s.Within) (room : s.pointer < 16) (address : Int) :
    s.push address = .done (s.pushed address) () := by
  obtain ⟨low, -⟩ := h
  have inside : s.pointer.toNat < 16 := by omega
  have place : position? 16 .stackWrite s.pointer = .ok ⟨s.pointer.toNat, inside⟩ :=
    position?_of_lt (by omega)
  simp only [push, write, place, Except.map, pushed, if_neg (Int.not_le.2 room)]

theorem pop_of_empty {s : CallStack} (h : s.pointer = 0) : s.pop = .refused s := by
  simp [pop, h]

theorem pop_of_entry {s : CallStack} (h : s.Within) (entry : 0 < s.pointer) :
    s.pop = .done s.popped s.top := by
  obtain ⟨-, high⟩ := h
  have inside : (s.pointer - 1).toNat < 16 := by omega
  have place : position? 16 .stackRead (s.pointer - 1) = .ok ⟨(s.pointer - 1).toNat, inside⟩ :=
    position?_of_lt (by omega)
  have nonzero : s.pointer ≠ 0 := by omega
  have slot : s.top = s.slots[(s.pointer - 1).toNat] := by
    rw [top, List.getD_eq_getElem?_getD, List.getElem?_eq_getElem (by simpa using inside),
      Option.getD_some, Vector.getElem_toList]
  simp only [pop, if_neg nonzero, place, slot, popped]
  rfl

theorem length_entries {s : CallStack} (h : s.Within) : s.entries.length = s.pointer.toNat := by
  obtain ⟨-, high⟩ := h
  simp only [entries, List.length_take, Vector.length_toList]
  omega

theorem within_pushed {s : CallStack} (h : s.Within) (room : s.pointer < 16) (address : Int) :
    (s.pushed address).Within := by
  obtain ⟨low, -⟩ := h
  constructor <;> simp only [pushed] <;> omega

theorem within_popped {s : CallStack} (h : s.Within) (entry : 0 < s.pointer) : s.popped.Within := by
  obtain ⟨-, high⟩ := h
  constructor <;> simp only [popped] <;> omega

/-- A push appends its address to the entries. -/
theorem entries_pushed {s : CallStack} (h : s.Within) (room : s.pointer < 16) (address : Int) :
    (s.pushed address).entries = s.entries ++ [address] := by
  obtain ⟨low, -⟩ := h
  have inside : s.pointer.toNat < 16 := by omega
  have deeper : (s.pointer + 1).toNat = s.pointer.toNat + 1 := by omega
  simp only [entries, pushed, deeper, Vector.toList_setIfInBounds]
  rw [List.take_add_one, List.take_set_of_le (Nat.le_refl _), List.getElem?_set_self (by simpa)]
  rfl

/-- A pop takes the last entry off. -/
theorem entries_popped {s : CallStack} (h : s.Within) (entry : 0 < s.pointer) :
    s.entries = s.popped.entries ++ [s.top] := by
  obtain ⟨-, high⟩ := h
  have inside : (s.pointer - 1).toNat < s.slots.toList.length := by rw [Vector.length_toList]; omega
  have deeper : s.pointer.toNat = (s.pointer - 1).toNat + 1 := by omega
  simp only [entries, popped, top]
  rw [deeper, List.take_add_one, List.getD_eq_getElem?_getD, List.getElem?_eq_getElem inside]
  rfl

/-- A property of all slots outlasts a push of an address that has it. -/
theorem forall_mem_pushed {s : CallStack} {P : Int → Prop} (h : ∀ a ∈ s.slots.toList, P a)
    {address : Int} (new : P address) : ∀ a ∈ (s.pushed address).slots.toList, P a := by
  intro a ha
  simp only [pushed, Vector.toList_setIfInBounds] at ha
  rcases List.mem_or_eq_of_mem_set ha with old | rfl
  · exact h a old
  · exact new

/-- The last address of a stack is zero or stands in a slot. -/
theorem top_of_forall_mem {s : CallStack} {P : Int → Prop} (h : ∀ a ∈ s.slots.toList, P a)
    (zero : P 0) : P s.top := by
  rw [top, List.getD_eq_getElem?_getD]
  cases slot : s.slots.toList[(s.pointer - 1).toNat]? with
  | none => exact zero
  | some a => exact h a (List.mem_of_getElem? slot)

end Chip8.CallStack
