import Chip8.Proofs.Images

/-!
# Loaded images

A load puts the part of an image that fits in the place of as many bytes of memory. Nothing moves:
what lies in front of the image and behind it stays where it is. So a load over another one leaves
what the later image does not reach, as if both had been loaded at once.
-/

namespace Chip8

namespace Memory

/-- The byte at a position among all bytes. -/
theorem getElem?_toList (m : Memory) (a : Address) : m.bytes.toList[a.value]? = some (m.get a) := by
  simp [get, Address.toFin, a.value_lt]

/-- What is written stands between the bytes in front of it and those behind it. -/
theorem toList_write (m : Memory) {start : Nat} {bs : List UInt8}
    (room : start + bs.length ≤ size) :
    (m.write start bs room).bytes.toList =
      m.bytes.toList.take start ++ bs ++ m.bytes.toList.drop (start + bs.length) := by
  have bound : size = 0x1000 := rfl
  have front : (m.bytes.toList.take start).length = start := by
    rw [List.length_take, Vector.length_toList]
    omega
  have length : (m.bytes.toList.take start ++ bs).length = start + bs.length := by
    rw [List.length_append, front]
  apply List.ext_getElem?
  intro i
  by_cases inside : i < 0x1000
  · obtain ⟨a, rfl⟩ : ∃ a : Address, a.value = i := ⟨⟨i, inside⟩, rfl⟩
    have before := m.getElem?_toList a
    have after := (m.write start bs room).getElem?_toList a
    rw [get_write] at after
    rw [after]
    by_cases early : a.value < start
    · rw [if_neg (by omega), List.append_assoc, List.getElem?_append_left (by omega),
        List.getElem?_take_of_lt early, before]
    · rw [if_pos (by omega)]
      by_cases written : a.value < start + bs.length
      · rw [List.getElem?_append_left (by omega), List.getElem?_append_right (by omega), front,
          List.getD_eq_getElem?_getD, List.getElem?_eq_getElem (by omega), Option.getD_some]
      · rw [List.getElem?_append_right (by omega), length, List.getElem?_drop,
          Nat.add_sub_of_le (by omega), before, List.getD_eq_getElem?_getD,
          List.getElem?_eq_none (by omega), Option.getD_none]
  · rw [List.getElem?_eq_none (by simpa using inside), List.getElem?_eq_none]
    rw [List.length_append, length, List.length_drop, Vector.length_toList]
    omega

end Memory

namespace Machine

theorem length_image (program : List UInt8) :
    (program.take Memory.capacity).length = min program.length 3584 := by
  rw [List.length_take, Nat.min_comm]
  rfl

/-- A load replaces a stretch of memory by the part of the program that fits. -/
theorem toList_load (m : Machine) (program : List UInt8) :
    (m.load program).memory.bytes.toList =
      m.memory.bytes.toList.take 0x200 ++ program.take 3584 ++
        m.memory.bytes.toList.drop (0x200 + min program.length 3584) := by
  rw [← length_image program]
  exact m.memory.toList_write _

/-- Behind a program an earlier one shows through. -/
theorem getD_append_drop (later earlier : List UInt8) (i : Nat) (b : UInt8) :
    (later ++ earlier.drop later.length).getD i b =
      if i < later.length then later.getD i b else earlier.getD i b := by
  simp only [List.getD_eq_getElem?_getD]
  by_cases reached : i < later.length
  · rw [if_pos reached, List.getElem?_append_left reached]
  · rw [if_neg reached, List.getElem?_append_right (by omega), List.getElem?_drop,
      Nat.add_sub_of_le (by omega)]

/-- A load over an earlier one is a load of both, the later program in front. -/
theorem load_load (m : Machine) (earlier later : List UInt8) :
    (m.load earlier).load later = m.load (later ++ earlier.drop later.length) := by
  have memories : ((m.load earlier).load later).memory =
      (m.load (later ++ earlier.drop later.length)).memory := by
    apply Memory.ext_get
    intro a
    have inside (i : Nat) : i < (later ++ earlier.drop later.length).length ↔
        i < later.length ∨ i < earlier.length := by
      rw [List.length_append, List.length_drop]
      omega
    simp only [get_load, getD_append_drop, inside]
    by_cases above : Memory.programStart ≤ a.value
    · by_cases reached : a.value - Memory.programStart < later.length
      · simp [above, reached]
      · simp [above, reached]
    · simp [above]
  exact congrArg (fun memory => { m with memory }) memories

/-- A load changes memory and nothing else. Memory keeps its size, the part of the program that
fits stands at the start of programs, and every other byte is as before. What does not fit makes no
difference, and a load over an earlier one leaves what it does not reach. -/
theorem load_replaces_image (m : Machine) (program : List UInt8) :
    let size := min program.length 3584
    let n := m.load program
    n.memory.bytes.toList.length = 4096 ∧
    n.memory.bytes.toList =
      m.memory.bytes.toList.take 0x200 ++ program.take size ++
        m.memory.bytes.toList.drop (0x200 + size) ∧
    (∀ a : Address, n.memory.get a =
      if 0x200 ≤ a.value ∧ a.value < 0x200 + size then program.getD (a.value - 0x200) 0
      else m.memory.get a) ∧
    n = { m with memory := n.memory } ∧
    m.load (program.take 3584) = n ∧
    ∀ later, n.load later = m.load (later ++ program.drop later.length) := by
  intro size n
  have image : program.take size = program.take 3584 := List.take_eq_take_iff.2 (by omega)
  refine ⟨Vector.length_toList, ?_, ?_, rfl, m.load_take program, m.load_load program⟩
  · rw [image]
    exact m.toList_load program
  · intro a
    have bound := a.value_lt
    have inside : (Memory.programStart ≤ a.value ∧
        a.value - Memory.programStart < program.length) ↔
        (0x200 ≤ a.value ∧ a.value < 0x200 + size) := by
      simp only [Memory.programStart, size]
      omega
    simp only [n, get_load, inside]
    rfl

end Machine

end Chip8
