import Chip8.Proofs.Listings
import Chip8.Session.Basic

/-!
# Program images in memory and on paper

A file is cut to what fits above the start of programs both where it is read and where
it is loaded. So the machine fetches the very words that the listing of the file shows,
each at its address, and a file that is too long loads like its first bytes.
-/

namespace Chip8

namespace Machine

/-- A loaded program stands at its place; every other byte is as before. -/
theorem get_load (m : Machine) (program : List UInt8) (a : Address) :
    (m.load program).memory.get a =
      if Memory.programStart ≤ a.value ∧ a.value - Memory.programStart < program.length then
        program.getD (a.value - Memory.programStart) 0
      else m.memory.get a := by
  have bound := a.value_lt
  have room : a.value - Memory.programStart < Memory.capacity := by
    simp only [Memory.programStart, Memory.capacity, Memory.size]
    omega
  rw [load, Memory.get_write]
  by_cases above : Memory.programStart ≤ a.value
  · by_cases inside : a.value - Memory.programStart < program.length
    · rw [if_pos above, if_pos ⟨above, inside⟩]
      simp [List.getD_eq_getElem?_getD, room, inside]
    · rw [if_pos above, if_neg (mt And.right inside)]
      simp [List.getD_eq_getElem?_getD, room, Nat.le_of_not_lt inside]
  · rw [if_neg above, if_neg (mt And.left above)]

/-- The part of a program that does not fit makes no difference. -/
theorem load_take (m : Machine) (program : List UInt8) :
    m.load (program.take Memory.capacity) = m.load program := by
  simp only [load, List.take_take, Nat.min_self]

/-- The address of a position of a program. -/
theorem value_programAddress {i : Nat} (h : i < Memory.capacity) :
    (Address.ofInt (Memory.programStart + i : Nat)).value = Memory.programStart + i := by
  have value := Address.value_ofInt (Memory.programStart + i : Nat)
  simp only [Memory.capacity, Memory.size, Memory.programStart] at h value ⊢
  omega

theorem get_load_program (m : Machine) (program : List UInt8) {i : Nat}
    (h : i < min program.length Memory.capacity) :
    (m.load program).memory.get (Address.ofInt (Memory.programStart + i : Nat)) =
      program.getD i 0 := by
  rw [get_load, value_programAddress (by omega), Nat.add_sub_cancel_left,
    if_pos ⟨by omega, by omega⟩]

/-- A loaded program is fetched word by word. -/
theorem fetch_load (m : Machine) (program : List UInt8) {i : Nat}
    (h : i + 1 < min program.length Memory.capacity) :
    ({ m.load program with pc := (Memory.programStart + i : Nat) } : Machine).fetch =
      wordAt program i := by
  have high := m.get_load_program program (i := i) (by omega)
  have low := m.get_load_program program h
  rw [fetch, wordAt, ← high, ← low]
  rfl

end Machine

theorem Program.read_of_read {d : Disk} {path : Path} {bytes : List UInt8}
    (h : d.read path.text = .ok bytes) :
    Program.read d path = .ok (bytes.take Memory.capacity, Program.readLog path bytes.length) := by
  rw [Program.read, h]
  rfl

theorem Program.read_of_error {d : Disk} {path : Path} {e : Disk.Error}
    (h : d.read path.text = .error e) : Program.read d path = .error e := by
  rw [Program.read, h]
  rfl

namespace Session

/-- A session that loads a file that can be read comes to the end of it. -/
theorem load_of_read {d : Disk} {path : Path} {program : List UInt8} {log : List Log.Line}
    (h : Program.read d path = .ok (program, log)) (s : Session) :
    (s.load d path).stop = none ∧
      (s.load d path).session =
        { s with machine := s.machine.reset.load program, rom := some path } := by
  rw [load, h]
  exact ⟨rfl, rfl⟩

/-- What the listing of a file shows is what a machine fetches after the file is loaded. -/
theorem listing_eq_fetches {d : Disk} {path : Path} {bytes : List UInt8}
    (h : d.read path.text = .ok bytes) (s : Session) :
    ∃ program log, Program.read d path = .ok (program, log) ∧ (s.load d path).stop = none ∧
      let size := min bytes.length 3584
      let lines := listing Memory.programStart program
      let m := (s.load d path).session.machine
      (∀ i, 2 * i + 1 < size →
        let a : Int := 0x200 + 2 * i
        lines[i]? =
          some (Text.Hex.text 4 a ++ ":  " ++ wordText ({ m with pc := a } : Machine).fetch.value)) ∧
      (size % 2 = 1 →
        let a : Int := 0x200 + (size - 1)
        lines.getLast? =
          some (Text.Hex.text 4 a ++ ":  " ++ ".byte 0x" ++
            Text.Hex.text 2 (m.memory.get (Address.ofInt a)).toNat ++ "  (odd trailing byte)")) ∧
      lines.length = (size + 1) / 2 ∧
      ∀ n : Machine, (n.load bytes).memory = (n.load program).memory := by
  have read := Program.read_of_read h
  obtain ⟨stop, loaded⟩ := load_of_read read s
  refine ⟨_, _, read, stop, ?_⟩
  intro size lines m
  have capacity : Memory.capacity = 3584 := rfl
  have length : (bytes.take Memory.capacity).length = size := by
    rw [List.length_take, Nat.min_comm]
    rfl
  have machine : m = s.machine.reset.load (bytes.take Memory.capacity) := congrArg machine loaded
  refine ⟨?_, ?_, ?_, ?_⟩
  · intro i inside a
    have address : a = (Memory.programStart + 2 * i : Nat) := by
      simp only [a, Memory.programStart]
      omega
    have fetched := s.machine.reset.fetch_load (bytes.take Memory.capacity) (i := 2 * i)
      (by rw [length, capacity]; omega)
    rw [getElem?_listing_word (length ▸ inside), machine, address, fetched]
    rfl
  · intro odd a
    have last : size = 2 * (size / 2) + 1 := by omega
    have address : a = (Memory.programStart + 2 * (size / 2) : Nat) := by
      simp only [a, Memory.programStart]
      omega
    have byte := s.machine.reset.get_load_program (bytes.take Memory.capacity)
      (i := 2 * (size / 2)) (by rw [length, capacity]; omega)
    have lines : lines.length - 1 = size / 2 := by
      rw [length_listing, length]
      omega
    rw [List.getLast?_eq_getElem?, lines, getElem?_listing_odd (length.trans last), machine,
      address, byte]
    simp only [Listing.head, Listing.oddText, String.append_assoc]
    rfl
  · rw [length_listing, length]
  · intro n
    rw [n.load_take]

/-- A file of an odd length, loaded into a session that showed something else before. -/
theorem listing_eq_fetches_of_odd :
    let path := Path.ofString "games/odd.ch8"
    let d := Disk.empty.install "games/odd.ch8" (.file [0x61, 0x05, 0x7F])
    let s : Session :=
      ⟨Settings.default, (Machine.initial (Generator.cycle [])).load [0xFF, 0xFF, 0xFF, 0xFF, 0xFF],
        none, true, false, ⟨false, none⟩⟩
    let m := (s.load d path).session.machine
    d.read path.text = .ok [0x61, 0x05, 0x7F] ∧ ∃ program log,
      Program.read d path = .ok (program, log) ∧ (s.load d path).stop = none ∧
      (listing Memory.programStart program)[0]? =
        some ("0200:  " ++ wordText ({ m with pc := 0x200 } : Machine).fetch.value) ∧
      (listing Memory.programStart program).getLast? =
        some ("0202:  .byte 0x" ++ Text.Hex.text 2 (m.memory.get (Address.ofInt 0x202)).toNat ++
          "  (odd trailing byte)") ∧
      (listing Memory.programStart program).length = 2 := by
  intro path d s m
  have file : d.read path.text = .ok [0x61, 0x05, 0x7F] := by decide +kernel
  obtain ⟨program, log, read, stop, words, odd, length, -⟩ := listing_eq_fetches file s
  exact ⟨file, program, log, read, stop, words 0 (by decide), odd (by decide), length⟩

end Session

end Chip8
