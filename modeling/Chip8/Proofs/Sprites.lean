import Chip8.Proofs.Runs

/-!
# Drawing a sprite in one tick

The tick that draws turns over exactly the pixels under the set bits of the bytes
that the index points at, both coordinates and the addresses wrapping. Its flag
tells whether a lit pixel went dark. The operands are those from before the tick,
also if the flag register is one of them.
-/

namespace Chip8

/-- A bit of a byte, the lowest at place zero. -/
def bitAt (b : UInt8) (place : Nat) : UInt8 := if b.toNat.testBit place then 1 else 0

theorem Screen.spriteBit_eq_bitAt (b : UInt8) {column : Nat} (h : column < 8) :
    spriteBit b column = bitAt b (7 - column) := by
  have shift : (UInt8.ofNat (7 - column)).toNat % 8 = 7 - column := by
    rw [UInt8.toNat_ofNat']
    omega
  have value : (spriteBit b column).toNat = (b.toNat.testBit (7 - column)).toNat := by
    rw [spriteBit, UInt8.toNat_and, UInt8.toNat_shiftRight, shift, Nat.toNat_testBit,
      Nat.shiftRight_eq_div_pow]
    exact Nat.and_one_is_mod _
  apply UInt8.toNat_inj.1
  rw [value, bitAt]
  cases b.toNat.testBit (7 - column) with
  | false => rfl
  | true => rfl

theorem Memory.getD_read (m : Memory) (a : Address) {n i : Nat} (h : i < n) :
    (m.read a n).getD i 0 = m.get (a.offset i) := by
  simp [read, h]

namespace Machine

/-- A lit pixel goes dark exactly if a set bit covers it. -/
theorem lit_goes_dark_iff {old bit : UInt8} (ho : old = 0 ∨ old = 1) (hb : bit = 0 ∨ bit = 1) :
    bit &&& old = 1 ↔ old = 1 ∧ old ^^^ bit = 0 := by
  rcases ho with rfl | rfl <;> rcases hb with rfl | rfl <;> decide

/-- A tick that draws, pixel by pixel. -/
theorem tick_draw {m : Machine} (h : Reachable m) (keys : Keypad) (running : m.awaiting = none)
    (form : HasForm Opcode.draw.form.toList m.fetch.value) :
    let x := (m.reg m.fetch.x).toNat
    let y := (m.reg m.fetch.y).toNat
    let n := (m.tick keys.toList).machine
    (∀ r c, n.screen.get r c =
      if Screen.rowsBelow y r < m.fetch.n.val ∧ Screen.columnsRight x c < 8 then
        m.screen.get r c ^^^
          bitAt (m.memory.get (m.index.offset (Screen.rowsBelow y r))) (7 - Screen.columnsRight x c)
      else m.screen.get r c) ∧
    ((n.reg flag = 0 ∨ n.reg flag = 1) ∧
      (n.reg flag = 1 ↔ ∃ r c, m.screen.get r c = 1 ∧ n.screen.get r c = 0)) ∧
    (∃ out, (m.tick keys.toList).output = .ok out ∧ out.changed = true ∧ out.error = none) ∧
    n.memory = m.memory ∧ n.index = m.index ∧ ∀ r, r ≠ flag → n.reg r = m.reg r := by
  intro x y n
  let sprite := m.memory.read m.index m.fetch.n.val
  have length : sprite.length = m.fetch.n.val := by simp [sprite, Memory.read]
  have ended : m.tickWith keys = _ := tickWith_execute running form rfl
  rw [← tick_toList] at ended
  have drawn : Screen.Drawn ⟨m.screen, 0⟩ (Screen.cover x y sprite) (m.screen.draw x y sprite) :=
    Screen.drawn_draw m.screen x y (by omega)
  have screen : n.screen = (m.screen.draw x y sprite).screen := congrArg (·.machine.screen) ended
  have registers : ∀ r,
      n.reg r = if flag = r then (m.screen.draw x y sprite).collision else m.reg r := by
    intro r
    rw [← reg_setReg m flag r]
    exact congrArg (·.machine.reg r) ended
  refine ⟨?_, ⟨?_, ?_⟩, ?_, ?_, ?_, ?_⟩
  · intro r c
    rw [screen, drawn.get, Screen.cover, length]
    split
    · next covered =>
      rw [Memory.getD_read _ _ covered.1, Screen.spriteBit_eq_bitAt _ covered.2]
    · exact UInt8.xor_zero
  · rw [registers flag, if_pos rfl]
    exact drawn.flag
  · rw [registers flag, if_pos rfl, drawn.hit, screen]
    have binary := h.bounded.pixels
    have covered := Screen.cover_zero_or_one x y sprite
    simp only [drawn.get, ← lit_goes_dark_iff (binary _ _) (covered _ _)]
    simp
  · exact ⟨_, congrArg (·.output) ended, rfl, rfl⟩
  · exact congrArg (·.machine.memory) ended
  · exact congrArg (·.machine.index) ended
  · intro r other
    rw [registers r, if_neg other.symm]

/-- A sprite drawn a second time, over the corner of the picture and the end of memory,
with the flag register as its column. -/
theorem tick_draw_of_corner :
    let program : List UInt8 :=
      [0x6F, 0x3E, 0x61, 0x1F, 0xAF, 0xFF, 0xDF, 0x12, 0x6F, 0x3E, 0xDF, 0x12]
    let m := (loaded program).follow (List.replicate 5 Keypad.none)
    let n := (m.tick Keypad.none.toList).machine
    Reachable m ∧ m.awaiting = none ∧ HasForm Opcode.draw.form.toList m.fetch.value ∧
      m.screen.get 0 1 = 1 ∧ n.screen.get 0 1 = 0 ∧ n.reg flag = 1 ∧ n.index = m.index := by
  intro program m n
  have reachable : Reachable m := (reachable_loaded _).follow _
  have state : m.awaiting = none ∧ Opcode.lookup m.fetch.value = some .draw ∧
      m.screen.get 0 1 = 1 := by decide +kernel
  obtain ⟨running, found, lit⟩ := state
  have form := (Opcode.lookup_eq_some_iff _ _).1 found
  obtain ⟨pixels, ⟨-, hit⟩, -, -, index, -⟩ := tick_draw reachable Keypad.none running form
  have dark : n.screen.get 0 1 = 0 := (pixels 0 1).trans (by decide +kernel)
  exact ⟨reachable, running, form, lit, dark, hit.2 ⟨0, 1, lit, dark⟩, index⟩

end Machine

end Chip8
