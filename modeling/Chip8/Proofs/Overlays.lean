import Chip8.Proofs.Sprites
import Mathlib.Data.List.Perm.Basic

/-!
# Sprites drawn over one another

A sprite turns over the pixels under its set bits, wherever its operands are kept. Sprites that
are drawn one after the other therefore lay a single overlay on the picture, the sum of their
bits: neither their order nor two sprites in one place can be told from it. The flag of a sprite
tells of lit pixels under it, that of its repetition of dark ones.

## Implementation notes

A stamp is an instruction that draws together with the values that its operands are set to.
Several stamps may have one placement, as any two registers but the flag can hold it.
-/

namespace Chip8

/-- Where a sprite is drawn, where its bytes begin and how many of them there are. -/
structure Placement where
  column : UInt8
  row : UInt8
  index : Address
  height : Fin 16
deriving DecidableEq

namespace Placement

/-- The bit that a sprite has on a pixel. -/
def bit (p : Placement) (memory : Memory) (r : Fin 32) (c : Fin 64) : UInt8 :=
  Screen.cover p.column.toNat p.row.toNat (memory.read p.index p.height.val) r c

/-- A set bit of a sprite falls on a pixel. -/
def Meets (p : Placement) (memory : Memory) (r : Fin 32) (c : Fin 64) : Prop :=
  ∃ i < p.height.val, ∃ j < 8,
    r = Screen.rowAt (p.row.toNat + i) ∧ c = Screen.columnAt (p.column.toNat + j) ∧
      bitAt (memory.get (p.index.offset i)) (7 - j) = 1

theorem bit_zero_or_one (p : Placement) (memory : Memory) (r : Fin 32) (c : Fin 64) :
    p.bit memory r c = 0 ∨ p.bit memory r c = 1 :=
  Screen.cover_zero_or_one _ _ _ r c

theorem bit_eq_one_iff (p : Placement) (memory : Memory) (r : Fin 32) (c : Fin 64) :
    p.bit memory r c = 1 ↔ p.Meets memory r c := by
  have short := p.height.isLt
  rw [bit, Screen.cover, Memory.length_read]
  constructor
  · intro set
    split at set
    · next covered =>
      rw [Memory.getD_read _ _ covered.1, Screen.spriteBit_eq_bitAt _ covered.2] at set
      exact ⟨_, covered.1, _, covered.2, (Screen.rowsBelow_eq_iff _ r (by omega)).1 rfl,
        (Screen.columnsRight_eq_iff _ c (by omega)).1 rfl, set⟩
    · cases set
  · rintro ⟨i, above, j, left, row, column, set⟩
    have hi := (Screen.rowsBelow_eq_iff _ r (by omega)).2 row
    have hj := (Screen.columnsRight_eq_iff _ c (by omega)).2 column
    rw [hi, hj, if_pos ⟨above, left⟩, Memory.getD_read _ _ above,
      Screen.spriteBit_eq_bitAt _ left, set]

/-- The bits that sprites have on a pixel, one laid over the other. -/
def overlay (memory : Memory) (ps : List Placement) (r : Fin 32) (c : Fin 64) : UInt8 :=
  ps.foldr (fun p below => p.bit memory r c ^^^ below) 0

section Overlay
variable (memory : Memory) (r : Fin 32) (c : Fin 64)

theorem overlay_cons (p : Placement) (ps : List Placement) :
    overlay memory (p :: ps) r c = p.bit memory r c ^^^ overlay memory ps r c := rfl

theorem overlay_zero_or_one (ps : List Placement) :
    overlay memory ps r c = 0 ∨ overlay memory ps r c = 1 := by
  induction ps with
  | nil => exact .inl rfl
  | cons p ps ih =>
      rw [overlay_cons]
      exact Screen.zero_or_one_xor (p.bit_zero_or_one memory r c) ih

/-- The order of sprites does not matter. -/
theorem overlay_perm {ps qs : List Placement} (h : ps.Perm qs) :
    overlay memory ps r c = overlay memory qs r c := by
  have : LeftCommutative fun (p : Placement) below => p.bit memory r c ^^^ below :=
    ⟨fun p q below => by rw [← UInt8.xor_assoc, UInt8.xor_comm (p.bit memory r c), UInt8.xor_assoc]⟩
  exact h.foldr_eq 0

/-- Two sprites in one place cancel out, wherever in the order they are drawn. -/
theorem overlay_twice (p : Placement) (before between after : List Placement) :
    overlay memory (before ++ p :: between ++ p :: after) r c =
      overlay memory (before ++ between ++ after) r c := by
  have front : (before ++ p :: between ++ p :: after).Perm
      (p :: p :: (before ++ between ++ after)) := by
    refine List.perm_middle.trans (List.Perm.cons p ?_)
    rw [List.append_assoc, List.append_assoc]
    exact List.perm_middle
  rw [overlay_perm memory r c front, overlay_cons, overlay_cons, ← UInt8.xor_assoc,
    UInt8.xor_self, UInt8.zero_xor]

end Overlay

end Placement

/-- A word is that of a draw exactly if its first nibble says so. -/
theorem hasForm_draw_iff (w : Word) : HasForm Opcode.draw.form.toList w.value ↔ w.kind = 0xD := by
  rw [Opcode.hasForm_iff]
  have first : nibbleAt w.value 3 = w.kind.val := w.nibbleAt_value.1
  have leading : Opcode.draw.fixedAt 0 = some 0xD := by decide
  have others : ∀ j : Fin 4, j ≠ 0 → Opcode.draw.fixedAt j = none := by decide
  constructor
  · intro h
    exact Fin.ext (first.symm.trans (h 0 (by omega) 0xD leading))
  · intro kind j inside d fixed
    by_cases zero : j = 0
    · subst zero
      obtain rfl := Option.some.inj (leading.symm.trans fixed)
      exact first.trans (congrArg Fin.val kind)
    · have free := others ⟨j, inside⟩ (by simpa [Fin.ext_iff] using zero)
      cases free.symm.trans fixed

/-- A placement and the registers that hold its column and its row. Neither of them is the flag,
and one register for both holds one value. -/
structure Stamp where
  placement : Placement
  x : Fin 16
  y : Fin 16
  unflagged : x ≠ Machine.flag ∧ y ≠ Machine.flag
  agree : x = y → placement.column = placement.row

namespace Stamp

/-- The word that draws with the registers of a stamp. -/
def word (s : Stamp) : Word :=
  ⟨0xD000 + s.x.val * 0x100 + s.y.val * 0x10 + s.placement.height.val, by omega⟩

theorem word_fields (s : Stamp) :
    s.word.kind = 0xD ∧ s.word.x = s.x ∧ s.word.y = s.y ∧ s.word.n = s.placement.height := by
  simp only [word, Word.kind, Word.x, Word.y, Word.n, Fin.ext_iff]
  omega

theorem form_word (s : Stamp) : HasForm Opcode.draw.form.toList s.word.value :=
  (hasForm_draw_iff _).2 s.word_fields.1

end Stamp

namespace Machine

/-- The machine with column, row and index of a stamp set. -/
def prepare (m : Machine) (s : Stamp) : Machine :=
  { (m.setReg s.x s.placement.column).setReg s.y s.placement.row with index := s.placement.index }

/-- The machine after a stamp is set and its word is carried out. -/
def stamp (m : Machine) (s : Stamp) : Machine :=
  match (m.prepare s).execute ⟨s.word, .draw⟩ with
  | .done n move => { n with pc := moved n.pc move }
  | .refused .. | .fault .. => m

/-- The machine after stamps in a row. -/
def stampAll (m : Machine) (ss : List Stamp) : Machine := ss.foldl stamp m

theorem reg_prepare (m : Machine) (s : Stamp) :
    (m.prepare s).reg s.x = s.placement.column ∧ (m.prepare s).reg s.y = s.placement.row := by
  have set (j : Fin 16) : (m.prepare s).reg j =
      if s.y = j then s.placement.row else (m.setReg s.x s.placement.column).reg j :=
    reg_setReg _ _ j _
  constructor
  · rw [set]
    split
    · next same => exact (s.agree same.symm).symm
    · exact (reg_setReg _ _ _ _).trans (if_pos rfl)
  · rw [set, if_pos rfl]

theorem execute_prepare (m : Machine) (s : Stamp) :
    (m.prepare s).execute ⟨s.word, .draw⟩ =
      .done ((m.prepare s).drawSprite s.x s.y s.placement.height) .next := by
  obtain ⟨-, x, y, height⟩ := s.word_fields
  rw [← x, ← y, ← height]
  rfl

/-- The machine that a stamp leaves. -/
theorem stamp_eq (m : Machine) (s : Stamp) :
    m.stamp s = { (m.prepare s).drawSprite s.x s.y s.placement.height with
      pc := moved m.pc .next } := by
  rw [stamp, execute_prepare]
  rfl

theorem memory_stamp (m : Machine) (s : Stamp) : (m.stamp s).memory = m.memory := by
  rw [stamp_eq]
  rfl

/-- What a stamp leaves of the picture and in the flag. -/
theorem drawn_stamp (m : Machine) (s : Stamp) :
    Screen.Drawn ⟨m.screen, 0⟩ (s.placement.bit m.memory)
      ⟨(m.stamp s).screen, (m.stamp s).reg flag⟩ := by
  obtain ⟨p, x, y, unflagged, agree⟩ := s
  obtain ⟨column, row⟩ := m.reg_prepare ⟨p, x, y, unflagged, agree⟩
  let sprite := m.memory.read p.index p.height.val
  have short : sprite.length ≤ 32 := by
    rw [Memory.length_read]
    omega
  have drawn := Screen.drawn_draw m.screen p.column.toNat p.row.toNat short
  have screen : (m.stamp ⟨p, x, y, unflagged, agree⟩).screen =
      (m.screen.draw p.column.toNat p.row.toNat sprite).screen := by
    rw [stamp_eq, ← column, ← row]
    rfl
  have collision : (m.stamp ⟨p, x, y, unflagged, agree⟩).reg flag =
      (m.screen.draw p.column.toNat p.row.toNat sprite).collision := by
    rw [stamp_eq, ← column, ← row]
    exact (reg_setReg _ _ _ _).trans (if_pos rfl)
  rw [screen, collision]
  exact drawn

/-- A tick that fetches the word of a stamp leaves what the stamp leaves, and counts the delay
timer. -/
theorem tick_prepare {m : Machine} {s : Stamp} (running : m.awaiting = none)
    (fetched : m.fetch = s.word) (keys : Keypad) :
    ((m.prepare s).tick keys.toList).machine =
      { m.stamp s with keypad := keys, lastError := none, delay := (m.ready keys).delay } := by
  have word : (m.prepare s).fetch = s.word := fetched
  obtain ⟨-, x, y, height⟩ := s.word_fields
  have done : ((m.prepare s).ready keys).execute ⟨(m.prepare s).fetch, .draw⟩ =
      .done (((m.prepare s).ready keys).drawSprite s.x s.y s.placement.height) .next := by
    rw [word, ← x, ← y, ← height]
    rfl
  rw [tick_toList, tickWith_execute (m := m.prepare s) running (word ▸ s.form_word) done, stamp_eq]
  rfl

theorem memory_stampAll (m : Machine) (ss : List Stamp) : (m.stampAll ss).memory = m.memory := by
  induction ss generalizing m with
  | nil => rfl
  | cons s ss ih => exact ih (m.stamp s)

/-- Stamps in a row lay one overlay on the picture. -/
theorem screen_stampAll (m : Machine) (ss : List Stamp) (r : Fin 32) (c : Fin 64) :
    (m.stampAll ss).screen.get r c =
      m.screen.get r c ^^^ Placement.overlay m.memory (ss.map Stamp.placement) r c := by
  induction ss generalizing m with
  | nil => exact UInt8.xor_zero.symm
  | cons s ss ih =>
      calc
        (m.stampAll (s :: ss)).screen.get r c =
            (m.stamp s).screen.get r c ^^^
              Placement.overlay m.memory (ss.map Stamp.placement) r c := ih (m.stamp s)
        _ = m.screen.get r c ^^^ s.placement.bit m.memory r c ^^^
              Placement.overlay m.memory (ss.map Stamp.placement) r c := by
          rw [(m.drawn_stamp s).get]
        _ = _ := UInt8.xor_assoc _ _ _

section Flag
variable {m : Machine}

/-- The flag tells of lit pixels under the sprite. -/
theorem flag_stamp_iff (binary : ∀ r c, m.screen.get r c = 0 ∨ m.screen.get r c = 1) (s : Stamp) :
    (m.stamp s).reg flag = 1 ↔
      ∃ r c, s.placement.Meets m.memory r c ∧ m.screen.get r c = 1 := by
  have both : ∀ r c, s.placement.bit m.memory r c &&& m.screen.get r c = 1 ↔
      s.placement.Meets m.memory r c ∧ m.screen.get r c = 1 := by
    intro r c
    rw [← Placement.bit_eq_one_iff]
    rcases s.placement.bit_zero_or_one m.memory r c with bit | bit <;>
      rcases binary r c with old | old <;> simp [bit, old]
  rw [(m.drawn_stamp s).hit]
  simp [both]

/-- The flag of a sprite that is drawn once more tells of the pixels that were dark before. -/
theorem flag_stamp_stamp_iff (binary : ∀ r c, m.screen.get r c = 0 ∨ m.screen.get r c = 1)
    {s t : Stamp} (same : s.placement = t.placement) :
    ((m.stamp s).stamp t).reg flag = 1 ↔
      ∃ r c, s.placement.Meets m.memory r c ∧ m.screen.get r c = 0 := by
  have get := (m.drawn_stamp s).get
  have turned : ∀ r c, s.placement.Meets m.memory r c →
      ((m.stamp s).screen.get r c = 1 ↔ m.screen.get r c = 0) := by
    intro r c meets
    rw [get, (Placement.bit_eq_one_iff _ _ r c).2 meets]
    rcases binary r c with old | old <;> simp [old]
  have binary' : ∀ r c, (m.stamp s).screen.get r c = 0 ∨ (m.stamp s).screen.get r c = 1 := by
    intro r c
    rw [get]
    exact Screen.zero_or_one_xor (binary r c) (s.placement.bit_zero_or_one m.memory r c)
  rw [flag_stamp_iff binary' t, ← same]
  exact exists₂_congr fun r c => and_congr_right (turned r c)

end Flag

/-- A stamp sets the operands of an instruction that draws and carries it out, as a tick does
that fetches it. -/
structure CarriesOut (m : Machine) (s : Stamp) : Prop where
  form : HasForm Opcode.draw.form.toList s.word.value
  column : (m.prepare s).reg s.word.x = s.placement.column
  row : (m.prepare s).reg s.word.y = s.placement.row
  index : (m.prepare s).index = s.placement.index
  height : s.word.n = s.placement.height
  done : ∃ n, (m.prepare s).execute ⟨s.word, .draw⟩ = .done n .next ∧
    m.stamp s = { n with pc := moved n.pc .next }
  memory : (m.stamp s).memory = m.memory
  tick : m.awaiting = none → m.fetch = s.word → ∀ keys,
    ((m.prepare s).tick keys.toList).machine =
      { m.stamp s with keypad := keys, lastError := none, delay := (m.ready keys).delay }

theorem carriesOut (m : Machine) (s : Stamp) : m.CarriesOut s where
  form := s.form_word
  column := s.word_fields.2.1 ▸ (m.reg_prepare s).1
  row := s.word_fields.2.2.1 ▸ (m.reg_prepare s).2
  index := rfl
  height := s.word_fields.2.2.2
  done := ⟨_, m.execute_prepare s, m.stamp_eq s⟩
  memory := m.memory_stamp s
  tick running fetched keys := tick_prepare running fetched keys

/-- Sprites drawn on a reachable picture form an algebra: their order does not matter, two in one
place cancel out, and of two draws of one sprite in a row the first reports the lit pixels under
it and the second the dark ones. -/
theorem drawing_is_xor_algebra {m : Machine} (h : Reachable m) :
    (∀ (n : Machine) (s : Stamp), n.CarriesOut s) ∧
    (∀ ss ts : List Stamp, (ss.map Stamp.placement).Perm (ts.map Stamp.placement) →
      (m.stampAll ss).screen = (m.stampAll ts).screen) ∧
    (∀ (before between after : List Stamp) (s t : Stamp), s.placement = t.placement →
      (m.stampAll (before ++ s :: between ++ t :: after)).screen =
        (m.stampAll (before ++ between ++ after)).screen) ∧
    ∀ (before : List Stamp) (s t : Stamp), s.placement = t.placement →
      let k := m.stampAll before
      (∀ r c, k.screen.get r c = 0 ∨ k.screen.get r c = 1) ∧
      ((k.stamp s).reg flag = 0 ∨ (k.stamp s).reg flag = 1) ∧
      ((k.stamp s).reg flag = 1 ↔
        ∃ r c, s.placement.Meets m.memory r c ∧ k.screen.get r c = 1) ∧
      (((k.stamp s).stamp t).reg flag = 0 ∨ ((k.stamp s).stamp t).reg flag = 1) ∧
      (((k.stamp s).stamp t).reg flag = 1 ↔
        ∃ r c, s.placement.Meets m.memory r c ∧ k.screen.get r c = 0) := by
  refine ⟨carriesOut, ?_, ?_, ?_⟩
  · intro ss ts perm
    apply Grid.ext_get
    intro r c
    rw [screen_stampAll, screen_stampAll, Placement.overlay_perm m.memory r c perm]
  · intro before between after s t same
    apply Grid.ext_get
    intro r c
    rw [screen_stampAll, screen_stampAll]
    simp only [List.map_append, List.map_cons, ← same, Placement.overlay_twice]
  · intro before s t same k
    have binary : ∀ r c, k.screen.get r c = 0 ∨ k.screen.get r c = 1 := by
      intro r c
      rw [screen_stampAll]
      exact Screen.zero_or_one_xor (h.bounded.pixels r c) (Placement.overlay_zero_or_one _ r c _)
    have memory : k.memory = m.memory := m.memory_stampAll before
    rw [← memory]
    exact ⟨binary, (k.drawn_stamp s).flag, flag_stamp_iff binary s,
      ((k.stamp s).drawn_stamp t).flag, flag_stamp_stamp_iff binary same⟩

/-- A digit over the corner of the picture, drawn again by way of other registers, and another
digit that it overlaps, with one register for both of its coordinates. -/
theorem drawing_is_xor_algebra_of_digits :
    let m := loaded []
    let p : Placement := ⟨62, 30, ⟨0, by decide⟩, 5⟩
    let q : Placement := ⟨0, 0, ⟨5, by decide⟩, 5⟩
    let s : Stamp := ⟨p, 0, 1, by decide, by decide⟩
    let t : Stamp := ⟨p, 2, 3, by decide, by decide⟩
    let u : Stamp := ⟨q, 3, 3, by decide, by decide⟩
    Reachable m ∧ s.placement = t.placement ∧
      (m.stampAll [s, u]).screen = (m.stampAll [u, s]).screen ∧
      (m.stampAll [s, u, t]).screen = (m.stampAll [u]).screen ∧
      (m.stamp s).reg flag = 0 ∧ ((m.stamp s).stamp t).reg flag = 1 := by
  intro m p q s t u
  have reachable : Reachable m := reachable_loaded []
  have same : s.placement = t.placement := rfl
  have blank (r c) : m.screen.get r c = 0 := Grid.get_fill 0 r c
  have corner : s.placement.Meets m.memory 30 62 :=
    ⟨0, by decide, 0, by decide, by decide, by decide, by decide +kernel⟩
  obtain ⟨-, perm, twice, flags⟩ := drawing_is_xor_algebra reachable
  obtain ⟨-, binary, lit, -, dark⟩ := flags [] s t same
  refine ⟨reachable, same, perm _ _ (List.Perm.swap _ _ []), twice [] [u] [] s t same, ?_,
    dark.2 ⟨30, 62, corner, blank 30 62⟩⟩
  refine binary.resolve_right fun one => ?_
  obtain ⟨r, c, -, old⟩ := lit.1 one
  exact absurd ((blank r c).symm.trans old) (by decide)

end Machine

end Chip8
