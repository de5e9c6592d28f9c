import Chip8.Proofs.Images
import Chip8.Proofs.Inputs
import Chip8.Proofs.Mnemonics

/-!
# Words with one text

Two words with the same text are the same word or shifts of the same register, and a shift looks
at no operand but that register. So machines that differ in the word at the program counter alone
go through the same tick if both words have one text: they differ in the same two bytes as before
and report the same.
-/

namespace Chip8

/-- A word tells the two bytes that it was put together from. -/
theorem Word.ofBytes_inj {high low high' low' : UInt8}
    (same : ofBytes high low = ofBytes high' low') : high = high' ∧ low = low' := by
  have values : high.toNat * 0x100 + low.toNat = high'.toNat * 0x100 + low'.toNat :=
    congrArg Word.value same
  have := low.toNat_lt
  have := low'.toNat_lt
  exact ⟨UInt8.toNat_inj.1 (by omega), UInt8.toNat_inj.1 (by omega)⟩

namespace Machine

/-- The machine with another memory and another source of bytes. -/
def withCode (m : Machine) (memory : Memory) (g : Generator) : Machine :=
  { m with memory := memory, generator := g }

/-- Machines that differ at most in the two bytes from an address on, with related generators. -/
structure AlikeBeside (G : Generator → Generator → Prop) (p : Int) (m n : Machine) : Prop where
  same : n = m.withCode n.memory n.generator
  bytes : G m.generator n.generator
  elsewhere : ∀ a, a ≠ Address.ofInt p → a ≠ Address.ofInt (p + 1) →
    n.memory.get a = m.memory.get a

/-- Two ticks that report the same and leave machines alike but for two bytes. -/
def Tick.AlikeBeside (G : Generator → Generator → Prop) (p : Int) (t u : Tick) : Prop :=
  Machine.AlikeBeside G p t.machine u.machine ∧ t.notices = u.notices ∧
    ∃ out, t.output = .ok out ∧ u.output = .ok out

/-- A shift reads the register that it names and no other operand. -/
theorem execute_shift {op : Opcode} (shift : op = .shiftRight ∨ op = .shiftLeft) :
    ∃ f : UInt8 → UInt8 × Bool, ∀ (m : Machine) (w : Word),
      m.execute ⟨w, op⟩ =
        .done (m.setWithFlag w.x (f (m.reg w.x)).1 (f (m.reg w.x)).2) .next := by
  rcases shift with rfl | rfl
  · exact ⟨fun b => (b >>> 1, b &&& 0x01 != 0), fun _ _ => rfl⟩
  · exact ⟨fun b => (b <<< 1, b &&& 0x80 != 0), fun _ _ => rfl⟩

theorem instructionNotices_shift {op : Opcode} (shift : op = .shiftRight ∨ op = .shiftLeft)
    (w : Word) : instructionNotices ⟨w, op⟩ = [] := by
  rcases shift with rfl | rfl <;> rfl

section AlikeBeside
variable {G : Generator → Generator → Prop} {m n m' n' : Machine} {p : Int}
  {notices : List Notice}

theorem AlikeBeside.output (h : AlikeBeside G p m n) : n.output = m.output := by
  rw [h.same]
  rfl

theorem AlikeBeside.ended (h : AlikeBeside G p m' n') :
    Tick.AlikeBeside G p (.ended m' notices) (.ended n' notices) :=
  ⟨h, rfl, m'.output, rfl, congrArg Except.ok h.output⟩

/-- With the same word at the two bytes nothing is left to tell the machines apart. -/
theorem AlikeBeside.alike (h : AlikeBeside G m.pc m n) (word : m.fetch = n.fetch) :
    Alike G m n := by
  have counter : n.pc = m.pc := by
    rw [h.same]
    rfl
  rw [fetch, fetch, counter] at word
  obtain ⟨high, low⟩ := Word.ofBytes_inj word
  have memory : n.memory = m.memory := by
    apply Memory.ext_get
    intro a
    by_cases first : a = Address.ofInt m.pc
    · exact first ▸ high.symm
    by_cases second : a = Address.ofInt (m.pc + 1)
    · exact second ▸ low.symm
    · exact h.elsewhere a first second
  refine ⟨?_, h.bytes⟩
  rw [h.same, memory]
  rfl

/-- Machines that differ in their generators alone differ in no byte. -/
theorem Alike.beside (h : Alike G m n) (keypad : n.keypad = m.keypad) : AlikeBeside G p m n := by
  obtain ⟨same, bytes⟩ := h
  have memory : n.memory = m.memory := by
    rw [same]
    rfl
  rw [keypad] at same
  refine ⟨?_, bytes, fun a _ _ => by rw [memory]⟩
  rw [memory]
  exact same

/-- A tick with the same word at the program counter. -/
theorem AlikeBeside.tickWith_of_eq (outlasting : Generator.Outlasting G)
    (h : AlikeBeside G m.pc m n) (safe : m.Safe) (word : m.fetch = n.fetch) (keys : Keypad) :
    Tick.AlikeBeside G m.pc (m.tickWith keys) (n.tickWith keys) := by
  have alike := h.alike word
  have safe' : n.Safe := by
    rw [alike.same]
    exact { safe with }
  have keypad := (safe'.keypad_tickWith keys).trans (safe.keypad_tickWith keys).symm
  obtain ⟨m', n', notices, ended, ended', after⟩ :=
    alike.tickWith outlasting safe (Indistinct.refl m keys)
  rw [ended, ended'] at keypad ⊢
  exact (after.beside keypad).ended

/-- A tick that waits for a key looks at no word at all. -/
theorem AlikeBeside.tickWith_of_awaiting (h : AlikeBeside G p m n) (safe : m.Safe)
    (waiting : m.awaiting ≠ none) (keys : Keypad) :
    Tick.AlikeBeside G p (m.tickWith keys) (n.tickWith keys) := by
  obtain ⟨memory, g, rfl⟩ : ∃ memory g, n = m.withCode memory g := ⟨_, _, h.same⟩
  obtain ⟨m', notices, -, t⟩ := transition safe keys
  cases t with
  | wait awaited up =>
      rw [tickWith_wait awaited up, tickWith_wait (m := m.withCode memory g) awaited up]
      exact AlikeBeside.ended ⟨rfl, h.bytes, h.elsewhere⟩
  | resume awaited down =>
      rw [tickWith_resume awaited down, tickWith_resume (m := m.withCode memory g) awaited down]
      exact AlikeBeside.ended ⟨rfl, h.bytes, h.elsewhere⟩
  | refuse running arises => exact absurd running waiting
  | execute running form done => exact absurd running waiting

/-- A tick that carries out the same shift: its words agree in all that it looks at, and it
writes no byte. -/
theorem AlikeBeside.tickWith_of_sameShift (h : AlikeBeside G p m n) (running : m.awaiting = none)
    (word : m.fetch.SameShift n.fetch) (keys : Keypad) :
    Tick.AlikeBeside G p (m.tickWith keys) (n.tickWith keys) := by
  obtain ⟨op, shift, form, form', x⟩ := word
  obtain ⟨f, shifted⟩ := execute_shift shift
  obtain ⟨memory, g, rfl⟩ : ∃ memory g, n = m.withCode memory g := ⟨_, _, h.same⟩
  have done := shifted (m.ready keys) m.fetch
  have done' := shifted ((m.withCode memory g).ready keys) (m.withCode memory g).fetch
  rw [← x] at done'
  rw [tickWith_execute running form done,
    tickWith_execute (m := m.withCode memory g) running form' done',
    instructionNotices_shift shift, instructionNotices_shift shift]
  exact AlikeBeside.ended ⟨rfl, h.bytes, h.elsewhere⟩

end AlikeBeside

/-- Two words are loaded over each other at the program counter. -/
theorem alikeBeside_load {m : Machine} (pc : m.pc = Memory.programStart)
    {program program' : List UInt8} (two : program.length = 2) (two' : program'.length = 2) :
    AlikeBeside Eq (m.load program).pc (m.load program) (m.load program') := by
  refine ⟨rfl, rfl, fun a notFirst notSecond => ?_⟩
  have counter : (m.load program).pc = Memory.programStart := pc
  have beside : ¬ (Memory.programStart ≤ a.value ∧ a.value - Memory.programStart < 2) := by
    rw [← a.ofInt_value, counter] at notFirst notSecond
    rintro ⟨above, below⟩
    by_cases first : (a.value : Int) = Memory.programStart
    · exact notFirst (congrArg Address.ofInt first)
    · have second : (a.value : Int) = Memory.programStart + 1 := by omega
      exact notSecond (congrArg Address.ofInt second)
  rw [get_load, get_load, two, two', if_neg beside, if_neg beside]

/-- Words with one text do the same: a tick of two machines that differ in nothing but the two
bytes at the program counter, with one text for both words, keeps all the rest of them alike and
hands out the same. -/
theorem same_text_same_tick {G : Generator → Generator → Prop}
    (outlasting : Generator.Outlasting G) {m n : Machine} (h : Reachable m)
    (alike : AlikeBeside G m.pc m n)
    (text : wordText m.fetch.value = wordText n.fetch.value) (keys : Keypad) :
    Tick.AlikeBeside G m.pc (m.tick keys.toList) (n.tick keys.toList) := by
  have safe := h.bounded.toSafe
  rw [tick_toList, tick_toList]
  by_cases running : m.awaiting = none
  · rcases (wordText_eq_iff _ _).1 text with same | shift
    · exact alike.tickWith_of_eq outlasting safe same keys
    · exact alike.tickWith_of_sameShift running shift keys
  · exact alike.tickWith_of_awaiting safe running keys

/-- Two shifts with different third nibbles, loaded over one another. -/
theorem same_text_same_tick_of_shifts :
    let k := Keypad.none
    let base := (loaded [0x61, 0x85, 0x12, 0x00]).follow [k, k]
    let m := base.load [0x81, 0x26]
    let n := base.load [0x81, 0xF6]
    Reachable m ∧ Reachable n ∧ m.fetch.value = 0x8126 ∧ n.fetch.value = 0x81F6 ∧
      wordText m.fetch.value = wordText n.fetch.value ∧
      (m.tick k.toList).machine.reg 1 = 0x42 ∧
      Tick.AlikeBeside Eq m.pc (m.tick k.toList) (n.tick k.toList) := by
  intro k base m n
  have reachable : Reachable base := (reachable_loaded _).follow _
  obtain ⟨pc, first, second, shifted⟩ : base.pc = 0x200 ∧ m.fetch.value = 0x8126 ∧
      n.fetch.value = 0x81F6 ∧ (m.tickWith k).machine.reg 1 = 0x42 := by decide +kernel
  have alike : AlikeBeside Eq m.pc m n := alikeBeside_load pc rfl rfl
  have text : wordText m.fetch.value = wordText n.fetch.value := by
    rw [first, second]
    decide +kernel
  have started (program : List UInt8) : Reachable (base.load program) :=
    .event (.load program) reachable
  rw [← tick_toList] at shifted
  exact ⟨started _, started _, first, second, text, shifted,
    same_text_same_tick Generator.outlasting_eq (started _) alike text k⟩

end Machine

end Chip8
