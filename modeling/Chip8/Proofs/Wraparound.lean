import Chip8.Proofs.Calls
import Mathlib.Data.Int.ModEq

/-!
# Addresses modulo the size of memory

A machine that is put together by hand may have a program counter and return addresses of any
size. Only their residues matter: machines whose counters and slots are congruent modulo the size
of memory go through the same ticks and stay congruent. Every instruction but a return brings the
counters back to one address of memory.

## Implementation notes

A difference of counters can last: a return takes its address from a slot as it is, and a tick
that reports a condition or waits for a key leaves the counter alone.
-/

namespace Chip8

open Int

/-- An address is the residue of an integer. -/
theorem Address.ofInt_congr {i j : Int} (h : i ≡ j [ZMOD 4096]) : ofInt i = ofInt j := by
  simp only [ofInt, h.eq]

namespace CallStack

/-- Stacks with one pointer and slots that are congruent. -/
structure Congruent (s t : CallStack) : Prop where
  pointer : t.pointer = s.pointer
  slots : ∀ i : Fin 16, s.slots[i] ≡ t.slots[i] [ZMOD 4096]

namespace Congruent
variable {s t : CallStack}

/-- The same address pushed on both stacks. -/
theorem pushed (h : s.Congruent t) (address : Int) :
    (s.pushed address).Congruent (t.pushed address) where
  pointer := by simp only [CallStack.pushed, h.pointer]
  slots i := by
    simp only [CallStack.pushed, h.pointer, Fin.getElem_fin, Vector.getElem_setIfInBounds]
    split
    · rfl
    · exact h.slots i

theorem popped (h : s.Congruent t) : s.popped.Congruent t.popped where
  pointer := by simp only [CallStack.popped, h.pointer]
  slots := h.slots

theorem top (h : s.Congruent t) : s.top ≡ t.top [ZMOD 4096] := by
  simp only [CallStack.top, h.pointer, List.getD_eq_getElem?_getD]
  by_cases inside : (s.pointer - 1).toNat < 16
  · have size (u : CallStack) : (s.pointer - 1).toNat < u.slots.toList.length := by
      rwa [Vector.length_toList]
    rw [List.getElem?_eq_getElem (size s), List.getElem?_eq_getElem (size t)]
    simp only [Option.getD_some, Vector.getElem_toList]
    exact h.slots ⟨_, inside⟩
  · have size (u : CallStack) : u.slots.toList.length ≤ (s.pointer - 1).toNat := by
      rw [Vector.length_toList]
      omega
    rw [List.getElem?_eq_none (size s), List.getElem?_eq_none (size t)]

end Congruent

end CallStack

namespace Machine

/-- The machine with other addresses in its counter and on its stack. -/
def withAddresses (m : Machine) (pc : Int) (stack : CallStack) : Machine :=
  { m with pc := pc, stack := stack }

/-- What comes of an instruction, with other addresses. -/
def Execution.withAddresses (e : Execution) (pc : Int) (stack : CallStack) : Execution :=
  match e with
  | .done m move => .done (m.withAddresses pc stack) move
  | .refused m c => .refused (m.withAddresses pc stack) c
  | .fault m f => .fault (m.withAddresses pc stack) f

theorem restore_withAddresses (m : Machine) (r : Fin 16) (pc : Int) (stack : CallStack) :
    (m.withAddresses pc stack).restore r = (m.restore r).withAddresses pc stack :=
  List.foldl_hom (fun n : Machine => n.withAddresses pc stack) fun _ _ => rfl

/-- Calls and returns apart, no instruction looks at the counter or at the stack. -/
theorem execute_withAddresses (m : Machine) {w : Word} {op : Opcode} (notCall : op ≠ .call)
    (notBack : op ≠ .returnFromCall) (pc : Int) (stack : CallStack) :
    (m.withAddresses pc stack).execute ⟨w, op⟩ = (m.execute ⟨w, op⟩).withAddresses pc stack := by
  cases op
  case call => exact absurd rfl notCall
  case returnFromCall => exact absurd rfl notBack
  case loadRegisters =>
    exact congrArg (Execution.done · .next) (m.restore_withAddresses w.x pc stack)
  case readDelay =>
    simp only [execute, withAddresses]
    cases byte? m.delay <;> rfl
  all_goals rfl

/-- The bounds of reachable machines on all parts but the counter and the slots of the stack. -/
structure Inside (m : Machine) : Prop extends Safe m where
  sound : 0 ≤ m.sound ∧ m.sound < 256
  pixels : ∀ r c, m.screen.get r c = 0 ∨ m.screen.get r c = 1

theorem Bounded.inside {m : Machine} (h : m.Bounded) : m.Inside := { h with }

/-- Machines inside the bounds that differ at most in their addresses, and in these by multiples
of the size of memory. -/
structure Congruent (m n : Machine) : Prop where
  inside : m.Inside
  same : n = m.withAddresses n.pc n.stack
  pc : m.pc ≡ n.pc [ZMOD 4096]
  stack : m.stack.Congruent n.stack

/-- Two ticks that hand out the same and leave congruent machines. -/
def Tick.Congruent (t u : Tick) : Prop :=
  Machine.Congruent t.machine u.machine ∧ ∃ out, t.output = .ok out ∧ u.output = .ok out

namespace Inside
variable {m n : Machine} {keys : Keypad}

theorem ready (h : m.Inside) (keys : Keypad) : (m.ready keys).Inside :=
  { h with delay := h.toSafe.ready keys }

/-- Each of the four transitions keeps the bounds. -/
theorem transition (h : m.Inside) (t : Transition m keys n) : n.Inside := by
  cases t with
  | wait waiting up => exact { h with }
  | resume waiting down => exact { h with awaiting := fun _ none => by cases none }
  | refuse running arises => exact { h.ready keys with }
  | @execute op n move running form done =>
      exact { (h.ready keys).toSafe.execute done with
        sound := sound_bounds_of_execute (n := n) (h.ready keys).sound done
        pixels := pixels_of_execute (n := n) (h.ready keys).pixels done }

end Inside

namespace Congruent
variable {m n m' : Machine} {keys : Keypad}

theorem output (h : m.Congruent n) : n.output = m.output := by
  rw [h.same]
  rfl

/-- Congruent machines fetch the same word. -/
theorem fetch (h : m.Congruent n) : n.fetch = m.fetch := by
  have memory : n.memory = m.memory := by
    rw [h.same]
    rfl
  simp only [Machine.fetch, memory, Address.ofInt_congr h.pc,
    Address.ofInt_congr (h.pc.add_right 1)]

theorem ready (h : m.Congruent n) (keys : Keypad) : (m.ready keys).Congruent (n.ready keys) where
  inside := h.inside.ready keys
  same := by
    rw [h.same]
    rfl
  pc := h.pc
  stack := h.stack

/-- A move from congruent counters, unless it is a jump, leads to one address. -/
theorem moved_congr {i j : Int} (h : i ≡ j [ZMOD 4096]) (move : Move) :
    moved i move = moved j move := by
  cases move with
  | next => exact h.add_right 2
  | skip => exact h.add_right 4
  | jump address => rfl

/-- Congruent machines carry an instruction out alike, and only a return leaves their counters
apart. -/
theorem execute (h : m.Congruent n) {w : Word} {op : Opcode} {move : Move}
    (done : m.execute ⟨w, op⟩ = .done m' move) :
    ∃ n' move', n.execute ⟨w, op⟩ = .done n' move' ∧ n' = m'.withAddresses n'.pc n'.stack ∧
      moved m'.pc move ≡ moved n'.pc move' [ZMOD 4096] ∧ m'.stack.Congruent n'.stack ∧
      (op ≠ .returnFromCall → moved n'.pc move' = moved m'.pc move) := by
  have within := h.inside.stack
  have within' : n.stack.Within := by
    rw [CallStack.Within, h.stack.pointer]
    exact within
  rcases execute_stack within done with
    ⟨rfl, room, -⟩ | ⟨rfl, entry, -⟩ | ⟨notCall, notBack, -⟩
  · have behind : (n.pc + 2) % 4096 = (m.pc + 2) % 4096 := (h.pc.add_right 2).symm
    rw [execute_call w within room] at done
    cases done
    refine ⟨_, _, execute_call w within' (h.stack.pointer ▸ room), ?_, rfl, ?_, fun _ => rfl⟩
    · rw [h.same]
      rfl
    · rw [behind]
      exact h.stack.pushed _
  · rw [execute_returnFromCall w within entry] at done
    cases done
    refine ⟨_, _, execute_returnFromCall w within' (h.stack.pointer ▸ entry), ?_, h.stack.top,
      h.stack.popped, fun no => absurd rfl no⟩
    rw [h.same]
    rfl
  · have counter : m'.pc = m.pc := (execute_control done).1
    have stack : m'.stack = m.stack :=
      execute_frame done .stack fun writes =>
        (op.stack_mem_writes_iff.1 writes).elim notCall notBack
    have same : moved n.pc move = moved m'.pc move := by
      rw [counter]
      exact (moved_congr h.pc move).symm
    refine ⟨m'.withAddresses n.pc n.stack, move, ?_, rfl, ?_, ?_, fun _ => same⟩
    · rw [h.same, m.execute_withAddresses notCall notBack, done]
      rfl
    · exact same ▸ rfl
    · rw [stack]
      exact h.stack

/-- What a condition arises from is the same in congruent machines. -/
theorem arises (h : m.Congruent n) {c : Condition} (arises : m.Arises c) : n.Arises c := by
  cases c with
  | unrecognized word =>
      rw [Arises, h.fetch]
      exact arises
  | stackOverflow =>
      rw [Arises, h.fetch, h.stack.pointer]
      exact arises
  | stackUnderflow =>
      rw [Arises, h.fetch, h.stack.pointer]
      exact arises

/-- Congruent machines go through the same transition. -/
theorem tickWith (h : m.Congruent n) (keys : Keypad) :
    ∃ m' n' notices notices', m.tickWith keys = .ended m' notices ∧
      n.tickWith keys = .ended n' notices' ∧ m'.Congruent n' ∧
      ∀ op, m.Executes keys op → op ≠ .returnFromCall →
        n'.pc = m'.pc ∧ ∃ a : Address, m'.pc = a.value := by
  have awaiting : n.awaiting = m.awaiting := by
    rw [h.same]
    rfl
  obtain ⟨m', notices, ended, t⟩ := transition h.inside.toSafe keys
  have inside := h.inside.transition t
  have executes := executes_iff ended
  cases t with
  | wait waiting up =>
      refine ⟨_, _, _, _, ended, tickWith_wait (awaiting.trans waiting) up,
        ⟨inside, ?_, h.pc, h.stack⟩, ?_⟩
      · rw [h.same]
        rfl
      · intro op he
        cases waiting.symm.trans ((executes op).1 he).1
  | resume waiting down =>
      refine ⟨_, _, _, _, ended, tickWith_resume (awaiting.trans waiting) down,
        ⟨inside, ?_, h.pc, h.stack⟩, ?_⟩
      · rw [h.same]
        rfl
      · intro op he
        cases waiting.symm.trans ((executes op).1 he).1
  | refuse running arises =>
      refine ⟨_, _, _, _, ended, tickWith_refuse (awaiting.trans running) (h.arises arises),
        ⟨inside, ?_, h.pc, h.stack⟩, ?_⟩
      · rw [h.same]
        rfl
      · intro op he
        cases ((executes op).1 he).2.2
  | @execute op' m' move running form done =>
      obtain ⟨n', move', done', same, pc, stack, counters⟩ := (h.ready keys).execute done
      have form' : HasForm op'.form.toList n.fetch.value := by
        rw [h.fetch]
        exact form
      rw [← h.fetch] at done'
      refine ⟨_, _, _, _, ended, tickWith_execute (awaiting.trans running) form' done',
        ⟨inside, ?_, pc, stack⟩, ?_⟩
      · rw [same]
        rfl
      · intro op he notBack
        obtain rfl := Opcode.eq_of_hasForm ((executes op).1 he).2.1 form
        exact ⟨counters notBack, exists_address_of_execute done notBack⟩

theorem ended (h : m.Congruent n) (notices notices' : List Notice) :
    (Tick.ended m notices).Congruent (Tick.ended n notices') :=
  ⟨h, m.output, rfl, congrArg Except.ok h.output⟩

/-- Congruent machines stay congruent over runs. -/
theorem run (h : m.Congruent n) (history : List Keypad) :
    (m.run (history.map Vector.toList)).length = history.length ∧
      List.Forall₂ Tick.Congruent (m.run (history.map Vector.toList))
        (n.run (history.map Vector.toList)) := by
  induction history generalizing m n with
  | nil => exact ⟨rfl, .nil⟩
  | cons keys history ih =>
      obtain ⟨m', n', notices, notices', ended, ended', congruent, -⟩ := h.tickWith keys
      obtain ⟨length, ticks⟩ := ih congruent
      rw [run_cons ended, run_cons ended']
      exact ⟨congrArg (· + 1) length, .cons (congruent.ended notices notices') ticks⟩

end Congruent

/-- Machines that differ in their addresses by multiples of the size of memory cannot be told
apart by what their ticks hand out, over runs of any length, and they go on to differ in nothing
else. Whatever they carry out, unless it is a return, brings both counters to the same address. -/
theorem congruent_machines_tick_alike {m n : Machine} (h : m.Congruent n) :
    (∀ keys : Keypad,
      let t := m.tick keys.toList
      let u := n.tick keys.toList
      t.Congruent u ∧
        ∀ op, m.Executes keys op → op ≠ .returnFromCall →
          t.machine.pc = u.machine.pc ∧ 0 ≤ t.machine.pc ∧ t.machine.pc ≤ 0xFFF) ∧
    ∀ history : List Keypad,
      (m.run (history.map Vector.toList)).length = history.length ∧
        List.Forall₂ Tick.Congruent (m.run (history.map Vector.toList))
          (n.run (history.map Vector.toList)) := by
  refine ⟨fun keys => ?_, h.run⟩
  obtain ⟨m', n', notices, notices', ended, ended', congruent, counters⟩ := h.tickWith keys
  rw [tick_toList, tick_toList, ended, ended']
  refine ⟨congruent.ended notices notices', fun op executes notBack => ?_⟩
  obtain ⟨same, a, address⟩ := counters op executes notBack
  have := a.value_lt
  exact ⟨same.symm, by simp only [Tick.ended]; omega, by simp only [Tick.ended]; omega⟩

/-- A subroutine that returns to different addresses of one place, after which the counters agree
again; at last both machines return from an empty stack. -/
theorem congruent_machines_tick_alike_of_return :
    let k := Keypad.none
    let m := (loaded [0x22, 0x04, 0x61, 0x01, 0x00, 0xEE]).follow [k]
    let n := m.withAddresses (m.pc - 4096) ⟨m.stack.slots.map (· + 8192), m.stack.pointer⟩
    let t := m.tick k.toList
    let u := n.tick k.toList
    m.Congruent n ∧ m.pc = 0x204 ∧ n.pc = -0xDFC ∧
      t.Congruent u ∧ t.machine.pc = 0x202 ∧ u.machine.pc = 0x2202 ∧
      (t.machine.tick k.toList).machine.pc = (u.machine.tick k.toList).machine.pc ∧
      List.Forall₂ Tick.Congruent (m.run [k.toList, k.toList, k.toList])
        (n.run [k.toList, k.toList, k.toList]) := by
  intro k m n t u
  have reachable : Reachable m := (reachable_loaded _).follow [k]
  have h : m.Congruent n := by
    refine ⟨reachable.bounded.inside, rfl, ?_, rfl, ?_⟩
    · decide +kernel
    · decide +kernel
  obtain ⟨counter, counter', back, back'⟩ : m.pc = 0x204 ∧ n.pc = -0xDFC ∧
      t.machine.pc = 0x202 ∧ u.machine.pc = 0x2202 := by decide +kernel
  obtain ⟨step, run⟩ := congruent_machines_tick_alike h
  have returned := (step k).1
  have sets : t.machine.Executes k .setByte :=
    executes_of_lookup returned.1.inside.toSafe (by decide +kernel)
  have agree := ((congruent_machines_tick_alike returned.1).1 k).2 _ sets (by decide)
  exact ⟨h, counter, counter', returned, back, back', agree.1, (run [k, k, k]).2⟩

end Machine

end Chip8
