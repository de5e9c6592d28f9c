import Chip8.Proofs.Runs
import Mathlib.Data.List.Forall2

/-!
# Machines that differ in their inputs

The keys and the random bytes are the inputs of a machine. Two instructions look at one
key, one takes a random byte, and a machine that waits looks for the lowest key that is
down. Nothing else depends on the inputs: machines that differ in them alone stay alike
over every run in which they see the same where they look and get the same bytes.

## Implementation notes

Generators are compared by a relation that outlasts every byte. Equality is one; another
is to give the same bytes from now on, whatever was given before.
-/

namespace Chip8

namespace Keypad

/-- A key is down and no lower one is. -/
def IsLowest (k : Keypad) (key : Fin 16) : Prop :=
  k.isDown key = true ∧ ∀ lower < key, k.isDown lower = false

theorem lowest?_eq_none_iff (k : Keypad) : k.lowest? = .none ↔ ∀ key, k.isDown key = false := by
  simp [lowest?, List.find?_eq_none]

theorem lowest?_eq_some_iff (k : Keypad) (key : Fin 16) :
    k.lowest? = some key ↔ k.IsLowest key := by
  rw [lowest?, List.find?_eq_some_iff_getElem, IsLowest]
  refine and_congr_right fun _ => ⟨?_, ?_⟩
  · rintro ⟨i, inside, rfl, above⟩ lower lt
    have before : lower.val < i := by simpa [Fin.lt_def] using lt
    simpa using above lower before
  · intro above
    refine ⟨key, by simp, by simp, fun j lt => ?_⟩
    simpa using above ⟨j, by omega⟩ lt

/-- Two snapshots have no key down, or the same lowest one. -/
theorem lowest?_eq_lowest?_iff (k l : Keypad) :
    k.lowest? = l.lowest? ↔
      (∀ key, k.isDown key = false ∧ l.isDown key = false) ∨
        ∃ key, k.IsLowest key ∧ l.IsLowest key := by
  constructor
  · intro same
    cases lowest : k.lowest? with
    | none =>
        have up := k.lowest?_eq_none_iff.1 lowest
        have up' := l.lowest?_eq_none_iff.1 (same ▸ lowest)
        exact .inl fun key => ⟨up key, up' key⟩
    | some key =>
        have down := (k.lowest?_eq_some_iff key).1 lowest
        have down' := (l.lowest?_eq_some_iff key).1 (same ▸ lowest)
        exact .inr ⟨key, down, down'⟩
  · rintro (up | ⟨key, down, down'⟩)
    · have none := k.lowest?_eq_none_iff.2 fun key => (up key).1
      exact none.trans (l.lowest?_eq_none_iff.2 fun key => (up key).2).symm
    · have some := (k.lowest?_eq_some_iff key).2 down
      exact some.trans ((l.lowest?_eq_some_iff key).2 down').symm

end Keypad

namespace Generator

/-- Both generators give the same bytes from now on. -/
def SameBytes (g g' : Generator) : Prop := ∀ i, g.remaining i = g'.remaining i

/-- A relation of generators that give the same byte next and are related again after it. -/
def Outlasting (G : Generator → Generator → Prop) : Prop :=
  ∀ g g', G g g' → g.next.1 = g'.next.1 ∧ G g.next.2 g'.next.2

theorem outlasting_eq : Outlasting Eq := by
  rintro g _ rfl
  exact ⟨rfl, rfl⟩

theorem outlasting_sameBytes : Outlasting SameBytes := by
  intro g g' same
  refine ⟨same 0, fun i => ?_⟩
  rw [remaining_next, remaining_next]
  exact same (i + 1)

end Generator

/-- The instructions that look at a key. -/
def Opcode.lookAtKey : List Opcode := [.skipIfPressed, .skipUnlessPressed]

namespace Machine

/-- The machine with other inputs. -/
def withInputs (m : Machine) (keys : Keypad) (g : Generator) : Machine :=
  { m with keypad := keys, generator := g }

/-- What comes of an instruction, with other inputs. -/
def Execution.withInputs (e : Execution) (keys : Keypad) (g : Generator) : Execution :=
  match e with
  | .done m move => .done (m.withInputs keys g) move
  | .refused m c => .refused (m.withInputs keys g) c
  | .fault m f => .fault (m.withInputs keys g) f

theorem restore_withInputs (m : Machine) (r : Fin 16) (keys : Keypad) (g : Generator) :
    (m.withInputs keys g).restore r = (m.restore r).withInputs keys g :=
  List.foldl_hom (fun n : Machine => n.withInputs keys g) fun _ _ => rfl

/-- An instruction that neither looks at a key nor takes a byte is the same for all inputs. -/
theorem execute_withInputs (m : Machine) {w : Word} {op : Opcode} (keyless : op ∉ Opcode.lookAtKey)
    (byteless : op ≠ .random) (keys : Keypad) (g : Generator) :
    (m.withInputs keys g).execute ⟨w, op⟩ = (m.execute ⟨w, op⟩).withInputs keys g := by
  cases op
  case skipIfPressed | skipUnlessPressed => exact absurd (by decide) keyless
  case random => exact absurd rfl byteless
  case loadRegisters => exact congrArg (Execution.done · .next) (m.restore_withInputs w.x keys g)
  case returnFromCall =>
    simp only [execute, withInputs]
    cases m.stack.pop <;> rfl
  case call =>
    simp only [execute, withInputs]
    cases m.stack.push ((m.pc + Instruction.size) % Memory.size) <;> rfl
  case readDelay =>
    simp only [execute, withInputs]
    cases byte? m.delay <;> rfl
  all_goals rfl

theorem execute_random (m : Machine) (w : Word) :
    m.execute ⟨w, .random⟩ =
      .done ({ m with generator := m.generator.next.2 }.setReg w.x (m.generator.next.1 &&& w.kk))
        .next := rfl

/-- Machines that differ at most in their inputs, with related generators. -/
structure Alike (G : Generator → Generator → Prop) (m n : Machine) : Prop where
  same : n = m.withInputs n.keypad n.generator
  bytes : G m.generator n.generator

/-- Two snapshots that look the same to the next tick: to a machine that waits by their
lowest key, to an instruction by the key that it looks at. -/
structure Indistinct (m : Machine) (k l : Keypad) : Prop where
  waiting : m.awaiting ≠ none →
    (∀ key, k.isDown key = false ∧ l.isDown key = false) ∨ ∃ key, k.IsLowest key ∧ l.IsLowest key
  running : m.awaiting = none → ∀ op ∈ Opcode.lookAtKey, HasForm op.form.toList m.fetch.value →
    k.isDown (keyOf (m.reg m.fetch.x)) = l.isDown (keyOf (m.reg m.fetch.x))

theorem indistinct_iff (m : Machine) (k l : Keypad) :
    m.Indistinct k l ↔
      (m.awaiting ≠ none → k.lowest? = l.lowest?) ∧
        (m.awaiting = none → ∀ op ∈ Opcode.lookAtKey, Opcode.lookup m.fetch.value = some op →
          k.isDown (keyOf (m.reg m.fetch.x)) = l.isDown (keyOf (m.reg m.fetch.x))) := by
  simp only [Keypad.lowest?_eq_lowest?_iff, Opcode.lookup_eq_some_iff]
  exact ⟨fun h => ⟨h.waiting, h.running⟩, fun h => ⟨h.1, h.2⟩⟩

instance (m : Machine) (k l : Keypad) : Decidable (m.Indistinct k l) :=
  decidable_of_iff' _ (m.indistinct_iff k l)

theorem Indistinct.refl (m : Machine) (k : Keypad) : m.Indistinct k k :=
  (m.indistinct_iff k k).2 ⟨fun _ => rfl, fun _ _ _ _ => rfl⟩

/-- Snapshots that look the same to every tick of a run with the first of each pair. -/
inductive IndistinctAlong : Machine → List Keypad → List Keypad → Prop
  | nil (m : Machine) : IndistinctAlong m [] []
  | cons {m : Machine} {k l : Keypad} {ks ls : List Keypad} (here : m.Indistinct k l)
      (later : IndistinctAlong (m.tickWith k).machine ks ls) : IndistinctAlong m (k :: ks) (l :: ls)

theorem IndistinctAlong.refl (m : Machine) (history : List Keypad) :
    m.IndistinctAlong history history := by
  induction history generalizing m with
  | nil => exact .nil m
  | cons keys history ih => exact .cons (.refl m keys) (ih _)

/-- Two ticks that hand out the same and leave machines that are alike. -/
def Tick.Alike (G : Generator → Generator → Prop) (t u : Tick) : Prop :=
  Machine.Alike G t.machine u.machine ∧ ∃ out, t.output = .ok out ∧ u.output = .ok out

section Alike
variable {G : Generator → Generator → Prop} {m n m' : Machine}

theorem Alike.output (h : Alike G m n) : n.output = m.output := by
  rw [h.same]
  rfl

theorem Alike.ready (h : Alike G m n) (keys keys' : Keypad) :
    Alike G (m.ready keys) (n.ready keys') := by
  refine ⟨?_, h.bytes⟩
  rw [h.same]
  rfl

/-- An instruction keeps machines alike if they see the same at the key that it looks at. -/
theorem Alike.execute (outlasting : Generator.Outlasting G) (h : Alike G m n) {w : Word}
    {op : Opcode} {move : Move}
    (seen : op ∈ Opcode.lookAtKey →
      m.keypad.isDown (keyOf (m.reg w.x)) = n.keypad.isDown (keyOf (m.reg w.x)))
    (done : m.execute ⟨w, op⟩ = .done m' move) :
    ∃ n', n.execute ⟨w, op⟩ = .done n' move ∧ Alike G m' n' := by
  obtain ⟨keys, g, rfl⟩ : ∃ keys g, n = m.withInputs keys g := ⟨_, _, h.same⟩
  have bytes : G m.generator g := h.bytes
  by_cases looks : op ∈ Opcode.lookAtKey
  · have key : m.keypad.isDown (keyOf (m.reg w.x)) = keys.isDown (keyOf (m.reg w.x)) := seen looks
    refine ⟨m.withInputs keys g, ?_⟩
    rcases List.mem_pair.1 looks with rfl | rfl
    · cases done
      exact ⟨congrArg (fun down => Execution.done _ (skipIf down)) key.symm, h⟩
    · cases done
      exact ⟨congrArg (fun down => Execution.done _ (skipIf !down)) key.symm, h⟩
  · by_cases random : op = .random
    · subst random
      obtain ⟨byte, later⟩ := outlasting _ _ bytes
      rw [execute_random] at done
      cases done
      refine ⟨Machine.withInputs _ keys g.next.2, ?_, rfl, later⟩
      rw [execute_random, byte]
      rfl
    · have kept : m'.generator = m.generator :=
        execute_frame done .generator (mt op.generator_mem_writes_iff.1 random)
      rw [m.execute_withInputs looks random, done]
      exact ⟨_, rfl, rfl, kept ▸ bytes⟩

/-- A tick keeps machines alike if the snapshots look the same to it, and both machines
report the same. -/
theorem Alike.tickWith (outlasting : Generator.Outlasting G) (h : Alike G m n) (safe : m.Safe)
    {k l : Keypad} (seen : m.Indistinct k l) :
    ∃ m' n' notices, m.tickWith k = .ended m' notices ∧ n.tickWith l = .ended n' notices ∧
      Alike G m' n' := by
  have lowest := ((m.indistinct_iff k l).1 seen).1
  obtain ⟨keys, g, rfl⟩ : ∃ keys g, n = m.withInputs keys g := ⟨_, _, h.same⟩
  obtain ⟨m', notices, -, t⟩ := transition safe k
  -- What brings the first machine into a case brings the second into the same one.
  cases t with
  | wait waiting up =>
      have up' : l.lowest? = none := lowest (by simp [waiting]) ▸ up
      exact ⟨_, _, _, tickWith_wait waiting up, tickWith_wait waiting up', rfl, h.bytes⟩
  | @resume register key waiting down =>
      have down' : l.lowest? = some key := lowest (by simp [waiting]) ▸ down
      exact ⟨_, _, _, tickWith_resume waiting down, tickWith_resume waiting down', rfl, h.bytes⟩
  | @refuse c running arises =>
      have arises' : (m.withInputs keys g).Arises c := by cases c <;> exact arises
      exact ⟨_, _, _, tickWith_refuse running arises, tickWith_refuse running arises', rfl, h.bytes⟩
  | execute running form done =>
      obtain ⟨n', done', same, bytes⟩ := (h.ready k l).execute outlasting
        (fun looks => seen.running running _ looks form) done
      refine ⟨_, _, _, tickWith_execute running form done, tickWith_execute running form done', ?_,
        bytes⟩
      rw [same]
      rfl

/-- Machines stay alike over runs with snapshots that look the same to them. -/
theorem Alike.run (outlasting : Generator.Outlasting G) (h : Alike G m n)
    (reachable : Reachable m) {ks ls : List Keypad} (seen : m.IndistinctAlong ks ls) :
    List.Forall₂ (Tick.Alike G) (m.run (ks.map Vector.toList)) (n.run (ls.map Vector.toList)) := by
  induction seen generalizing n with
  | nil m => exact .nil
  | @cons m k l ks ls here later ih =>
      obtain ⟨m', n', notices, ended, ended', alike⟩ :=
        h.tickWith outlasting reachable.bounded.toSafe here
      have next := reachable.tickWith k
      rw [ended] at ih next
      rw [run_cons ended, run_cons ended']
      have output : (Tick.ended n' notices).output = .ok m'.output :=
        congrArg Except.ok alike.output
      exact .cons ⟨alike, m'.output, rfl, output⟩ (ih alike next)

end Alike

/-- A machine keeps the snapshot that it was given last. -/
theorem Transition.keypad {m n : Machine} {keys : Keypad} (t : Transition m keys n) :
    n.keypad = keys := by
  cases t with
  | wait waiting up => rfl
  | resume waiting down => rfl
  | refuse running arises => rfl
  | execute running form done => exact (execute_control done).2.1

theorem Safe.keypad_tickWith {m : Machine} (safe : m.Safe) (keys : Keypad) :
    (m.tickWith keys).machine.keypad = keys := by
  obtain ⟨n, notices, ended, t⟩ := transition safe keys
  rw [ended]
  exact t.keypad

theorem keypads_run {m : Machine} (h : Reachable m) (history : List Keypad) :
    (m.run (history.map Vector.toList)).map (fun t => t.machine.keypad) = history := by
  induction history generalizing m with
  | nil => rfl
  | cons keys history ih =>
      rw [h.run_cons, List.map_cons, ih (h.tickWith keys), h.bounded.toSafe.keypad_tickWith]

/-- What a machine does depends on the keys only where it looks at them: over two runs with
snapshots that look the same where the first one looks, the machines agree in all but the
snapshot they keep, and every tick hands out the same. -/
theorem keypad_noninterference {m : Machine} (h : Reachable m) {ks ls : List Keypad}
    (seen : m.IndistinctAlong ks ls) :
    (m.run (ks.map Vector.toList)).length = ks.length ∧
      List.Forall₂
        (fun t u => u.machine = { t.machine with keypad := u.machine.keypad } ∧
          ∃ out, t.output = .ok out ∧ u.output = .ok out)
        (m.run (ks.map Vector.toList)) (m.run (ls.map Vector.toList)) := by
  have start : Alike Eq m m := ⟨rfl, rfl⟩
  refine ⟨length_run h ks, (start.run Generator.outlasting_eq h seen).imp ?_⟩
  rintro t u ⟨⟨same, bytes⟩, handed⟩
  rw [← bytes] at same
  exact ⟨same, handed⟩

/-- A program that waits for a key, skips if it is still down and then goes on without a
look at the keys. -/
theorem keypad_noninterference_of_wait_and_skip :
    let m := loaded [0xF0, 0x0A, 0xE0, 0x9E, 0x12, 0x04, 0x61, 0x01]
    let ks := [.ofKeys [1], .none, .ofKeys [3, 5], .ofKeys [3], .none]
    let ls := [.none, .none, .ofKeys [3, 9], .ofKeys [3, 4, 15], .ofKeys [0, 7]]
    Reachable m ∧ m.IndistinctAlong ks ls ∧
      (m.run (ks.map Vector.toList)).length = 5 ∧
      List.Forall₂
        (fun t u => u.machine = { t.machine with keypad := u.machine.keypad } ∧
          ∃ out, t.output = .ok out ∧ u.output = .ok out)
        (m.run (ks.map Vector.toList)) (m.run (ls.map Vector.toList)) := by
  intro m ks ls
  have reachable : Reachable m := reachable_loaded _
  have seen : m.IndistinctAlong ks ls :=
    .cons (by decide +kernel) (.cons (by decide +kernel) (.cons (by decide +kernel)
      (.cons (by decide +kernel) (.cons (by decide +kernel) (.nil _)))))
  exact ⟨reachable, seen, keypad_noninterference reachable seen⟩

end Machine

end Chip8
