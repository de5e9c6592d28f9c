import Chip8.Proofs.Messages
import Chip8.Proofs.Routes

/-!
# Configurations that cannot be used

A run whose settings cannot be had ends before its session begins. Whatever its settings file
holds, the failure is one of storage or of a value, and is told in one line, or the file is nested
too deeply for the reader, which breaks the program off.
-/

namespace Chip8.CommandLine

open Settings Text

/-- The kinds of failures on the way to settings. -/
inductive FailureKind
  | storage
  | value
  | type
  | nesting

/-- A path that no file can have is a bad value, and not a failure of the disk. -/
def diskKind (e : Disk.Error) : FailureKind :=
  if e.cause = .nullCharacter then .value else .storage

/-- What kind of failure keeps settings from a run. Texts that are not UTF-8 or not JSON are bad
values like all that the check refuses; a name that settings do not have is a bad type. -/
def ConfigurationError.kind : ConfigurationError → FailureKind
  | file (.disk e) => diskKind e
  | file (.json .tooDeep) => .nesting
  | file _ => .value
  | change (.settings _) => .value
  | change _ => .type

theorem known_changes (a : RunArguments) : Known a.changes := by
  intro change mem
  simp only [RunArguments.changes, List.mem_cons, List.not_mem_nil, or_false] at mem
  rcases mem with rfl | rfl | rfl | rfl
  · exact ⟨.scale, rfl⟩
  · exact ⟨.clockHz, rfl⟩
  · exact ⟨.fgColor, rfl⟩
  · exact ⟨.glow, rfl⟩

end Chip8.CommandLine
