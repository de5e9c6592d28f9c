import Chip8.Storage.Disk

/-!
# Files written and read back

A path that leads to a file, or to a place where one can be made, still leads there after the file
is written: the directories on the way are not touched. So a file that was written is read back
under the path that it was written to, and nothing changes at any other place. Whether a file can
be read or written depends on where its path leads, and not on what is written.
-/

namespace Chip8.Disk

/-- Where a file can be written. -/
def Target.place? : Target → Option (List String)
  | .file place _ => some place
  | .free place => some place
  | .directory => none

section Walk
variable {d : Disk} {here parts place : List String} {t : Target}

/-- What is written never takes the place of a directory. -/
theorem not_directory_of_walk (h : d.walk here parts = .ok t) (leads : t.place? = some place) :
    d.node? place ≠ some .directory := by
  fun_induction d.walk here parts with
  | case1 here =>
      cases h
      cases leads
  | case2 here part rest _ ih => exact ih h
  | case3 here rest _ ih => exact ih h
  | case4 => cases h
  | case5 here part rest _ _ _ directory ih => exact ih h
  | case6 here part _ _ _ bytes file =>
      cases h
      cases leads
      rw [file]
      exact fun same => nomatch same
  | case7 => cases h
  | case8 here part _ _ _ free =>
      cases h
      cases leads
      rw [free]
      exact fun same => nomatch same
  | case9 => cases h

/-- After the file is written the path leads to it. -/
theorem walk_put (h : d.walk here parts = .ok t) (leads : t.place? = some place)
    (bytes : List UInt8) :
    (d.put place (.file bytes)).walk here parts = .ok (.file place bytes) := by
  fun_induction d.walk here parts with
  | case1 here =>
      cases h
      cases leads
  | case2 here part rest plain ih => rw [walk, if_pos plain, ih h]
  | case3 here rest plain ih => rw [walk, if_neg plain, if_pos rfl, ih h]
  | case4 => cases h
  | case5 here part rest plain up short directory ih =>
      have apart : place ≠ here ++ [part] := by
        rintro rfl
        exact not_directory_of_walk h leads directory
      have kept : (d.put place (.file bytes)).node? (here ++ [part]) = some .directory := by
        rw [node?_put, if_neg apart, directory]
      rw [walk, if_neg plain, if_neg up, if_neg short, kept]
      exact ih h
  | case6 here part plain up short before file =>
      cases h
      cases leads
      rw [walk, if_neg plain, if_neg up, if_neg short, node?_put, if_pos rfl]
      rfl
  | case7 => cases h
  | case8 here part plain up short free =>
      cases h
      cases leads
      rw [walk, if_neg plain, if_neg up, if_neg short, node?_put, if_pos rfl]
      rfl
  | case9 => cases h

end Walk

section Write
variable {d e : Disk} {path : String} {bytes : List UInt8}

/-- A file is written where its path leads, if a file can be written there. -/
theorem write_eq_ok_iff : d.write path bytes = .ok e ↔
    ∃ t place, d.find path = .ok t ∧ t.place? = some place ∧ e = d.put place (.file bytes) := by
  rw [write]
  cases found : d.find path with
  | error cause => simp
  | ok t => cases t <;> simp [Target.place?, eq_comm]

theorem find_put {t : Target} {place : List String} (h : d.find path = .ok t)
    (leads : t.place? = some place) (bytes : List UInt8) :
    (d.put place (.file bytes)).find path = .ok (.file place bytes) := by
  rw [find] at h ⊢
  split at h
  · cases h
  · split at h
    · cases h
    · split at h
      · cases h
      · next null empty long =>
        rw [if_neg null, if_neg empty, if_neg long]
        exact walk_put h leads bytes

/-- A file that was written is read back. -/
theorem read_of_write (h : d.write path bytes = .ok e) : e.read path = .ok bytes := by
  obtain ⟨t, place, found, leads, rfl⟩ := write_eq_ok_iff.1 h
  rw [read, find_put found leads]

end Write

section Access
variable {d e : Disk} {path : String} {bytes : List UInt8}

/-- A path leads to a file. -/
def Readable (d : Disk) (path : String) : Prop :=
  ∃ place bytes, d.find path = .ok (.file place bytes)

/-- A path leads to a place where a file is or can be made. -/
def LeadsTo (d : Disk) (path : String) (place : List String) : Prop :=
  ∃ t, d.find path = .ok t ∧ t.place? = some place

/-- A file can be written under a path. -/
def Writable (d : Disk) (path : String) : Prop := ∃ place, d.LeadsTo path place

theorem readable_iff : d.Readable path ↔ ∃ bytes, d.read path = .ok bytes := by
  rw [Readable, read]
  cases found : d.find path with
  | error cause => simp
  | ok t => cases t <;> simp

theorem writable_iff (bytes : List UInt8) :
    d.Writable path ↔ ∃ e, d.write path bytes = .ok e := by
  constructor
  · rintro ⟨place, t, found, leads⟩
    exact ⟨_, write_eq_ok_iff.2 ⟨t, place, found, leads, rfl⟩⟩
  · rintro ⟨e, written⟩
    obtain ⟨t, place, found, leads, -⟩ := write_eq_ok_iff.1 written
    exact ⟨place, t, found, leads⟩

/-- A file that is written changes nothing at other places. -/
theorem node?_of_write (h : d.write path bytes = .ok e) {place : List String}
    (elsewhere : ¬ d.LeadsTo path place) : e.node? place = d.node? place := by
  obtain ⟨t, target, found, leads, rfl⟩ := write_eq_ok_iff.1 h
  rw [node?_put, if_neg]
  rintro rfl
  exact elsewhere ⟨t, found, leads⟩

end Access

end Chip8.Disk
