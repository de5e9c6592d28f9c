import Chip8.Proofs.Files
import Chip8.Proofs.Images
import Chip8.Proofs.Messages

/-!
# What becomes of a listing

A program is read, its listing is made, and the listing is written, in this order, and whatever
keeps the command from one of these steps keeps it from the later ones too. So a listing is
delivered whole to one place or not at all, and a failure of the disk is told in one line. Only an
origin that was given without a number breaks the command off.
-/

namespace Chip8.CommandLine

open Text

/-- How far the work on a listing comes. -/
inductive ListArguments.Comes (w : Surroundings) (a : ListArguments) : Work → Prop
  | unread {e : Disk.Error} (read : w.disk.read a.rom.text = .error e) :
      Comes w a (.failed w.disk [] (.disk e))
  | unnumbered {bytes : List UInt8} (read : w.disk.read a.rom.text = .ok bytes)
      (lines : a.lines? (bytes.take Memory.capacity) = none) :
      Comes w a (.failed w.disk (Program.readLog a.rom bytes.length) .noOrigin)
  | shown {bytes : List UInt8} {lines : List String} (read : w.disk.read a.rom.text = .ok bytes)
      (made : a.lines? (bytes.take Memory.capacity) = some lines) (output : a.output = none) :
      Comes w a ⟨Listing.text lines, w.disk, Program.readLog a.rom bytes.length, none, none⟩
  | unwritten {bytes : List UInt8} {lines : List String} {path : Path} {e : Disk.Error}
      (read : w.disk.read a.rom.text = .ok bytes)
      (made : a.lines? (bytes.take Memory.capacity) = some lines) (output : a.output = some path)
      (write : w.disk.write path.text (Listing.text lines).toUTF8.toList = .error e) :
      Comes w a (.failed w.disk (Program.readLog a.rom bytes.length) (.disk e))
  | written {bytes : List UInt8} {lines : List String} {path : Path} {d : Disk}
      (read : w.disk.read a.rom.text = .ok bytes)
      (made : a.lines? (bytes.take Memory.capacity) = some lines) (output : a.output = some path)
      (write : w.disk.write path.text (Listing.text lines).toUTF8.toList = .ok d) :
      Comes w a ⟨"", d, Program.readLog a.rom bytes.length ++ [wroteLine lines.length path],
        none, none⟩

theorem ListArguments.comes (w : Surroundings) (a : ListArguments) : a.Comes w (a.perform w) := by
  rw [perform]
  cases read : w.disk.read a.rom.text with
  | error e =>
      rw [Program.read_of_error read]
      exact .unread read
  | ok bytes =>
      rw [Program.read_of_read read]
      simp only
      cases made : a.lines? (bytes.take Memory.capacity) with
      | none => exact .unnumbered read made
      | some lines =>
          simp only
          cases output : a.output with
          | none => exact .shown read made output
          | some path =>
              simp only
              cases write : w.disk.write path.text (Listing.text lines).toUTF8.toList with
              | error e => exact .unwritten read made output write
              | ok d => exact .written read made output write

/-- The program can be read, and the listing can be written if it goes to a file. -/
def ListArguments.Usable (a : ListArguments) (d : Disk) : Prop :=
  d.Readable a.rom.text ∧ ∀ path, a.output = some path → d.Writable path.text

/-- A report of a listing that was delivered: to the output or to a file, and nothing else on the
disk has changed. There is nothing to tell but the log. -/
structure ListArguments.Delivers (a : ListArguments) (text : String) (log : PointText) (d : Disk)
    (r : Report) : Prop where
  exitCode : r.exitCode = 0
  session : r.session = none
  errors : r.errors = log
  shown : a.output = none → r.output = text ∧ r.disk = d
  stored : ∀ path, a.output = some path →
    r.output = "" ∧ r.disk.read path.text = .ok text.toUTF8.toList ∧
      ∀ place, ¬ d.LeadsTo path.text place → r.disk.node? place = d.node? place

/-- A report of a listing that failed: behind the log one line tells why, there is no output, and
nothing on the disk has changed. -/
structure Refuses (e : Disk.Error) (log : PointText) (d : Disk) (r : Report) : Prop where
  exitCode : r.exitCode = 1
  session : r.session = none
  output : r.output = ""
  disk : r.disk = d
  errors : r.errors = log ++ PointText.ofString ("chip8vm: " ++ e.message ++ "\n")
  line : OneLine (PointText.ofString ("chip8vm: " ++ e.message))

/-- A failure is that of the program's file or, if that can be read, of the file for the
listing. -/
def ListArguments.Blames (a : ListArguments) (d : Disk) (e : Disk.Error) : Prop :=
  d.read a.rom.text = .error e ∨
    d.Readable a.rom.text ∧ ∃ path text, a.output = some path ∧ d.write path.text text = .error e

/-- What a report says about a listing: it was delivered if everything for it was there, and else
one failure is told. -/
structure ListArguments.Settles (a : ListArguments) (log : PointText) (d : Disk) (r : Report) :
    Prop where
  exitCode_iff : r.exitCode = 0 ↔ a.Usable d
  delivered : a.Usable d → ∃ bytes lines, d.read a.rom.text = .ok bytes ∧
    a.lines? (bytes.take 3584) = some lines ∧ a.Delivers (Listing.text lines) log d r
  refused : ¬ a.Usable d → ∃ e, a.Blames d e ∧ Refuses e log d r

section Settles
variable {a : ListArguments} {d : Disk} {bytes : List UInt8} {lines : List String}
  {path : Path} {e : Disk.Error} {log : PointText} {r : Report}

namespace ListArguments

/-- Only a program with bytes needs a number as its origin. -/
theorem lines?_eq_none_iff : a.lines? bytes = none ↔ a.origin = .blank ∧ bytes ≠ [] := by
  rw [lines?]
  cases a.origin with
  | number i => simp
  | blank => simp

theorem not_usable_of_unread (read : d.read a.rom.text = .error e) : ¬ a.Usable d := by
  rintro ⟨readable, -⟩
  obtain ⟨bytes, found⟩ := Disk.readable_iff.1 readable
  rw [read] at found
  cases found

theorem not_usable_of_unwritten (output : a.output = some path)
    (write : d.write path.text bytes = .error e) : ¬ a.Usable d := by
  rintro ⟨-, writable⟩
  obtain ⟨d', room⟩ := (Disk.writable_iff bytes).1 (writable path output)
  rw [write] at room
  cases room

theorem Settles.of_delivers (read : d.read a.rom.text = .ok bytes)
    (made : a.lines? (bytes.take 3584) = some lines)
    (delivers : a.Delivers (Listing.text lines) log d r)
    (room : ∀ path, a.output = some path → d.Writable path.text) : a.Settles log d r := by
  have usable : a.Usable d := ⟨Disk.readable_iff.2 ⟨bytes, read⟩, room⟩
  exact ⟨iff_of_true delivers.exitCode usable, fun _ => ⟨bytes, lines, read, made, delivers⟩,
    fun unusable => absurd usable unusable⟩

theorem Settles.of_refuses (unusable : ¬ a.Usable d) (blames : a.Blames d e)
    (refuses : Refuses e log d r) : a.Settles log d r := by
  have failed : r.exitCode ≠ 0 := by
    rw [refuses.exitCode]
    exact Nat.one_ne_zero
  exact ⟨iff_of_false failed unusable, fun usable => absurd usable unusable,
    fun _ => ⟨e, blames, refuses⟩⟩

end ListArguments

theorem failureText_disk (e : Disk.Error) :
    failureText (.disk e) = PointText.ofString ("chip8vm: " ++ e.message ++ "\n") := by
  have name : PointText.ofString (programName ++ ": ") = PointText.ofString "chip8vm: " := rfl
  rw [failureText, ended, Failure.message, name, PointText.ofString_append,
    PointText.ofString_append]

/-- A failure of the disk is told in one line. -/
theorem refuses_of_failed (d : Disk) (log : List Log.Line) (e : Disk.Error) (verbose : Bool) :
    ∃ r, (Work.failed d log (.disk e)).report verbose = .ok r ∧
      Refuses e (shownText verbose log) d r := by
  have line : Unbroken ("chip8vm: " ++ e.message).toList := by
    rw [String.toList_append]
    exact Unbroken.append (by decide) e.unbroken_message
  exact ⟨_, rfl, rfl, rfl, rfl, rfl, congrArg (_ ++ ·) (failureText_disk e), oneLine_ofString line⟩

/-- Without a log nothing but the line that tells why is on the second output. -/
theorem Refuses.errorLines_eq (h : Refuses e [] d r) :
    r.errorLines = [PointText.ofString ("chip8vm: " ++ e.message)] := by
  have errors : r.errors = ended (PointText.ofString ("chip8vm: " ++ e.message)) := by
    rw [h.errors, List.nil_append, PointText.ofString_append, ended]
  rw [Report.errorLines, errors, lines_ended h.line]

end Settles

/-- A listing is delivered exactly if the program can be read and its file, if it goes to one, can
be written. If not, the failure is told in one line and nothing else has happened. An origin
without a number breaks the command off once there are bytes to list. -/
theorem listing_delivered_or_refused {w : Surroundings} {args : List String} {c : Arguments}
    {a : ListArguments} (parsed : Arguments.read args = .ok c) (command : c.command = .list a) :
    (∃ r, perform w args = .ok r ∧
      a.Settles (shownText c.verbose (a.perform w).log) w.disk r) ∨
    (a.origin = .blank ∧ (∃ bytes, w.disk.read a.rom.text = .ok bytes ∧ bytes ≠ []) ∧
      perform w args = .error .noOrigin ∧ (a.perform w).output = "" ∧
      (a.perform w).disk = w.disk) := by
  have performed : perform w args = (a.perform w).report c.verbose := by
    simp only [perform, parsed, command, Command.perform]
  rw [performed]
  have comes := a.comes w
  generalize a.perform w = work at comes ⊢
  cases comes with
  | @unread e read =>
      obtain ⟨r, told, refuses⟩ := refuses_of_failed w.disk [] e c.verbose
      exact .inl ⟨r, told, .of_refuses (a.not_usable_of_unread read) (.inl read) refuses⟩
  | @unnumbered bytes read lines =>
      obtain ⟨blank, some⟩ := ListArguments.lines?_eq_none_iff.1 lines
      refine .inr ⟨blank, ⟨bytes, read, ?_⟩, rfl, rfl, rfl⟩
      rintro rfl
      exact some rfl
  | @shown bytes lines read made output =>
      have nowhere (path : Path) : a.output ≠ some path := by
        rw [output]
        exact nofun
      refine .inl ⟨_, rfl, .of_delivers read made ⟨rfl, rfl, rfl, fun _ => ⟨rfl, rfl⟩, ?_⟩ ?_⟩
      · exact fun path file => absurd file (nowhere path)
      · exact fun path file => absurd file (nowhere path)
  | @unwritten bytes lines path e read made output write =>
      obtain ⟨r, told, refuses⟩ :=
        refuses_of_failed w.disk (Program.readLog a.rom bytes.length) e c.verbose
      have unusable := a.not_usable_of_unwritten output write
      have blames : a.Blames w.disk e :=
        .inr ⟨Disk.readable_iff.2 ⟨bytes, read⟩, path, _, output, write⟩
      exact .inl ⟨r, told, .of_refuses unusable blames refuses⟩
  | @written bytes lines path d read made output write =>
      have only {file : Path} (same : a.output = some file) : path = file :=
        Option.some.inj (output.symm.trans same)
      refine .inl ⟨_, rfl, .of_delivers read made ⟨rfl, rfl, rfl, ?_, ?_⟩ ?_⟩
      · intro none
        rw [output] at none
        cases none
      · intro file same
        obtain rfl := only same
        exact ⟨rfl, Disk.read_of_write write, fun place => Disk.node?_of_write write⟩
      · intro file same
        obtain rfl := only same
        exact (Disk.writable_iff _).2 ⟨d, write⟩

/-- What a listing works with if a program stands in the working directory. -/
def withProgram (bytes : List UInt8) : Surroundings where
  disk := Disk.empty.install "game.ch8" (.file bytes)
  mixer := .unavailable "no audio device"
  generator := .cycle []
  frames := []

/-- A listing takes the place of its own program, and does not get into a program as if that were a
directory. -/
theorem listing_delivered_or_refused_of_program :
    let w := withProgram [0x12, 0x00]
    (∃ r, perform w ["disasm", "game.ch8", "-o", "./game.ch8"] = .ok r ∧ r.exitCode = 0 ∧
      r.output = "" ∧ r.disk.read "game.ch8" = .ok "0200:  JP 0x200\n".toUTF8.toList) ∧
    (∃ r, perform w ["disasm", "game.ch8", "-o", "game.ch8/x"] = .ok r ∧ r.exitCode = 1 ∧
      r.output = "" ∧ r.disk = w.disk ∧ r.errorLines =
        [PointText.ofString "chip8vm: [Errno 20] Not a directory: 'game.ch8/x'"]) := by
  intro w
  have rom : w.disk.read "game.ch8" = .ok [0x12, 0x00] := by decide +kernel
  constructor
  · let a : ListArguments :=
      ⟨Path.ofString "game.ch8", some (Path.ofString "./game.ch8"), .number 0x200⟩
    have parsed : Arguments.read ["disasm", "game.ch8", "-o", "./game.ch8"] =
        .ok ⟨false, .list a⟩ := rfl
    have place : w.disk.LeadsTo "game.ch8" ["work", "game.ch8"] :=
      ⟨.file ["work", "game.ch8"] [0x12, 0x00], rfl, rfl⟩
    have usable : a.Usable w.disk := by
      refine ⟨Disk.readable_iff.2 ⟨_, rom⟩, ?_⟩
      rintro path ⟨rfl⟩
      exact ⟨_, place⟩
    obtain ⟨r, performed, settles⟩ | ⟨blank, -⟩ :=
      listing_delivered_or_refused (w := w) parsed rfl
    · obtain ⟨bytes, lines, read, made, delivers⟩ := settles.delivered usable
      obtain ⟨silent, stored, -⟩ := delivers.stored _ rfl
      obtain rfl : [0x12, 0x00] = bytes := Except.ok.inj (rom.symm.trans read)
      obtain rfl : ["0200:  JP 0x200"] = lines := Option.some.inj (.trans (by decide +kernel) made)
      exact ⟨r, performed, delivers.exitCode, silent, stored⟩
    · cases blank
  · let a : ListArguments :=
      ⟨Path.ofString "game.ch8", some (Path.ofString "game.ch8/x"), .number 0x200⟩
    have parsed : Arguments.read ["disasm", "game.ch8", "-o", "game.ch8/x"] =
        .ok ⟨false, .list a⟩ := rfl
    have write (text : List UInt8) : w.disk.write "game.ch8/x" text =
        .error ⟨.notDirectory, "game.ch8/x"⟩ := rfl
    obtain ⟨r, performed, settles⟩ | ⟨blank, -⟩ :=
      listing_delivered_or_refused (w := w) parsed rfl
    · obtain ⟨e, blames, refuses⟩ := settles.refused (a.not_usable_of_unwritten rfl (write []))
      have cause : e = ⟨.notDirectory, "game.ch8/x"⟩ := by
        obtain unread | ⟨-, path, text, file, unwritten⟩ := blames
        · cases rom.symm.trans unread
        · cases file
          exact (Except.error.inj unwritten).symm
      have silent : shownText false (a.perform w).log = [] := by decide +kernel
      subst cause
      rw [silent] at refuses
      exact ⟨r, performed, refuses.exitCode, refuses.output, refuses.disk, refuses.errorLines_eq⟩
    · cases blank

/-- An origin without a number is taken, and breaks off the listing of a program that can be
read. -/
theorem blank_origin_breaks_off :
    let w := withProgram [0x12, 0x00]
    let args := ["disasm", "game.ch8", "--origin=--"]
    Arguments.read args = .ok ⟨false, .list ⟨Path.ofString "game.ch8", none, .blank⟩⟩ ∧
      w.disk.Readable "game.ch8" ∧ perform w args = .error .noOrigin := by
  intro w args
  refine ⟨rfl, Disk.readable_iff.2 ⟨[0x12, 0x00], ?_⟩, rfl⟩
  decide +kernel

end Chip8.CommandLine
