import Chip8.Proofs.Files
import Chip8.Proofs.Images
import Chip8.Proofs.Messages
import Chip8.Proofs.Routes

/-!
# Listings as they are written

The lines of a listing hold no line ends, so the text that is written, with a line end behind every
line, is cut into the same lines again and tells how many there are. It is the same on the output
and in a file. An empty program has no lines, but a line end is written for it all the same.
-/

namespace Chip8

open Text

section Lines

theorem unbroken_hex (width : Nat) (i : Int) : Unbroken (Hex.text width i).toList := by
  have digits (width n : Nat) : Unbroken (Hex.padded width n) := by
    intro c mem
    obtain ⟨d, below, rfl⟩ := Hex.exists_digit_of_mem_padded mem
    have all : ∀ d < 16, (Hex.digit d).toNat ∉ lineEnds := by decide
    exact all d below
  rw [Hex.toList_text]
  cases i with
  | ofNat n => exact digits width n
  | negSucc n =>
    have sign : Unbroken ['-'] := by decide
    exact sign.append (digits (width - 1) (n + 1))

theorem Operand.unbroken_text (o : Operand) : Unbroken o.text.toList := by
  have numeral {front : String} (h : Unbroken front.toList) (width : Nat) (i : Int) :
      Unbroken (front ++ Hex.text width i).toList := by
    rw [String.toList_append]
    exact h.append (unbroken_hex width i)
  cases o with
  | register r => exact numeral (by decide) 1 r.val
  | address a => exact numeral (by decide) 3 a.val
  | byte b => exact numeral (by decide) 2 b.toNat
  | nibble n => exact numeral (by decide) 1 n.val
  | index | atIndex | delayTimer | soundTimer | key | glyph | digits => decide

theorem Opcode.unbroken_name : ∀ op ∈ all, Unbroken op.shape.1.toList := by decide +kernel

theorem Instruction.unbroken_text (ins : Instruction) : Unbroken ins.text.toList := by
  have name : Unbroken ins.name.toList := by
    have free := Opcode.unbroken_name ins.opcode (Opcode.mem_all _)
    rwa [shape_opcode] at free
  rw [text]
  split
  · exact name
  · rw [String.toList_append, String.toList_append]
    refine (name.append (by decide)).append (unbroken_intercalate unbroken_comma ?_)
    intro s mem
    obtain ⟨o, -, rfl⟩ := List.mem_map.1 mem
    exact o.unbroken_text

theorem unbroken_wordText (i : Int) : Unbroken (wordText i).toList := by
  rw [wordText]
  split
  · exact Instruction.unbroken_text _
  · rw [String.toList_append, String.toList_append]
    exact (Unbroken.append (by decide) (unbroken_hex 4 i)).append (by decide)

theorem unbroken_of_mem_listing {origin : Int} {program : List UInt8} :
    ∀ line ∈ listing origin program, Unbroken line.toList := by
  have head (address : Int) : Unbroken (Listing.head address).toList := by
    rw [Listing.head, String.toList_append]
    exact (unbroken_hex 4 address).append (by decide)
  induction origin, program using listing.induct with
  | case1 => simp [listing]
  | case2 address b =>
      rw [listing, List.forall_mem_singleton]
      simp only [String.toList_append]
      exact (((head address).append (by decide)).append (unbroken_hex 2 b.toNat)).append (by decide)
  | case3 address high low rest ih =>
      rw [listing, List.forall_mem_cons]
      refine ⟨?_, ih⟩
      rw [String.toList_append]
      exact (head address).append (unbroken_wordText _)

end Lines

section Written
variable {lines : List String}

/-- As long as there are lines, each of them has its line end. -/
theorem Listing.text_of_ne_nil (h : lines ≠ []) :
    Listing.text lines = String.join (lines.map (· ++ "\n")) := by
  induction lines with
  | nil => exact absurd rfl h
  | cons line rest ih =>
      cases rest with
      | nil => simp [Listing.text]
      | cons next rest =>
          have later := ih (List.cons_ne_nil _ _)
          rw [Listing.text] at later
          rw [Listing.text, String.intercalate_cons_cons, String.append_assoc, String.append_assoc,
            later]
          simp [← String.toList_inj]

theorem Listing.text_nil : Listing.text [] = "\n" := by
  decide

/-- The text that is written is cut into the lines that it was made of. -/
theorem lines_join (h : ∀ line ∈ lines, Unbroken line.toList) :
    Text.lines (PointText.ofString (String.join (lines.map (· ++ "\n")))) =
      lines.map PointText.ofString := by
  have points : PointText.ofString (String.join (lines.map (· ++ "\n"))) =
      (lines.map PointText.ofString).flatMap CommandLine.ended := by
    simp [PointText.ofString, CommandLine.ended, List.flatMap_map, List.map_flatMap]
  rw [points]
  apply lines_flatMap_ended
  intro t mem
  obtain ⟨line, inside, rfl⟩ := List.mem_map.1 mem
  exact oneLine_ofString (h line inside)

/-- There are as many line ends as lines. -/
theorem count_join (h : ∀ line ∈ lines, Unbroken line.toList) :
    (String.join (lines.map (· ++ "\n"))).toList.count '\n' = lines.length := by
  induction lines with
  | nil => rfl
  | cons line rest ih =>
      obtain ⟨here, later⟩ := List.forall_mem_cons.1 h
      have none : line.toList.count '\n' = 0 :=
        List.count_eq_zero.2 fun mem => here '\n' mem (by decide)
      have rest := ih later
      simp [none] at rest ⊢
      omega

end Written

section Bytes

theorem toList_loop (bytes : ByteArray) (i : Nat) (front : List UInt8) :
    ByteArray.toList.loop bytes i front = front.reverse ++ bytes.data.toList.drop i := by
  fun_induction ByteArray.toList.loop bytes i front with
  | case1 i front inside ih =>
      have here : bytes.get! i = bytes.data[i] := getElem!_pos bytes.data i inside
      rw [ih, here, List.reverse_cons, List.append_assoc, List.singleton_append]
      congr 1
      exact (List.drop_eq_getElem_cons inside).symm
  | case2 i front past =>
      have behind : bytes.data.toList.drop i = [] := List.drop_eq_nil_of_le (Nat.le_of_not_lt past)
      rw [behind, List.append_nil]

/-- A text is read back from its bytes. -/
theorem decodeUtf8_toList (text : String) : Settings.decodeUtf8 text.toUTF8.toList = some text := by
  have all : text.toUTF8.toList = text.toUTF8.data.toList := toList_loop text.toUTF8 0 []
  rw [all]
  exact Settings.decodeUtf8_toUTF8 text

end Bytes

namespace CommandLine

variable {w : Surroundings} {rom : Path} {program : List UInt8} {log : List Log.Line}

theorem perform_shown (h : Program.read w.disk rom = .ok (program, log)) (origin : Int) :
    (ListArguments.mk rom none (.number origin)).perform w =
      ⟨Listing.text (listing origin program), w.disk, log, none, none⟩ := by
  simp only [ListArguments.perform, h, ListArguments.lines?]

theorem perform_written (h : Program.read w.disk rom = .ok (program, log)) (origin : Int)
    {path : Path} {d : Disk}
    (room : w.disk.write path.text (Listing.text (listing origin program)).toUTF8.toList = .ok d) :
    (ListArguments.mk rom (some path) (.number origin)).perform w =
      ⟨"", d, log ++ [wroteLine (listing origin program).length path], none, none⟩ := by
  simp only [ListArguments.perform, h, ListArguments.lines?, room]

/-- The listing of a file that can be read is written with a line end behind every line, and it is
the same text on the output and in a file, for which the log tells the number of its lines. Only a
file without bytes is different: its listing has no lines, and yet a line end is written for it. -/
theorem listing_written {bytes : List UInt8} (h : w.disk.read rom.text = .ok bytes)
    (origin : Int) :
    ∃ log, Program.read w.disk rom = .ok (bytes.take 3584, log) ∧
      let lines := listing origin (bytes.take 3584)
      let text := if bytes = [] then "\n" else String.join (lines.map (· ++ "\n"))
      lines.length = (min bytes.length 3584 + 1) / 2 ∧
      text.toList.count '\n' = (if bytes = [] then 1 else lines.length) ∧
      Text.lines (PointText.ofString text) =
        (if bytes = [] then [[]] else lines.map PointText.ofString) ∧
      (ListArguments.mk rom none (.number origin)).perform w =
        ⟨text, w.disk, log, none, none⟩ ∧
      ∀ path d, w.disk.write path.text text.toUTF8.toList = .ok d →
        (ListArguments.mk rom (some path) (.number origin)).perform w =
          ⟨"", d, log ++ [⟨.info, .commandLine,
            "Wrote " ++ toString lines.length ++ " lines to " ++ path.text⟩], none, none⟩ ∧
        d.read path.text = .ok text.toUTF8.toList ∧
        Settings.decodeUtf8 text.toUTF8.toList = some text := by
  have read := Program.read_of_read h
  refine ⟨_, read, ?_⟩
  intro lines text
  have unbroken : ∀ line ∈ lines, Unbroken line.toList := unbroken_of_mem_listing
  have length : lines.length = (min bytes.length 3584 + 1) / 2 := by
    rw [length_listing, List.length_take, Nat.min_comm]
  have written : Listing.text lines = text := by
    by_cases empty : bytes = []
    · subst empty
      exact Listing.text_nil
    · have some : lines ≠ [] := by
        have := List.length_pos_of_ne_nil empty
        apply List.ne_nil_of_length_pos
        omega
      rw [Listing.text_of_ne_nil some]
      exact (if_neg empty).symm
  refine ⟨length, ?_, ?_, ?_, ?_⟩
  · by_cases empty : bytes = []
    · simp only [text, empty, if_true]
      decide
    · simp only [text, empty, if_false]
      exact count_join unbroken
  · by_cases empty : bytes = []
    · simp only [text, empty, if_true]
      decide
    · simp only [text, empty, if_false]
      exact lines_join unbroken
  · rw [← written]
    exact perform_shown read origin
  · intro path d room
    have room' := room
    rw [← written] at room'
    exact ⟨perform_written read origin room', Disk.read_of_write room, decodeUtf8_toList text⟩

/-- A disk with a program of an odd length, and with a file that is to be written over. -/
def oddDisk : Disk :=
  (Disk.empty.install "odd.ch8" (.file [0x00, 0xE0, 0x7F])).install "odd.txt" (.file [0x21])

/-- A program of three bytes, listed from an address below zero. -/
theorem listing_written_of_odd :
    let w : Surroundings := ⟨oddDisk, .ready Beeper.sampleRate 1, .cycle [], []⟩
    let rom := Path.ofString "odd.ch8"
    let path := Path.ofString "odd.txt"
    let text := "-002:  CLS\n0000:  .byte 0x7F  (odd trailing byte)\n"
    w.disk.read rom.text = .ok [0x00, 0xE0, 0x7F] ∧ ∃ log d,
      (ListArguments.mk rom none (.number (-2))).perform w = ⟨text, w.disk, log, none, none⟩ ∧
      w.disk.write path.text text.toUTF8.toList = .ok d ∧
      (ListArguments.mk rom (some path) (.number (-2))).perform w =
        ⟨"", d, log ++ [⟨.info, .commandLine, "Wrote 2 lines to odd.txt"⟩], none, none⟩ ∧
      d.read path.text = .ok text.toUTF8.toList := by
  intro w rom path text
  have file : w.disk.read rom.text = .ok [0x00, 0xE0, 0x7F] := by decide +kernel
  have lines : String.join ((listing (-2) [0x00, 0xE0, 0x7F]).map (· ++ "\n")) = text := by
    decide +kernel
  have room : w.disk.write path.text text.toUTF8.toList =
      .ok (w.disk.put ["work", "odd.txt"] (.file text.toUTF8.toList)) := by decide +kernel
  obtain ⟨log, -, -, -, -, shown, written⟩ := listing_written file (-2)
  have whole : List.take 3584 [0x00, 0xE0, 0x7F] = ([0x00, 0xE0, 0x7F] : List UInt8) := rfl
  simp only [List.cons_ne_nil, if_false, whole, lines] at shown written
  obtain ⟨written, read, -⟩ := written path _ room
  exact ⟨file, log, _, shown, room, written, read⟩

/-- Of a file without bytes one line is written, and the log tells of none. -/
theorem empty_listing_has_a_line :
    let d := Disk.empty.install "empty.ch8" (.file [])
    let w : Surroundings := ⟨d, .ready Beeper.sampleRate 1, .cycle [], []⟩
    let rom := Path.ofString "empty.ch8"
    let path := Path.ofString "out.txt"
    let shown := (ListArguments.mk rom none (.number 0x200)).perform w
    let written := (ListArguments.mk rom (some path) (.number 0x200)).perform w
    w.disk.read rom.text = .ok [] ∧ listing 0x200 [] = [] ∧
      shown.output = "\n" ∧ shown.output.toList.count '\n' ≠ (min 0 3584 + 1) / 2 ∧
      written.disk.read path.text = .ok "\n".toUTF8.toList ∧
      written.log.getLast? = some (wroteLine 0 path) ∧ written.failure = none := by
  decide +kernel

end CommandLine

end Chip8
