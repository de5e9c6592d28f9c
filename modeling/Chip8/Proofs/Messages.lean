import Chip8.CommandLine.Report
import Chip8.Proofs.Numerals
import Mathlib.Data.List.Basic

/-!
# Messages of one line

Numbers, quoted texts and values of settings files are written without any character that ends a
line, whatever stands in them: such characters are escaped. So messages are made of one line, apart
from what they repeat as it was given.
-/

namespace Chip8

open Text

/-- No character of a string ends a line. -/
def Unbroken (cs : List Char) : Prop := ∀ c ∈ cs, c.toNat ∉ lineEnds

instance (cs : List Char) : Decidable (Unbroken cs) :=
  List.decidableBAll _ cs

theorem Unbroken.append {cs ds : List Char} (h : Unbroken cs) (h' : Unbroken ds) :
    Unbroken (cs ++ ds) := fun c mem => (List.mem_append.1 mem).elim (h c) (h' c)

theorem Unbroken.mono {cs ds : List Char} (h : Unbroken ds) (sub : ∀ c ∈ cs, c ∈ ds) :
    Unbroken cs := fun c mem => h c (sub c mem)

theorem unbroken_replicate (n : Nat) {c : Char} (h : c.toNat ∉ lineEnds) :
    Unbroken (List.replicate n c) := fun _ mem => List.eq_of_mem_replicate mem ▸ h

section Numerals

theorem unbroken_toDigits {b : Nat} (base : 2 ≤ b) (small : b ≤ 16) (n : Nat) :
    Unbroken (Nat.toDigits b n) := by
  intro c mem
  obtain ⟨d, below, rfl⟩ := Hex.exists_digitChar_of_mem_toDigits base mem
  have digits : ∀ d < 16, d.digitChar.toNat ∉ lineEnds := by decide
  exact digits d (by omega)

theorem unbroken_toString_nat (n : Nat) : Unbroken (toString n).toList := by
  rw [Nat.toString_eq_ofList_toDigits, String.toList_ofList]
  exact unbroken_toDigits (by omega) (by omega) n

theorem unbroken_toString_int (i : Int) : Unbroken (toString i).toList := by
  cases i with
  | ofNat n => exact unbroken_toString_nat n
  | negSucc n =>
      have sign : toString (Int.negSucc n) = "-" ++ toString (n + 1) := rfl
      rw [sign, String.toList_append]
      exact Unbroken.append (by decide) (unbroken_toString_nat (n + 1))

theorem unbroken_leftpad {cs : List Char} (width : Nat) (h : Unbroken cs) :
    Unbroken (cs.leftpad width '0') := (unbroken_replicate _ (by decide)).append h

end Numerals

section Decimals
open Decimal

theorem unbroken_exponentText (e : Int) : Unbroken (exponentText e).toList := by
  have places := unbroken_leftpad 2 (unbroken_toDigits (b := 10) (by omega) (by omega) e.natAbs)
  rw [exponentText, String.toList_append, String.toList_ofList]
  split
  · exact Unbroken.append (by decide) places
  · exact Unbroken.append (by decide) places

theorem unbroken_layout (digits : Nat) (t : Int) : Unbroken (layout digits t).toList := by
  have all := unbroken_toDigits (b := 10) (by omega) (by omega) digits
  have point : Unbroken ['.'] := by decide
  have front (k : Nat) : Unbroken ((Nat.toDigits 10 digits).take k) :=
    all.mono fun _ => List.mem_of_mem_take
  have tail (k : Nat) : Unbroken ((Nat.toDigits 10 digits).drop k) :=
    all.mono fun _ => List.mem_of_mem_drop
  have zeros (k : Nat) : Unbroken (List.replicate k '0') := unbroken_replicate k (by decide)
  unfold layout
  simp only
  split
  · rw [String.toList_append, String.toList_append, String.toList_ofList]
    refine (((front 1).append ?_).append (by decide)).append (unbroken_exponentText _)
    split
    · intro c mem
      cases mem
    · rw [← List.drop_one]
      exact point.append (tail 1)
  · split
    · rw [String.toList_ofList]
      exact ((by decide : Unbroken ['0', '.']).append (zeros _)).append all
    · split
      · rw [String.toList_ofList]
        exact (all.append (zeros _)).append (by decide)
      · rw [String.toList_ofList]
        exact (front _).append (point.append (tail _))

theorem unbroken_floatText (f : Float) : Unbroken (floatText f).toList := by
  have sign (negative : Bool) : Unbroken (if negative then "-" else "").toList := by
    cases negative <;> decide
  unfold floatText
  simp only
  split
  · decide
  · rw [String.toList_append]
    exact (sign _).append (by decide)
  · split
    · rw [String.toList_append]
      exact (sign _).append (by decide)
    · rw [String.toList_append]
      exact (sign _).append (unbroken_layout _ _)

end Decimals

section Quoted
open Text.Quoted

theorem unbroken_escape (p : Nat) : Unbroken (escape p) := by
  have digits (width : Nat) : Unbroken (lowerHex width p) :=
    unbroken_leftpad width (unbroken_toDigits (by omega) (by omega) p)
  unfold escape
  split
  · exact (by decide : Unbroken ['\\', 'x']).append (digits 2)
  · split
    · exact (by decide : Unbroken ['\\', 'u']).append (digits 4)
    · exact (by decide : Unbroken ['\\', 'U']).append (digits 8)

theorem isUnprintable_of_mem_lineEnds {p : Nat} (h : p ∈ lineEnds) :
    Unprintable.isUnprintable p = true := by
  have all : ∀ p ∈ lineEnds, Unprintable.isUnprintable p = true := by decide +kernel
  exact all p h

theorem unbroken_point {quote : Char} (h : quote.toNat ∉ lineEnds) (p : CodePoint) :
    Unbroken (point quote p) := by
  unfold point
  split
  · exact unbroken_escape _
  next c _ =>
    split
    next quoted =>
      have inside : c.toNat ∉ lineEnds := by
        rcases quoted with rfl | rfl
        · exact h
        · decide
      intro d mem
      rcases List.mem_pair.1 mem with rfl | rfl
      · decide
      · exact inside
    split
    · decide
    split
    · decide
    split
    · decide
    split
    · exact unbroken_escape _
    -- What is written as it is leaves a mark, and no line end does.
    next printable =>
      intro d mem lineEnd
      rw [List.mem_singleton.1 mem] at lineEnd
      exact printable (isUnprintable_of_mem_lineEnds lineEnd)

theorem unbroken_ofPoints (t : PointText) : Unbroken (ofPoints t).toList := by
  have quote : (quoteFor t).toNat ∉ lineEnds := by
    unfold quoteFor
    split <;> decide
  have ends : Unbroken [quoteFor t] := fun c mem => List.mem_singleton.1 mem ▸ quote
  rw [ofPoints, String.toList_ofList]
  refine (ends.append fun c mem => ?_).append ends
  obtain ⟨p, -, inside⟩ := List.mem_flatMap.1 mem
  exact unbroken_point quote p c inside

theorem unbroken_ofString (s : String) : Unbroken (Quoted.ofString s).toList :=
  unbroken_ofPoints _

end Quoted

section Values

theorem unbroken_intercalate {separator : String} (h : Unbroken separator.toList)
    {texts : List String} (all : ∀ text ∈ texts, Unbroken text.toList) :
    Unbroken (String.intercalate separator texts).toList := by
  induction texts with
  | nil => exact fun _ mem => nomatch mem
  | cons first rest ih =>
      obtain ⟨here, later⟩ := List.forall_mem_cons.1 all
      cases rest with
      | nil => simpa using here
      | cons second rest =>
          rw [String.intercalate_cons_cons, String.toList_append, String.toList_append]
          exact (here.append h).append (ih later)

theorem unbroken_comma : Unbroken ", ".toList := by
  decide

mutual

/-- A value is displayed in one line. -/
theorem unbroken_display : (d : Data) → Unbroken d.display.toList
  | .null => by decide
  | .bool true => by decide
  | .bool false => by decide
  | .int i => unbroken_toString_int i
  | .float f => unbroken_floatText f
  | .text t => unbroken_ofPoints t
  | .list items => by
      rw [Data.display, String.toList_append, String.toList_append]
      have inside := unbroken_intercalate unbroken_comma (unbroken_displayAll items)
      exact (Unbroken.append (by decide) inside).append (by decide)
  | .record fields => by
      rw [Data.display, String.toList_append, String.toList_append]
      have inside := unbroken_intercalate unbroken_comma (unbroken_displayFields fields)
      exact (Unbroken.append (by decide) inside).append (by decide)

theorem unbroken_displayAll : (items : List Data) →
    ∀ text ∈ Data.displayAll items, Unbroken text.toList
  | [] => fun _ mem => nomatch mem
  | d :: ds => by
      intro text mem
      rcases List.mem_cons.1 mem with rfl | mem
      · exact unbroken_display d
      · exact unbroken_displayAll ds text mem

theorem unbroken_displayFields : (fields : List (PointText × Data)) →
    ∀ text ∈ Data.displayFields fields, Unbroken text.toList
  | [] => fun _ mem => nomatch mem
  | field :: rest => by
      intro text mem
      rcases List.mem_cons.1 mem with rfl | mem
      · exact unbroken_displayField field
      · exact unbroken_displayFields rest text mem

theorem unbroken_displayField : (field : PointText × Data) →
    Unbroken (Data.displayField field).toList
  | (name, value) => by
      rw [Data.displayField, String.toList_append, String.toList_append]
      exact ((unbroken_ofPoints name).append (by decide)).append (unbroken_display value)

end

end Values

section Messages

theorem Settings.Error.unbroken_message (e : Settings.Error) : Unbroken e.message.toList := by
  have name (f : Field) : Unbroken f.name.toList := by cases f <;> decide +kernel
  have kind (f : Field) (d : Data) {text : String} (h : Unbroken text.toList) :
      Unbroken (f.name ++ text ++ d.display).toList := by
    rw [String.toList_append, String.toList_append]
    exact ((name f).append h).append (unbroken_display d)
  unfold message
  split
  next f got => exact kind f got (by decide +kernel)
  next f got => exact kind f got (by decide +kernel)
  next f got => exact kind f got (by decide +kernel)
  next f got => exact kind f got (by decide +kernel)
  next scale =>
    rw [String.toList_append]
    exact Unbroken.append (by decide +kernel) (unbroken_toString_int scale)
  next => decide +kernel
  next volume =>
    rw [String.toList_append]
    exact Unbroken.append (by decide +kernel) (unbroken_display _)

theorem Disk.Error.unbroken_message (e : Disk.Error) : Unbroken e.message.toList := by
  have cause (c : Disk.Cause) : Unbroken c.text.toList := by cases c <;> decide +kernel
  unfold message
  split
  · exact cause _
  · rw [String.toList_append, String.toList_append]
    exact ((cause _).append (by decide +kernel)).append (unbroken_ofString _)

theorem oneLine_ofString {s : String} (h : Unbroken s.toList) : OneLine (PointText.ofString s) := by
  intro p mem
  obtain ⟨c, inside, rfl⟩ := List.mem_map.1 mem
  simpa [CodePoint.ofChar] using h c inside

theorem PointText.ofString_append (s t : String) :
    PointText.ofString (s ++ t) = PointText.ofString s ++ PointText.ofString t := by
  simp [PointText.ofString]

end Messages

section Lines

/-- A text without line ends and a line end behind it are one line, and the next one starts. -/
theorem linesFrom_ended {line t : PointText} (h : OneLine t) (rest : PointText) :
    linesFrom line (CommandLine.ended t ++ rest) = (line.reverse ++ t) :: linesFrom [] rest := by
  have lineEnd : CommandLine.ended t ++ rest = t ++ CodePoint.ofChar '\n' :: rest := by
    rw [CommandLine.ended, List.append_assoc]
    rfl
  rw [lineEnd]
  clear lineEnd
  induction t generalizing line with
  | nil =>
      cases rest with
      | nil => simp [linesFrom, CodePoint.ofChar, lineEnds, lineFeed]
      | cons q more => simp [linesFrom, CodePoint.ofChar, lineEnds, lineFeed, carriageReturn]
  | cons p later ih =>
      obtain ⟨here, behind⟩ := List.forall_mem_cons.1 h
      have other : p.value ≠ carriageReturn := by
        intro same
        rw [same] at here
        cases here
      obtain ⟨q, more, split⟩ : ∃ q more, later ++ CodePoint.ofChar '\n' :: rest = q :: more := by
        cases later <;> exact ⟨_, _, rfl⟩
      have next : linesFrom (p :: line) (later ++ CodePoint.ofChar '\n' :: rest) =
          ((p :: line).reverse ++ later) :: linesFrom [] rest := ih behind
      rw [split] at next
      rw [List.cons_append, split, linesFrom, if_neg (fun both => other both.1),
        if_neg (Bool.eq_false_iff.1 here), next]
      simp

/-- Texts without line ends, with a line end behind each of them, are as many lines. -/
theorem lines_flatMap_ended {ts : List PointText} (h : ∀ t ∈ ts, OneLine t) :
    lines (ts.flatMap CommandLine.ended) = ts := by
  induction ts with
  | nil => rfl
  | cons t rest ih =>
      obtain ⟨here, later⟩ := List.forall_mem_cons.1 h
      rw [List.flatMap_cons, lines, linesFrom_ended here]
      exact congrArg (t :: ·) (ih later)

/-- A text without line ends and a line end behind it are one line. -/
theorem lines_ended {t : PointText} (h : OneLine t) : lines (CommandLine.ended t) = [t] := by
  simpa using lines_flatMap_ended (List.forall_mem_singleton.2 h)

end Lines

end Chip8
