import Chip8.Listing
import Chip8.Proofs.Mnemonics

/-!
# What a listing tells about its program

The lines of a listing are taken apart at the colon behind the address. A line of an
odd byte is never one of a word, so a listing tells its origin, the length of its
program and every byte, up to the operand that the shifts do not name.
-/

namespace Chip8

/-- The word at a position of a program, high byte first. -/
def wordAt (program : List UInt8) (i : Nat) : Word :=
  Word.ofBytes (program.getD i 0) (program.getD (i + 1) 0)

/-- What a line shows behind the address of an odd byte. -/
def Listing.oddText (b : UInt8) : String :=
  ".byte 0x" ++ Text.Hex.text 2 b.toNat ++ "  (odd trailing byte)"

/-- The lines of a listing, one by one. -/
theorem getElem?_listing (origin : Int) (program : List UInt8) (i : Nat) :
    (listing origin program)[i]? =
      if 2 * i + 1 < program.length then
        some (Listing.head (origin + 2 * i) ++ wordText (wordAt program (2 * i)).value)
      else if 2 * i < program.length then
        some (Listing.head (origin + 2 * i) ++ Listing.oddText (program.getD (2 * i) 0))
      else none := by
  induction origin, program using listing.induct generalizing i with
  | case1 origin => simp [listing]
  | case2 origin b =>
      cases i with
      | zero => simp [listing, Listing.oddText, String.append_assoc]
      | succ i => simp [listing]
  | case3 origin high low rest ih =>
      cases i with
      | zero => simp [listing, wordAt]
      | succ i =>
          have address : origin + Instruction.size + 2 * i = origin + 2 * (i + 1 : Nat) := by
            simp only [Instruction.size]
            omega
          have word : wordAt (high :: low :: rest) (2 * (i + 1)) = wordAt rest (2 * i) := rfl
          have byte : (high :: low :: rest).getD (2 * (i + 1)) 0 = rest.getD (2 * i) 0 := rfl
          rw [listing, List.getElem?_cons_succ, ih, address, word, byte]
          simp only [List.length_cons, show 2 * (i + 1) + 1 < rest.length + 1 + 1 ↔
            2 * i + 1 < rest.length by omega, show 2 * (i + 1) < rest.length + 1 + 1 ↔
            2 * i < rest.length by omega]

/-- A line tells its address and what it shows. -/
theorem Listing.head_append_inj {a b : Int} {s t : String} :
    Listing.head a ++ s = Listing.head b ++ t ↔ a = b ∧ s = t := by
  constructor
  · intro same
    have colon (i : Int) : ':' ∉ Text.Hex.chars 4 i :=
      Text.Hex.not_mem_chars (by decide) (by decide) 4 i
    have lists := congrArg String.toList same
    simp only [Listing.head, String.toList_append, Text.Hex.toList_text, List.append_assoc]
      at lists
    obtain ⟨address, rest⟩ := append_cons_inj_of_notMem (colon a) (colon b) lists
    refine ⟨Text.Hex.chars_injective 4 address, ?_⟩
    simpa [← String.toList_inj] using rest
  · rintro ⟨rfl, rfl⟩
    rfl

theorem Listing.oddText_injective {b c : UInt8} (same : oddText b = oddText c) : b = c := by
  have digits : Text.Hex.chars 2 b.toNat = Text.Hex.chars 2 c.toNat := by
    simpa [oddText, ← String.toList_inj, Text.Hex.toList_text] using same
  exact UInt8.toNat_inj.1 (Int.ofNat.inj (Text.Hex.chars_injective 2 digits))

/-- An odd byte is not written like any word. -/
theorem Listing.oddText_ne_wordText (b : UInt8) (w : Word) : oddText b ≠ wordText w.value := by
  intro same
  have dot : '.' ∈ (wordText w.value).toList := by
    rw [← same]
    simp [oddText]
  rw [wordText_of_none ((dot_mem_wordText_iff w).1 dot)] at same
  simp [oddText, ← String.toList_inj] at same

section Equality
variable {o o' : Int} {p q : List UInt8}

theorem getElem?_listing_word {i : Nat} (h : 2 * i + 1 < p.length) :
    (listing o p)[i]? =
      some (Listing.head (o + 2 * i) ++ wordText (wordAt p (2 * i)).value) := by
  rw [getElem?_listing, if_pos h]

theorem getElem?_listing_odd {i : Nat} (h : p.length = 2 * i + 1) :
    (listing o p)[i]? =
      some (Listing.head (o + 2 * i) ++ Listing.oddText (p.getD (2 * i) 0)) := by
  rw [getElem?_listing, if_neg (by omega), if_pos (by omega)]

theorem getElem?_listing_none {i : Nat} (h : p.length ≤ 2 * i) : (listing o p)[i]? = none := by
  rw [getElem?_listing, if_neg (by omega), if_neg (by omega)]

/-- The last line tells a program of odd length from one that is a byte longer. -/
theorem listing_ne_of_longer {i : Nat} (hp : p.length = 2 * i + 1) (hq : 2 * i + 1 < q.length) :
    listing o p ≠ listing o' q := by
  intro same
  have line := congrArg (fun lines => lines[i]?) same
  simp only [getElem?_listing_odd hp, getElem?_listing_word hq, Option.some.injEq,
    Listing.head_append_inj] at line
  exact Listing.oddText_ne_wordText _ _ line.2

theorem length_eq_of_listing (same : listing o p = listing o' q) : p.length = q.length := by
  have lines := congrArg List.length same
  rw [length_listing, length_listing] at lines
  by_contra differ
  rcases Nat.lt_or_gt_of_ne differ with shorter | longer
  · exact listing_ne_of_longer (i := p.length / 2) (by omega) (by omega) same
  · exact listing_ne_of_longer (i := q.length / 2) (by omega) (by omega) same.symm

/-- Every line starts with its address. -/
theorem exists_getElem?_listing {i : Nat} (h : 2 * i < p.length) :
    ∃ text, (listing o p)[i]? = some (Listing.head (o + 2 * i) ++ text) := by
  by_cases word : 2 * i + 1 < p.length
  · exact ⟨_, getElem?_listing_word word⟩
  · exact ⟨_, getElem?_listing_odd (by omega)⟩

theorem origin_eq_of_listing (nonempty : p ≠ []) (same : listing o p = listing o' q) : o = o' := by
  have positive := List.length_pos_of_ne_nil nonempty
  have length := length_eq_of_listing same
  obtain ⟨s, first⟩ := exists_getElem?_listing (o := o) (p := p) (i := 0) (by omega)
  obtain ⟨t, first'⟩ := exists_getElem?_listing (o := o') (p := q) (i := 0) (by omega)
  rw [same, first'] at first
  have address := (Listing.head_append_inj.1 (Option.some.inj first)).1
  omega

theorem getLast?_of_odd {i : Nat} (h : p.length = 2 * i + 1) :
    p.getLast? = some (p.getD (2 * i) 0) := by
  rw [List.getLast?_eq_getElem?, h, Nat.add_sub_cancel, List.getD_eq_getElem?_getD,
    List.getElem?_eq_getElem (by omega), Option.getD_some]

end Equality

/-- Every program has a listing, with a line for every two bytes. Two listings are the
same exactly if they show programs of one length from one origin and the same bytes,
apart from the operand that shifts ignore. -/
theorem listing_eq_iff (o o' : Int) (p q : List UInt8) :
    (listing o p).length = (p.length + 1) / 2 ∧
    (p ≠ [] → q ≠ [] →
      (listing o p = listing o' q ↔
        o = o' ∧ p.length = q.length ∧
        (p.length % 2 = 1 → p.getLast? = q.getLast?) ∧
        ∀ i, i % 2 = 0 → i + 1 < p.length →
          wordAt p i = wordAt q i ∨ (wordAt p i).SameShift (wordAt q i))) := by
  refine ⟨length_listing o p, fun nonempty _ => ⟨?_, ?_⟩⟩
  · intro same
    have length := length_eq_of_listing same
    refine ⟨origin_eq_of_listing nonempty same, length, ?_, ?_⟩
    · intro odd
      have half : p.length = 2 * (p.length / 2) + 1 := by omega
      have half' : q.length = 2 * (p.length / 2) + 1 := by omega
      have line := getElem?_listing_odd (o := o) half
      rw [same, getElem?_listing_odd half'] at line
      have byte := Listing.oddText_injective (Listing.head_append_inj.1 (Option.some.inj line)).2
      rw [getLast?_of_odd half, getLast?_of_odd half', byte]
    · intro i even inside
      obtain ⟨i, rfl⟩ := Nat.dvd_of_mod_eq_zero even
      have line := getElem?_listing_word (o := o) inside
      rw [same, getElem?_listing_word (by omega)] at line
      have text := (Listing.head_append_inj.1 (Option.some.inj line)).2
      exact (wordText_eq_iff _ _).1 text.symm
  · rintro ⟨rfl, length, odd, words⟩
    apply List.ext_getElem?
    intro i
    rcases Nat.lt_trichotomy (2 * i + 1) p.length with word | last | beyond
    · rw [getElem?_listing_word word, getElem?_listing_word (by omega),
        (wordText_eq_iff _ _).2 (words (2 * i) (by omega) word)]
    · have bytes := odd (by omega)
      rw [getLast?_of_odd last.symm, getLast?_of_odd (by omega : q.length = 2 * i + 1)] at bytes
      rw [getElem?_listing_odd last.symm, getElem?_listing_odd (by omega), Option.some.inj bytes]
    · rw [getElem?_listing_none (by omega), getElem?_listing_none (by omega)]

/-- Two shifts of one register that ignore different operands, a common word and an odd
byte, from a negative address on. -/
theorem listing_eq_of_shifts :
    let p : List UInt8 := [0x81, 0x26, 0x00, 0xE0, 0x7F]
    let q : List UInt8 := [0x81, 0xF6, 0x00, 0xE0, 0x7F]
    p ≠ [] ∧ q ≠ [] ∧ (listing (-2) p).length = 3 ∧ listing (-2) p = listing (-2) q ∧
      listing (-2) p ≠ listing 0 q := by
  intro p q
  have shifts : (wordAt p 0).SameShift (wordAt q 0) :=
    ⟨.shiftRight, .inl rfl, (Opcode.lookup_eq_some_iff _ _).1 (by decide +kernel),
      (Opcode.lookup_eq_some_iff _ _).1 (by decide +kernel), by decide⟩
  have nonempty : p ≠ [] ∧ q ≠ [] := by decide
  obtain ⟨lines, equal⟩ := listing_eq_iff (-2) (-2) p q
  obtain ⟨-, apart⟩ := listing_eq_iff (-2) 0 p q
  refine ⟨nonempty.1, nonempty.2, lines.trans (by decide), ?_, ?_⟩
  · refine (equal nonempty.1 nonempty.2).2 ⟨rfl, rfl, fun _ => rfl, ?_⟩
    intro i even inside
    have inside : i + 1 < 5 := inside
    obtain rfl | rfl : i = 0 ∨ i = 2 := by omega
    · exact .inr shifts
    · exact .inl rfl
  · intro same
    exact absurd ((apart nonempty.1 nonempty.2).1 same).1 (by decide)

end Chip8
