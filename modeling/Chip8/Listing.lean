import Chip8.Assembly

/-!
# Listings

A listing has a line for every two bytes of a program, headed by the address of
the first, and one more for an odd byte at the end. Addresses count on from the
origin without wrapping, so any origin gives a listing.
-/

namespace Chip8

/-- The head of a line: the address and the gap behind it. -/
def Listing.head (address : Int) : String := Text.Hex.text 4 address ++ ":  "

/-- The lines of a program whose first byte stands at `address`. -/
def listing (address : Int) : List UInt8 → List String
  | [] => []
  | [b] =>
    [Listing.head address ++ ".byte 0x" ++ Text.Hex.text 2 b.toNat ++ "  (odd trailing byte)"]
  | high :: low :: rest =>
    (Listing.head address ++ wordText (Word.ofBytes high low).value) ::
      listing (address + Instruction.size) rest

/-- The text of a listing: every line ended, and one empty line if there is none. -/
def Listing.text (lines : List String) : String := String.intercalate "\n" lines ++ "\n"

theorem length_listing (address : Int) (program : List UInt8) :
    (listing address program).length = (program.length + 1) / 2 := by
  induction address, program using listing.induct with
  | case1 => rfl
  | case2 => simp [listing]
  | case3 address high low rest ih =>
    simp only [listing, List.length_cons, ih]
    omega

end Chip8
