import RemoteCall.Text.Utf8

/-!
# Flaws of blobs

`Flaw` lists all that can be wrong with a blob, whether it is read or written, and `Flaw.message` is
its wording.
-/

namespace RemoteCall.Blob

/-- What is wrong with a blob. -/
inductive Flaw where
  /-- The input ends inside a number. -/
  | endOfNumber
  /-- The input ends inside a text. -/
  | endOfText
  /-- More bytes are announced than a blob may have. -/
  | tooLarge
  /-- A mark announces sixteen bytes where a number of at most eight is due. -/
  | wideNumber
  /-- The mark 255 stands for nothing. -/
  | reservedMark
  /-- A number does not fit its shape. -/
  | outOfRange (shape : String) (value : Int)
  /-- A truth value is neither 0 nor 1. -/
  | badBool (found : UInt8)
  /-- Bytes spell no character. -/
  | badChar
  /-- The tag of an option is neither 0 nor 1. -/
  | badTag (found : UInt8)
  /-- The bytes of a text are no UTF-8. -/
  | badText (flaw : Utf8.Flaw)
  /-- A choice among `count` has another number. -/
  | badChoice (found count : Nat)
  /-- Bytes are left over behind the value. -/
  | leftover
  deriving DecidableEq, Repr

/-- The wording of a flaw. -/
def Flaw.message : Flaw → String
  | endOfNumber => "io error: unexpected end of file"
  | endOfText => "io error: "
  | tooLarge => "the size limit has been reached"
  | wideNumber =>
    "Invalid value (u128 range): you may have a version or configuration disagreement?"
  | reservedMark =>
    "\nByte 255 is treated as an extension point; it should not be encoding anything.\nDo you have a mismatched bincode version or configuration?\n"
  | outOfRange shape value =>
    "Invalid " ++ shape ++ " " ++ toString value ++ ": you may have a version disagreement?"
  | badBool found =>
    "invalid u8 while decoding bool, expected 0 or 1, found " ++ toString found.toNat
  | badChar => "char is not valid"
  | badTag found => "tag for enum is not valid, found " ++ toString found.toNat
  | badText flaw => "string is not valid utf8: " ++ flaw.message
  | badChoice found count =>
    "invalid value: integer \x60" ++ toString found ++ "\x60, expected variant index 0 <= i < "
      ++ toString count
  | leftover => "Slice had bytes remaining after deserialization"

end RemoteCall.Blob
