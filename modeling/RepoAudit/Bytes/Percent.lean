import RepoAudit.Bytes.Utf8
import RepoAudit.Text.Digit

/-!
# Percent encoding

A segment of an address is written octet by octet: letters, digits and a few marks stand for themselves,
and every other octet is a percent sign with two hexadecimal digits.
-/

namespace RepoAudit.Percent

/-- True of the octets that stand for themselves everywhere. -/
def isUnreserved (b : UInt8) : Bool :=
  let n := b.toNat
  (97 ≤ n && n ≤ 122) || (65 ≤ n && n ≤ 90) || (48 ≤ n && n ≤ 57) || n == 45 || n == 46 || n == 95 ||
    n == 126

/-- A hexadecimal digit in upper case. -/
def hexDigit (n : Nat) : Char := if n < 10 then Char.ofNat (n + 48) else Char.ofNat (n + 55)

/-- An octet as a percent sign and two digits. -/
def escape (b : UInt8) : List Char := ['%', hexDigit (b.toNat / 16), hexDigit (b.toNat % 16)]

/-- The written form of octets; the octets of `safe` stand for themselves too. -/
def encodeOctets (safe : List UInt8) (octets : List UInt8) : List Char :=
  octets.flatMap fun b => if isUnreserved b || safe.contains b then [Char.ofNat b.toNat] else escape b

/-- The written form of a text as one segment. -/
def segment (text : String) : String := String.ofList (encodeOctets [] (Utf8.encodeText text))

/-- The written form of a path, whose slashes stay. -/
def path (text : List Char) : String := String.ofList (encodeOctets [47] (Utf8.encode text))

/-- The octets that a written form stands for; a percent sign without two digits stands for itself. -/
def decodeOctets : List Char → List UInt8
  | [] => []
  | '%' :: a :: b :: rest =>
    match Text.hexValue? a, Text.hexValue? b with
    | some high, some low => UInt8.ofNat (high * 16 + low) :: decodeOctets rest
    | _, _ => 37 :: decodeOctets (a :: b :: rest)
  | c :: rest => String.utf8EncodeChar c ++ decodeOctets rest

/-- The text that a written form stands for. -/
def decode (text : List Char) : List Char := Utf8.decodeReplacing (decodeOctets text)

end RepoAudit.Percent
