import RepoAudit.Text.Quoted

/-!
# UTF-8

Octets as text. Octets that encode no character form defects: a defect is a lead octet with the
continuation octets after it that fit, and it ends where the first octet does not fit. Characters beyond
the last one, surrogates and longer forms than needed are defects, because each lead octet tells which
second octets may follow it.
-/

namespace RepoAudit.Utf8

/-- What is wrong with some octets. -/
inductive DefectKind where
  /-- The octet begins no character. -/
  | invalidStart
  /-- A continuation octet is missing. -/
  | invalidContinuation
  /-- The octets end inside a character. -/
  | unexpectedEnd
  deriving DecidableEq, Repr

/-- The wording of a defect. -/
def DefectKind.text : DefectKind → String
  | invalidStart => "invalid start byte"
  | invalidContinuation => "invalid continuation byte"
  | unexpectedEnd => "unexpected end of data"

/-- A character, or octets that encode none. -/
inductive Piece where
  | char (c : Char)
  | defect (kind : DefectKind) (length : Nat)
  deriving DecidableEq, Repr

/-- The number of octets of a piece. -/
def Piece.length : Piece → Nat
  | .char c => c.utf8Size
  | .defect _ length => length

/-- What a lead octet announces: its own bits, the number of continuation octets, and the range of the
first of them. -/
structure Lead where
  bits : Nat
  count : Nat
  low : UInt8 := 0x80
  high : UInt8 := 0xBF

/-- The lead of an octet, if it begins a character. -/
def lead? (b : UInt8) : Option Lead :=
  let n := b.toNat
  if n < 0x80 then some { bits := n, count := 0 }
  else if n < 0xC2 then none
  else if n < 0xE0 then some { bits := n - 0xC0, count := 1 }
  else if n = 0xE0 then some { bits := 0, count := 2, low := 0xA0 }
  else if n = 0xED then some { bits := 0xD, count := 2, high := 0x9F }
  else if n < 0xF0 then some { bits := n - 0xE0, count := 2 }
  else if n = 0xF0 then some { bits := 0, count := 3, low := 0x90 }
  else if n < 0xF4 then some { bits := n - 0xF0, count := 3 }
  else if n = 0xF4 then some { bits := 4, count := 3, high := 0x8F }
  else none

/-- The continuation octets that come next: at most `count`, the first in the given range. -/
def continuations (low high : UInt8) : Nat → List UInt8 → List UInt8
  | 0, _ => []
  | _, [] => []
  | count + 1, b :: rest =>
    if low ≤ b && b ≤ high then b :: continuations 0x80 0xBF count rest else []

/-- The scalar value of a lead's bits and continuation octets. -/
def scalarValue (bits : Nat) (tail : List UInt8) : Nat :=
  tail.foldl (fun n b => n * 64 + (b.toNat - 0x80)) bits

/-- The piece that begins with an octet. -/
def front (b : UInt8) (rest : List UInt8) : Piece :=
  match lead? b with
  | none => .defect .invalidStart 1
  | some lead =>
    let tail := continuations lead.low lead.high lead.count rest
    if tail.length = lead.count then .char (Char.ofNat (scalarValue lead.bits tail))
    else if tail.length = rest.length then .defect .unexpectedEnd (tail.length + 1)
    else .defect .invalidContinuation (tail.length + 1)

/-- The pieces of the octets after the first `skip`. -/
def piecesFrom : Nat → List UInt8 → List Piece
  | _, [] => []
  | skip + 1, _ :: rest => piecesFrom skip rest
  | 0, b :: rest =>
    let piece := front b rest
    piece :: piecesFrom (piece.length - 1) rest

/-- The pieces of octets. -/
def pieces (octets : List UInt8) : List Piece := piecesFrom 0 octets

/-- A defect and the place where it begins. -/
structure Undecodable where
  kind : DefectKind
  start : Nat
  length : Nat
  first : UInt8
  deriving DecidableEq, Repr

/-- The text of the failure. -/
def Undecodable.message (e : Undecodable) : String :=
  "'utf-8' codec can't decode " ++
    (if e.length = 1 then "byte 0x" ++ String.ofList (Text.hexDigits 2 e.first.toNat) ++ " in position " ++ toString e.start
    else "bytes in position " ++ toString e.start ++ "-" ++ toString (e.start + e.length - 1)) ++
    ": " ++ e.kind.text

/-- The characters of the pieces that begin at a place, or the first defect. -/
def charsOf (octets : List UInt8) : Nat → List Piece → Except Undecodable (List Char)
  | _, [] => .ok []
  | start, .char c :: rest => (charsOf octets (start + c.utf8Size) rest).map (c :: ·)
  | start, .defect kind length :: _ => .error ⟨kind, start, length, octets.getD start 0⟩

/-- The text of octets, which may have no defect. -/
def decode (octets : List UInt8) : Except Undecodable (List Char) := charsOf octets 0 (pieces octets)

/-- The text of octets with each defect replaced. -/
def decodeWith (replacement : List Char) (octets : List UInt8) : List Char :=
  (pieces octets).flatMap fun
    | .char c => [c]
    | .defect _ _ => replacement

/-- The character that stands for what cannot be decoded. -/
def replacementChar : Char := Char.ofNat 0xFFFD

/-- The text of octets with the replacement character for each defect. -/
def decodeReplacing (octets : List UInt8) : List Char := decodeWith [replacementChar] octets

/-- The text of octets without the defects. -/
def decodeSkipping (octets : List UInt8) : List Char := decodeWith [] octets

/-- The octets of a text. -/
def encode (text : List Char) : List UInt8 := text.flatMap String.utf8EncodeChar

/-- The octets of a text, as they are held in memory. -/
def encodeText (text : String) : List UInt8 := text.toByteArray.data.toList

/-- The octets of a text are those of its characters. -/
theorem encodeText_eq (text : String) : encodeText text = encode text.toList := by
  unfold encodeText encode
  conv => lhs; rw [← String.utf8Encode_toList (b := text)]
  simp [List.utf8Encode]

end RepoAudit.Utf8
