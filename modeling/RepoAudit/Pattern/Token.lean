import RepoAudit.Pattern.Problem

/-!
# Tokens of written patterns

A written pattern is a sequence of characters, where a backslash and the character after it count as
one token.
-/

namespace RepoAudit.Pattern

/-- A character, or a backslash with the character after it. -/
structure Token where
  char : Char
  escaped : Bool
  position : Nat
  deriving DecidableEq, Repr

/-- The text of a token. -/
def Token.text (token : Token) : List Char := if token.escaped then ['\\', token.char] else [token.char]

/-- True of a character that stands for itself. -/
def Token.isPlain (c : Char) (token : Token) : Bool := !token.escaped && token.char == c

/-- The tokens of a text from a position on, and whether a backslash is left over at the end. -/
def tokens (position : Nat) : List Char → List Token × Bool
  | [] => ([], false)
  | ['\\'] => ([], true)
  | '\\' :: c :: rest =>
    let (more, dangling) := tokens (position + 2) rest
    (⟨c, true, position⟩ :: more, dangling)
  | c :: rest =>
    let (more, dangling) := tokens (position + 1) rest
    (⟨c, false, position⟩ :: more, dangling)

end RepoAudit.Pattern
