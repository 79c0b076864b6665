import RepoAudit.Text.Basic
import RepoAudit.Text.Quoted

/-!
# References to repositories

A repository is named as `owner/name`, alone or at the end of a web or clone address. White space around
it, a slash after it and the ending `.git` do not count.
-/

namespace RepoAudit

/-- A repository on the host. -/
structure Reference where
  owner : String
  name : String
  deriving DecidableEq, Repr

namespace Reference

/-- A text that names no repository. -/
structure Invalid where
  text : String
  deriving DecidableEq, Repr

/-- The text of the failure. -/
def Invalid.message (e : Invalid) : String := "Not a GitHub repository reference: " ++ Text.quoted e.text

/-- True of the characters of owners and names. -/
def isNameChar (c : Char) : Bool := c.isAlphanum || c == '_' || c == '.' || c == '-'

/-- What may stand before the owner. -/
def addresses : List (List Char) :=
  ["https://www.github.com/", "https://github.com/", "http://www.github.com/", "http://github.com/",
    "git@github.com:"].map String.toList

/-- The text after an address, or all of it. -/
def afterAddress (s : List Char) : List Char :=
  match addresses.find? (·.isPrefixOf s) with
  | some address => s.drop address.length
  | none => s

/-- The text without one slash at its end. -/
def dropSlash (s : List Char) : List Char :=
  if s.getLast? == some '/' then s.dropLast else s

/-- The ending of the addresses of clones. -/
def cloneEnding : List Char := ".git".toList

/-- The name without the ending of clones, unless nothing else is left. -/
def dropCloneEnding (s : List Char) : List Char :=
  if cloneEnding.isSuffixOf s && cloneEnding.length < s.length then
    s.take (s.length - cloneEnding.length)
  else s

/-- Reads a reference. -/
def read (text : String) : Except Invalid Reference :=
  let body := afterAddress (Text.stripChars text.toList)
  let owner := body.takeWhile isNameChar
  match body.dropWhile isNameChar with
  | '/' :: rest =>
    let named := dropSlash rest
    if owner.isEmpty || named.isEmpty || !named.all isNameChar then .error ⟨text⟩
    else .ok ⟨String.ofList owner, String.ofList (dropCloneEnding named)⟩
  | _ => .error ⟨text⟩

end Reference

end RepoAudit
