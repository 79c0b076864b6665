import RepoAudit.Number.Reading
import RepoAudit.Text.Digit
import RepoAudit.Text.Quoted

/-!
# Arguments of programs

A usage says which options a program has and what stands between them. An option may be shortened as long as
it is clear which one is meant, its argument may follow an equals sign, and short options without arguments
may share a dash. After two dashes nothing is an option.
-/

namespace RepoAudit.CommandLine

/-- What an option takes, or does. -/
inductive OptionKind where
  /-- The option asks for help, and nothing else counts. -/
  | help
  | flag
  | text
  | integer
  deriving DecidableEq, Repr

/-- An option: its names, the short one first. -/
structure OptionSpec where
  names : List String
  kind : OptionKind
  deriving DecidableEq, Repr

/-- What stands between the options. -/
inductive Operand where
  | nothing
  | single (name : String)
  /-- A command, and everything after it. -/
  | command (name : String) (choices : List String)
  deriving DecidableEq, Repr

/-- What a program takes. -/
structure Usage where
  program : String
  options : List OptionSpec
  operand : Operand := .nothing
  deriving DecidableEq, Repr

/-- What is given for an option. -/
inductive Given where
  | flag
  | text (value : String)
  | integer (value : Int)
  deriving DecidableEq, Repr

namespace OptionSpec

/-- The name that an option is known by. -/
def key (option : OptionSpec) : String := option.names.getLast?.getD ""

/-- All names of an option. -/
def shown (option : OptionSpec) : String := "/".intercalate option.names

/-- True of the options that take an argument. -/
def takesArgument (option : OptionSpec) : Bool :=
  match option.kind with
  | .help => false
  | .flag => false
  | .text => true
  | .integer => true

end OptionSpec

/-- What is wrong with arguments. -/
inductive UsageProblem where
  | ambiguous (argument : String) (names : List String)
  | argumentExpected (option : OptionSpec)
  | argumentIgnored (option : OptionSpec) (argument : String)
  | notInteger (option : OptionSpec) (argument : String)
  | notChoice (name : String) (argument : String) (choices : List String)
  | missing (name : String)
  | unrecognized (arguments : List String)
  deriving DecidableEq, Repr

/-- The wording of a problem. -/
def UsageProblem.message : UsageProblem → String
  | ambiguous argument names =>
    "ambiguous option: " ++ argument ++ " could match " ++ ", ".intercalate names
  | argumentExpected option => "argument " ++ option.shown ++ ": expected one argument"
  | argumentIgnored option argument =>
    "argument " ++ option.shown ++ ": ignored explicit argument " ++ Text.quoted argument
  | notInteger option argument =>
    "argument " ++ option.shown ++ ": invalid int value: " ++ Text.quoted argument
  | notChoice name argument choices =>
    "argument " ++ name ++ ": invalid choice: " ++ Text.quoted argument ++ " (choose from " ++
      ", ".intercalate (choices.map Text.quoted) ++ ")"
  | missing name => "the following arguments are required: " ++ name
  | unrecognized arguments => "unrecognized arguments: " ++ " ".intercalate arguments

/-- Why a program does not go on to its work. -/
inductive Stop where
  | help (program : String)
  | problem (program : String) (problem : UsageProblem)
  deriving DecidableEq, Repr

/-- An argument, and what it is taken for. -/
inductive Item where
  | operand (text : String)
  | separator
  | option (text : String) (option : OptionSpec) (name : String) (argument : Option String)
  /-- An option that the program does not have. -/
  | unknown (text : String)
  deriving DecidableEq, Repr

/-- The argument as it was given. -/
def Item.text : Item → String
  | operand text => text
  | separator => "--"
  | option text _ _ _ => text
  | unknown text => text

namespace Usage

/-- All names of options. -/
def names (usage : Usage) : List (String × OptionSpec) :=
  usage.options.flatMap fun option => option.names.map (·, option)

/-- The option of a name. -/
def option? (usage : Usage) (name : String) : Option OptionSpec := usage.names.lookup name

/-- The parts of a text before and after its first equals sign. -/
def splitEquals (text : List Char) : String × Option String :=
  match text.dropWhile (· != '=') with
  | _ :: rest => (String.ofList (text.takeWhile (· != '=')), some (String.ofList rest))
  | [] => (String.ofList text, none)

/-- The options that an argument may be short for. -/
def candidates (usage : Usage) (text : List Char) : List (OptionSpec × String × Option String) :=
  match text with
  | '-' :: '-' :: _ =>
    let (start, argument) := splitEquals text
    (usage.names.filter fun name => name.1.startsWith start).map fun (name, option) =>
      (option, name, argument)
  | '-' :: c :: rest =>
    usage.names.filterMap fun (name, option) =>
      if name == String.ofList ['-', c] then some (option, name, some (String.ofList rest))
      else if name.startsWith (String.ofList text) then some (option, name, none)
      else none
  | _ => []

/-- True of negative numbers, which are no options. -/
def isNegativeNumber : List Char → Bool
  | '-' :: rest =>
    let whole := rest.takeWhile Text.isDigit
    match rest.dropWhile Text.isDigit with
    | [] => !whole.isEmpty
    | '.' :: fraction => !fraction.isEmpty && fraction.all Text.isDigit
    | _ => false
  | _ => false

/-- What an argument that may be short for some options is taken for. -/
def choose (text : String) : List (OptionSpec × String × Option String) → Except UsageProblem Item
  | [] =>
    .ok (if isNegativeNumber text.toList || text.contains ' ' then .operand text else .unknown text)
  | [(option, name, argument)] => .ok (.option text option name argument)
  | several => .error (.ambiguous text (several.map (·.2.1)))

/-- What an argument is taken for. -/
def classify (usage : Usage) (text : String) : Except UsageProblem Item :=
  match text.toList with
  | '-' :: c :: rest =>
    match usage.option? text with
    | some option => .ok (.option text option text none)
    | none =>
      let (name, argument) := splitEquals ('-' :: c :: rest)
      match usage.option? name, argument with
      | some option, some argument => .ok (.option text option name (some argument))
      | _, _ => choose text (usage.candidates ('-' :: c :: rest))
  | _ => .ok (.operand text)

/-- What arguments are taken for. -/
def classifyAll (usage : Usage) : List String → Except UsageProblem (List Item)
  | [] => .ok []
  | text :: rest =>
    if text == "--" then .ok (.separator :: rest.map .operand)
    else do
      let item ← usage.classify text
      let items ← classifyAll usage rest
      return item :: items

end Usage

/-- What has been taken from arguments. -/
structure Taken where
  /-- What is given for options, by the keys of the options. -/
  given : List (String × Given) := []
  operands : Option (List String) := none
  /-- Arguments that nothing takes. -/
  extras : List String := []
  deriving DecidableEq, Repr

namespace Taken

/-- What is given last for an option. -/
def get? (taken : Taken) (key : String) : Option Given := taken.given.reverse.lookup key

/-- True when a flag is given. -/
def has (taken : Taken) (key : String) : Bool := (taken.get? key).isSome

/-- The text that is given for an option. -/
def text? (taken : Taken) (key : String) : Option String :=
  match taken.get? key with
  | some (.text value) => some value
  | _ => none

/-- The integer that is given for an option. -/
def integer? (taken : Taken) (key : String) : Option Int :=
  match taken.get? key with
  | some (.integer value) => some value
  | _ => none

end Taken

namespace Usage

/-- A problem of the program. -/
def fail {α : Type} (usage : Usage) (problem : UsageProblem) : Except Stop α :=
  .error (.problem usage.program problem)

/-- Options that share a dash: those before the last, the last, and its argument. -/
structure Chain where
  before : List OptionSpec
  last : OptionSpec
  argument : Option String

/-- True of names with a single dash. -/
def isShort (name : String) : Bool :=
  match name.toList with
  | '-' :: '-' :: _ => false
  | _ => true

/-- Reads an argument that stands with its option: short options without arguments may follow. -/
def chain (usage : Usage) (option : OptionSpec) (name : String) : List Char → Except Stop Chain
  | [] =>
    if option.takesArgument then .ok ⟨[], option, some ""⟩
    else usage.fail (.argumentIgnored option "")
  | c :: rest =>
    let argument := String.ofList (c :: rest)
    if option.takesArgument then .ok ⟨[], option, some argument⟩
    else if isShort name then
      let next := String.ofList ['-', c]
      match usage.option? next with
      | some following =>
        if rest.isEmpty then .ok ⟨[option], following, none⟩
        else do
          let chain ← chain usage following next rest
          return { chain with before := option :: chain.before }
      | none => usage.fail (.argumentIgnored option argument)
    else usage.fail (.argumentIgnored option argument)

/-- Takes an option without an argument. -/
def takeFlag (usage : Usage) (taken : Taken) (option : OptionSpec) : Except Stop Taken :=
  match option.kind with
  | .help => .error (.help usage.program)
  | _ => .ok { taken with given := taken.given ++ [(option.key, .flag)] }

/-- Takes an option with its argument. -/
def takeArgument (usage : Usage) (taken : Taken) (option : OptionSpec) (argument : String) :
    Except Stop Taken :=
  match option.kind with
  | .integer =>
    match Number.readInteger argument with
    | .ok n => .ok { taken with given := taken.given ++ [(option.key, .integer n)] }
    | .error _ => usage.fail (.notInteger option argument)
  | _ => .ok { taken with given := taken.given ++ [(option.key, .text argument)] }

/-- True when an operand is still to come. -/
def awaits (usage : Usage) (taken : Taken) : Bool :=
  usage.operand != .nothing && taken.operands.isNone

/-- Takes a command with everything after it. -/
def takeCommand (usage : Usage) (taken : Taken) (name : String) (choices : List String)
    (items : List Item) : Except Stop Taken :=
  let texts := items.map Item.text
  let command := texts.headD ""
  if choices.contains command then .ok { taken with operands := some texts }
  else usage.fail (.notChoice name command choices)

/-- Adds arguments that nothing takes. -/
def addExtras (taken : Taken) (texts : List String) : Taken :=
  { taken with extras := taken.extras ++ texts }

/-- Takes the items after two dashes, which are all operands; `fresh` says that the dashes stand right after
the operand and belong to it. -/
def takeRest (usage : Usage) (fresh : Bool) (taken : Taken) (items : List Item) : Except Stop Taken :=
  let texts := items.map Item.text
  if fresh then .ok (addExtras taken texts)
  else
    match usage.awaits taken, usage.operand, texts with
    | true, .command name choices, _ :: _ =>
      usage.takeCommand taken name choices (.separator :: items)
    | true, .single _, text :: texts => .ok (addExtras { taken with operands := some [text] } texts)
    | _, _, _ => .ok (addExtras taken ("--" :: texts))

/-- Takes options that share a dash, except for the last one when it takes an argument that does not stand
with it. -/
def takeChain (usage : Usage) (taken : Taken) (chain : Chain) : Except Stop Taken := do
  let taken ← chain.before.foldlM usage.takeFlag taken
  match chain.argument with
  | some argument => usage.takeArgument taken chain.last argument
  | none => if chain.last.takesArgument then return taken else usage.takeFlag taken chain.last

/-- The options of an item, and its argument if it stands with them. -/
def chainOf (usage : Usage) (option : OptionSpec) (name : String) : Option String → Except Stop Chain
  | some argument => usage.chain option name argument.toList
  | none => .ok ⟨[], option, none⟩

/-- True of options whose last one takes the argument that follows. -/
def Chain.wants (chain : Chain) : Bool := chain.argument.isNone && chain.last.takesArgument

/-- Takes items one after the other. `wanting` is the option that takes the next item, and `fresh` says that
the operand has just been taken. -/
def consume (usage : Usage) (wanting : Option OptionSpec) (fresh : Bool) (taken : Taken) :
    List Item → Except Stop Taken
  | [] =>
    match wanting with
    | some option => usage.fail (.argumentExpected option)
    | none => .ok taken
  | item :: rest =>
    match wanting, item with
    | some option, .operand text => do
      let taken ← usage.takeArgument taken option text
      usage.consume none false taken rest
    | some option, _ => usage.fail (.argumentExpected option)
    | none, .unknown text => usage.consume none false (addExtras taken [text]) rest
    | none, .option _ option name argument => do
      let chain ← usage.chainOf option name argument
      let taken ← usage.takeChain taken chain
      usage.consume (if chain.wants then some chain.last else none) false taken rest
    | none, .separator => usage.takeRest fresh taken rest
    | none, .operand text =>
      match usage.awaits taken, usage.operand with
      | true, .command name choices => usage.takeCommand taken name choices (.operand text :: rest)
      | true, _ => usage.consume none true { taken with operands := some [text] } rest
      | false, _ => usage.consume none false (addExtras taken [text]) rest

/-- Takes arguments; an operand has to be among them. -/
def take (usage : Usage) (arguments : List String) : Except Stop Taken := do
  match usage.classifyAll arguments with
  | .error problem => usage.fail problem
  | .ok items =>
    let taken ← usage.consume none false {} items
    match usage.operand, taken.operands with
    | .single name, none => usage.fail (.missing name)
    | .command name _, none => usage.fail (.missing name)
    | _, _ => return taken

end Usage

end RepoAudit.CommandLine
