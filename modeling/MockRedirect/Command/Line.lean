import MockRedirect.Decimal.Written
/-! Command lines: which arguments and options a command takes, and which of them a line gives. -/
namespace MockRedirect

/-- What the text of an argument has to be. -/
inductive ArgumentKind where
  | text
  /-- A file name, which is not empty. -/
  | path
  | integer
  | index
  | switch
  deriving DecidableEq, Repr

namespace ArgumentKind

def switch? (s : String) : Option Bool :=
  if s = "on" then some true else if s = "off" then some false else none

def accepts : ArgumentKind → String → Bool
  | text, _ => true
  | path, s => s ≠ ""
  | integer, s => (readInt64? s.toList).isSome
  | index, s => (readNat64? s.toList).isSome
  | switch, s => (switch? s).isSome

end ArgumentKind

/-- An option `--name`, perhaps with a letter for short. One without a kind is a flag. -/
structure CommandOption where
  name : String
  letter : Option Char
  kind : Option ArgumentKind
  deriving DecidableEq, Repr

/-- What a command takes. -/
structure Grammar where
  required : List (String × ArgumentKind)
  optional : List (String × ArgumentKind)
  options : List CommandOption
  deriving Repr

/-- What stands on a line. A flag has an empty value. -/
structure CommandLine where
  arguments : List String
  options : List (String × String)
  deriving DecidableEq, Repr

/-- Why a line gives no command. -/
inductive UsageError where
  | helpAsked
  | versionAsked
  | missingCommand
  | unknownCommand (word : String)
  | unknownOption (word : String)
  | repeatedOption (name : String)
  | missingValue (name : String)
  | unwantedValue (name : String)
  | badValue (name value : String)
  | missingArgument (name : String)
  | extraArgument (word : String)
  deriving DecidableEq, Repr

def UsageError.message : UsageError → String
  | helpAsked => "help was asked for"
  | versionAsked => "the version was asked for"
  | missingCommand => "a command is missing"
  | unknownCommand word => "unknown command " ++ word
  | unknownOption word => "unknown option " ++ word
  | repeatedOption name => "option --" ++ name ++ " is given twice"
  | missingValue name => "option --" ++ name ++ " needs a value"
  | unwantedValue name => "option --" ++ name ++ " takes no value"
  | badValue name value => "invalid value for " ++ name ++ ": " ++ value
  | missingArgument name => "argument " ++ name ++ " is missing"
  | extraArgument word => "unexpected argument " ++ word

namespace CommandLine

def empty : CommandLine := ⟨[], []⟩

def value? (l : CommandLine) (name : String) : Option String :=
  (l.options.find? (·.1 == name)).map (·.2)

def has (l : CommandLine) (name : String) : Bool := (l.value? name).isSome

end CommandLine

/-- A word that starts with a minus sign, as an option and the value attached to it. A minus sign
alone is an ordinary word. -/
def cutOption? : List Char → Option (List Char × Option (List Char))
  | '-' :: '-' :: s =>
    match Text.cut? '=' s with
    | some (name, value) => some ('-' :: '-' :: name, some value)
    | none => some ('-' :: '-' :: s, none)
  | '-' :: c :: s =>
    match s with
    | [] => some (['-', c], none)
    | '=' :: value => some (['-', c], some value)
    | value => some (['-', c], some value)
  | _ => none

namespace Grammar

def names (o : CommandOption) : List (List Char) :=
  ('-' :: '-' :: o.name.toList) :: (o.letter.map fun c => ['-', c]).toList

def option? (g : Grammar) (word : List Char) : Option CommandOption :=
  g.options.find? fun o => (names o).contains word

/-- The next argument is put on the line. -/
def addArgument (g : Grammar) (l : CommandLine) (word : String) : Except UsageError CommandLine :=
  match (g.required ++ g.optional)[l.arguments.length]? with
  | none => .error (.extraArgument word)
  | some (name, kind) =>
    if kind.accepts word then .ok { l with arguments := l.arguments ++ [word] }
    else .error (.badValue name word)

/-- An option is put on the line, which must not have it yet. -/
def addOption (o : CommandOption) (value : String) (l : CommandLine) :
    Except UsageError CommandLine :=
  if o.name = "help" then .error .helpAsked
  else if o.name = "version" then .error .versionAsked
  else if l.has o.name then .error (.repeatedOption o.name)
  else if o.kind.any (!·.accepts value) then .error (.badValue o.name value)
  else .ok { l with options := l.options ++ [(o.name, value)] }

/-- Reads a line. What follows `--` is no option. With `lead`, reading stops at the first argument,
and the words from there on are given back. -/
def read (g : Grammar) (lead : Bool) (l : CommandLine) :
    List String → Except UsageError (CommandLine × List String)
  | [] => .ok (l, [])
  | word :: words =>
    if word = "--" then
      if lead then .error .missingCommand
      else (words.foldlM g.addArgument l).map fun l => (l, [])
    else
      match cutOption? word.toList with
      | none =>
        if lead then .ok (l, word :: words)
        else do
          let l ← g.addArgument l word
          read g lead l words
      | some (name, value) =>
        match g.option? name, value with
        | none, _ => .error (.unknownOption word)
        | some ⟨name, letter, none⟩, none => do
          let l ← addOption ⟨name, letter, none⟩ "" l
          read g lead l words
        | some ⟨name, _, none⟩, some _ => .error (.unwantedValue name)
        | some o, some value => do
          let l ← addOption o (String.ofList value) l
          read g lead l words
        | some o, none =>
          match words with
          | [] => .error (.missingValue o.name)
          | value :: words =>
            if (cutOption? value.toList).isSome then .error (.missingValue o.name)
            else do
              let l ← addOption o value l
              read g lead l words

/-- Reads the line of a command, to which all its required arguments belong. -/
def readAll (g : Grammar) (words : List String) : Except UsageError CommandLine := do
  let (l, _) ← g.read false .empty words
  match g.required[l.arguments.length]? with
  | some (name, _) => .error (.missingArgument name)
  | none => .ok l

end Grammar

example : cutOption? "--verb=a=b".toList = some ("--verb".toList, some "a=b".toList) := by decide
example : cutOption? "-".toList = none := by decide

end MockRedirect
