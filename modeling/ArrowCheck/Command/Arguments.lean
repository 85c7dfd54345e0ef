import ArrowCheck.Project.Path

namespace ArrowCheck

inductive Command
  | check (files : List FilePath) (json : Bool) (settings : Option FilePath)
  | parse (file : FilePath) (verbose : Bool)
  | lex (file : FilePath)
  | format (file : FilePath) (write : Bool)
  | types (file : FilePath)
deriving DecidableEq

/-- What a command line asks for; `malformed` stands for every misuse. -/
inductive Request
  | run (command : Command)
  | version
  | help
  | malformed
deriving DecidableEq

inductive OptionKind
  | once
  | often
  /-- A value, and the option is given at most once. -/
  | value
  | version
  | help
deriving DecidableEq

structure OptionRule where
  long : String
  short : Option Char
  kind : OptionKind

def commonOptions : List OptionRule := [⟨"debug", some 'd', .often⟩, ⟨"help", some 'h', .help⟩]

structure Arguments where
  options : List (String × String) := []
  words : List String := []
  awaited : Option String := none
  literal : Bool := false

inductive Reading
  | more (a : Arguments)
  | stop (r : Request)

namespace Arguments

def has (a : Arguments) (name : String) : Bool := a.options.any (·.1 = name)

def value? (a : Arguments) (name : String) : Option String := (a.options.find? (·.1 = name)).map (·.2)

def set (a : Arguments) (name value : String) : Reading :=
  if a.has name then .stop .malformed
  else .more { a with options := a.options ++ [(name, value)], awaited := none }

def setValue (a : Arguments) (name value : String) : Reading :=
  if value.isEmpty then .stop .malformed else a.set name value

/-- Reads an option by its long name, with the value that an equals sign attaches to it. -/
def readLong (rules : List OptionRule) (a : Arguments) (name : String) (attached : Option String) : Reading :=
  match rules.find? (·.long = name), attached with
  | some ⟨_, _, .once⟩, none => a.set name ""
  | some ⟨_, _, .often⟩, none => .more a
  | some ⟨_, _, .version⟩, none => .stop .version
  | some ⟨_, _, .help⟩, none => .stop .help
  | some ⟨_, _, .value⟩, none => .more { a with awaited := some name }
  | some ⟨_, _, .value⟩, some value => a.setValue name value
  | _, _ => .stop .malformed

/-- Reads options by their letters, written together. What follows the letter of an option with a
value is its value, with or without an equals sign. -/
def readShort (rules : List OptionRule) (a : Arguments) : List Char → Reading
  | [] => .more a
  | c :: cs =>
    match rules.find? (·.short = some c) with
    | some ⟨name, _, .once⟩ =>
      match a.set name "" with
      | .more a => readShort rules a cs
      | stop => stop
    | some ⟨_, _, .often⟩ => readShort rules a cs
    | some ⟨_, _, .version⟩ => .stop .version
    | some ⟨_, _, .help⟩ => .stop .help
    | some ⟨name, _, .value⟩ =>
      match cs with
      | [] => .more { a with awaited := some name }
      | '=' :: value => a.setValue name (String.ofList value)
      | value => a.setValue name (String.ofList value)
    | none => .stop .malformed

/-- Reads an argument that is no option: the value that is awaited, or a word, of which there are at
most so many. -/
def readWord (limit : Option Nat) (a : Arguments) (word : String) : Reading :=
  match a.awaited with
  | some name => a.setValue name word
  | none =>
    if word.isEmpty || limit.any (a.words.length ≥ ·) then .stop .malformed
    else .more { a with words := a.words ++ [word] }

/-- Reads one argument. An option in place of an awaited value is a misuse. -/
def read (rules : List OptionRule) (limit : Option Nat) (a : Arguments) (arg : String) : Reading :=
  if a.literal then a.readWord limit arg
  else match arg.toList, a.awaited with
    | ['-'], _ => a.readWord limit arg
    | '-' :: _, some _ => .stop .malformed
    | ['-', '-'], none => .more { a with literal := true }
    | '-' :: '-' :: cs, none =>
      let name := cs.takeWhile (· ≠ '=')
      let attached := (cs.drop name.length).tail?.map String.ofList
      a.readLong rules (String.ofList name) attached
    | '-' :: cs, none => a.readShort rules cs
    | _, _ => a.readWord limit arg

def readAll (rules : List OptionRule) (limit : Option Nat) (a : Arguments) : List String → Except Request Arguments
  | [] => if a.awaited.isSome then .error .malformed else .ok a
  | arg :: args =>
    match a.read rules limit arg with
    | .more a => readAll rules limit a args
    | .stop r => .error r

end Arguments

/-- The commands by name: their options beside the common ones, how many words they take at most,
and what the arguments ask for. -/
structure CommandRule where
  name : String
  options : List OptionRule
  limit : Option Nat
  build : Arguments → Option Command

def onFile (build : Arguments → FilePath → Command) (a : Arguments) : Option Command :=
  a.words.head?.map fun word => build a (.ofText word)

def commandRules : List CommandRule := [
  ⟨"check", [⟨"json", none, .once⟩, ⟨"no-color", none, .once⟩, ⟨"config", some 'c', .value⟩], none,
    fun a => some (.check (a.words.map FilePath.ofText) (a.has "json") ((a.value? "config").map FilePath.ofText))⟩,
  ⟨"parse", [⟨"verbose", some 'v', .once⟩], some 1, onFile fun a file => .parse file (a.has "verbose")⟩,
  ⟨"lex", [], some 1, onFile fun _ file => .lex file⟩,
  ⟨"fmt", [⟨"write", some 'w', .once⟩], some 1, onFile fun a file => .format file (a.has "write")⟩,
  ⟨"types", [], some 1, onFile fun _ file => .types file⟩]

def CommandRule.read (rule : CommandRule) (args : List String) : Request :=
  match Arguments.readAll (commonOptions ++ rule.options) rule.limit {} args with
  | .error r => r
  | .ok a => ((rule.build a).map Request.run).getD .malformed

def readHelp : List String → Request
  | [] => .help
  | [name] => if name = "help" || commandRules.any (·.name = name) then .help else .malformed
  | _ => .malformed

/-- Reads a whole command line: options, the name of a command, and what belongs to the command. -/
def readRequest : List String → Request
  | [] => .malformed
  | arg :: args =>
    if arg = "help" then readHelp args
    else match commandRules.find? (·.name = arg) with
      | some rule => rule.read args
      | none =>
        match Arguments.read (commonOptions ++ [⟨"version", some 'V', .version⟩]) (some 0) {} arg with
        | .more a => if a.literal then .malformed else readRequest args
        | .stop r => r

end ArrowCheck
