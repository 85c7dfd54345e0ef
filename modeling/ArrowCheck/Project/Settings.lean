import ArrowCheck.Layout.Program
import ArrowCheck.Toml.Document
import ArrowCheck.Typing.Checker

namespace ArrowCheck

structure Settings where
  /-- Files, directories and globs that are checked, relative to the root of the project. -/
  included : List String := ["src/**/*.js"]
  excluded : List String := ["node_modules/**/*", "dist/**/*", "build/**/*"]
  check : CheckOptions := {}
  layout : Layout := {}

structure Setter (σ : Type) where
  name : String
  set : Toml.Value → σ → Option σ

/-- Reads a table by the names of its entries, or an array by position. A table may not hold other
names; an array may be longer or shorter. -/
def readSection {σ : Type} (setters : List (Setter σ)) (start : σ) : Toml.Value → Option σ
  | .table _ entries => entries.foldlM (fun s (name, value) => do
      let setter ← setters.find? (·.name = name)
      setter.set value s) start
  | .array items => (setters.zip items).foldlM (fun s (setter, value) => setter.set value s) start
  | _ => none

def asFlag : Toml.Value → Option Bool
  | .scalar (.boolean b) => some b
  | _ => none

def asSize : Toml.Value → Option Nat
  | .scalar (.integer (.ofNat n)) => some n
  | _ => none

def asStrings : Toml.Value → Option (List String)
  | .array items => items.mapM fun
    | .string s => some s
    | _ => none
  | _ => none

def checkSetters : List (Setter CheckOptions) := [
  ⟨"check-return-types", fun v o => do return { o with returnTypes := ← asFlag v }⟩,
  ⟨"check-parameter-types", fun v o => do return { o with parameterTypes := ← asFlag v }⟩]

def layoutSetters : List (Setter Layout) := [
  ⟨"indent-size", fun v l => do return { l with indentSize := ← asSize v }⟩,
  ⟨"use-spaces", fun v l => do return { l with useSpaces := ← asFlag v }⟩,
  ⟨"max-line-length", fun v l => do return { l with maxLineLength := ← asSize v }⟩]

def settingSetters : List (Setter Settings) := [
  ⟨"include", fun v s => do return { s with included := ← asStrings v }⟩,
  ⟨"exclude", fun v s => do return { s with excluded := ← asStrings v }⟩,
  ⟨"type-check", fun v s => do return { s with check := ← readSection checkSetters {} v }⟩,
  ⟨"format", fun v s => do return { s with layout := ← readSection layoutSetters {} v }⟩]

namespace Settings

def read? (text : String) : Option Settings := do
  readSection settingSetters {} (.table false (← Toml.document? text))

/-- The values that switch a setting on, in any case of their letters; all others switch it off. -/
def isOn (value : String) : Bool := ["true", "1", "yes"].contains (value.map Char.toLower)

def override (s : Settings) (lookup : String → Option String) : Settings :=
  let flag (name : String) (default : Bool) := ((lookup name).map isOn).getD default
  { s with check :=
    { returnTypes := flag "JSCRIPTOR_CHECK_RETURN_TYPES" s.check.returnTypes
      parameterTypes := flag "JSCRIPTOR_CHECK_PARAMETER_TYPES" s.check.parameterTypes } }

end Settings

end ArrowCheck
