namespace ArrowCheck

inductive JsonValue
  | null
  | number (n : Nat)
  | string (s : String)
  | array (items : List JsonValue)
  | object (fields : List (String × JsonValue))

namespace JsonValue

def ofOption : Option Nat → JsonValue
  | some n => number n
  | none => null

def escapeChar (c : Char) : String :=
  if c = '"' then "\\\""
  else if c = '\\' then "\\\\"
  else if c = '\n' then "\\n"
  else if c = '\r' then "\\r"
  else if c = '\t' then "\\t"
  else if c = '\x08' then "\\b"
  else if c = '\x0c' then "\\f"
  else if c.toNat < 0x20 then
    "\\u00" ++ String.ofList [Nat.digitChar (c.toNat / 16), Nat.digitChar (c.toNat % 16)]
  else c.toString

def quote (s : String) : String := "\"" ++ String.join (s.toList.map escapeChar) ++ "\""

def enclose (opening closing : String) (depth : Nat) (entries : List String) : String :=
  if entries.isEmpty then opening ++ closing
  else
    let line (depth : Nat) := "".pushn ' ' (2 * depth)
    opening ++ "\n" ++ String.intercalate ",\n" (entries.map (line (depth + 1) ++ ·)) ++ "\n" ++
      line depth ++ closing

mutual

def text (depth : Nat) : JsonValue → String
  | null => "null"
  | number n => toString n
  | string s => quote s
  | array items => enclose "[" "]" depth (itemTexts (depth + 1) items)
  | object fields => enclose "\x7b" "\x7d" depth (fieldTexts (depth + 1) fields)
termination_by structural v => v

def itemTexts (depth : Nat) : List JsonValue → List String
  | [] => []
  | v :: vs => v.text depth :: itemTexts depth vs
termination_by structural vs => vs

def fieldTexts (depth : Nat) : List (String × JsonValue) → List String
  | [] => []
  | f :: fs => fieldText depth f :: fieldTexts depth fs
termination_by structural fs => fs

def fieldText (depth : Nat) : String × JsonValue → String
  | (k, v) => quote k ++ ": " ++ v.text depth
termination_by structural f => f

end

end JsonValue

end ArrowCheck
