import TieredUdf.Json.Basic
import TieredUdf.Numeric.Shortest

/-!
# Writing JSON

The compact form has no blanks; the indented form puts every member and item on a line of its
own, two columns deeper than what holds it.  An infinity or a not-a-number is written `null`.
-/

namespace TieredUdf.Json

open Numeric (Double)

/-- The four digits of a `\u` escape below 256. -/
def escapeDigits (n : Nat) : List Char :=
  let digit (k : Nat) := if k < 10 then Char.ofNat (48 + k) else Char.ofNat (87 + k)
  ['\\', 'u', '0', '0', digit (n / 16), digit (n % 16)]

def escapeChar (c : Char) : List Char :=
  if c = '"' then ['\\', '"']
  else if c = '\\' then ['\\', '\\']
  else if c = '\x08' then ['\\', 'b']
  else if c = '\x0c' then ['\\', 'f']
  else if c = '\n' then ['\\', 'n']
  else if c = '\r' then ['\\', 'r']
  else if c = '\t' then ['\\', 't']
  else if c.toNat < 0x20 then escapeDigits c.toNat
  else [c]

def renderString (s : String) : String :=
  String.ofList ('"' :: (s.toList.flatMap escapeChar ++ ['"']))

def renderDouble (x : Double) : String := x.interchange?.getD "null"

mutual

def render : Json → String
  | .null => "null"
  | .bool b => if b then "true" else "false"
  | .integer n => toString n
  | .number x => renderDouble x
  | .string s => renderString s
  | .array items => "[" ++ renderItems items ++ "]"
  | .object members => "\x7b" ++ renderMembers members ++ "\x7d"

def renderItems : List Json → String
  | [] => ""
  | [j] => render j
  | j :: rest => render j ++ "," ++ renderItems rest

def renderMembers : List (String × Json) → String
  | [] => ""
  | [(n, j)] => renderString n ++ ":" ++ render j
  | (n, j) :: rest => renderString n ++ ":" ++ render j ++ "," ++ renderMembers rest

end

def newline (depth : Nat) : String := String.ofList ('\n' :: List.replicate (2 * depth) ' ')

mutual

def renderIndented (depth : Nat) : Json → String
  | .array [] => "[]"
  | .object [] => "\x7b\x7d"
  | .array items => "[" ++ indentedItems (depth + 1) items ++ newline depth ++ "]"
  | .object members => "\x7b" ++ indentedMembers (depth + 1) members ++ newline depth ++ "\x7d"
  | .null => "null"
  | .bool b => if b then "true" else "false"
  | .integer n => toString n
  | .number x => renderDouble x
  | .string s => renderString s

def indentedItems (depth : Nat) : List Json → String
  | [] => ""
  | [j] => newline depth ++ renderIndented depth j
  | j :: rest => newline depth ++ renderIndented depth j ++ "," ++ indentedItems depth rest

def indentedMembers (depth : Nat) : List (String × Json) → String
  | [] => ""
  | [(n, j)] => newline depth ++ renderString n ++ ": " ++ renderIndented depth j
  | (n, j) :: rest =>
      newline depth ++ renderString n ++ ": " ++ renderIndented depth j ++ "," ++
        indentedMembers depth rest

end

def pretty (j : Json) : String := renderIndented 0 j

end TieredUdf.Json
