import HopTrace.Text.Digits

/-!
# Writing JSON

A document is laid out on one line without blanks, or over several lines with
an indent of two spaces a level. Numbers are kept as their text.
-/

namespace HopTrace.Json

inductive Doc
  | null
  | bool (b : Bool)
  | number (text : List Char)
  | string (s : List Char)
  | array (items : List Doc)
  | object (members : List (List Char × Doc))

namespace Doc

open HopTrace.Text

def nat (n : Nat) : Doc := .number (decimal n)

def int (i : Int) : Doc := .number (decimalInt i)

def text (s : String) : Doc := .string s.toList

def record (members : List (String × Doc)) : Doc :=
  .object (members.map fun m => (m.1.toList, m.2))

/-- Quotes, backslashes and control characters are escaped; all else stands for itself. -/
def escapeChar (c : Char) : List Char :=
  if c = '\x22' then ['\\', '\x22']
  else if c = '\\' then ['\\', '\\']
  else if c = '\x08' then ['\\', 'b']
  else if c = '\x0c' then ['\\', 'f']
  else if c = '\n' then ['\\', 'n']
  else if c = '\r' then ['\\', 'r']
  else if c = '\t' then ['\\', 't']
  else if c.toNat < 0x20 then
    ['\\', 'u', '0', '0', digitChar (c.toNat / 16), digitChar (c.toNat % 16)]
  else [c]

def quote (s : List Char) : List Char := '\x22' :: s.flatMap escapeChar ++ ['\x22']

mutual

def compact : Doc → List Char
  | .null => ['n', 'u', 'l', 'l']
  | .bool true => ['t', 'r', 'u', 'e']
  | .bool false => ['f', 'a', 'l', 's', 'e']
  | .number t => t
  | .string s => quote s
  | .array [] => ['[', ']']
  | .array (d :: ds) => '[' :: compact d ++ compactItems ds
  | .object [] => ['\x7b', '\x7d']
  | .object ((k, d) :: ms) => '\x7b' :: quote k ++ ':' :: compact d ++ compactMembers ms

/-- The items after the first, and the closing bracket. -/
def compactItems : List Doc → List Char
  | [] => [']']
  | d :: ds => ',' :: compact d ++ compactItems ds

def compactMembers : List (List Char × Doc) → List Char
  | [] => ['\x7d']
  | (k, d) :: ms => ',' :: quote k ++ ':' :: compact d ++ compactMembers ms

end

def newline (level : Nat) : List Char := '\n' :: List.replicate (2 * level) ' '

mutual

/-- Over several lines, with `level` indents around it. -/
def pretty (level : Nat) : Doc → List Char
  | .array [] => ['[', ']']
  | .array (d :: ds) =>
    '[' :: newline (level + 1) ++ pretty (level + 1) d ++ prettyItems level ds
  | .object [] => ['\x7b', '\x7d']
  | .object ((k, d) :: ms) =>
    '\x7b' :: newline (level + 1) ++ quote k ++ ':' :: ' ' :: pretty (level + 1) d ++
      prettyMembers level ms
  | .null => ['n', 'u', 'l', 'l']
  | .bool true => ['t', 'r', 'u', 'e']
  | .bool false => ['f', 'a', 'l', 's', 'e']
  | .number t => t
  | .string s => quote s

def prettyItems (level : Nat) : List Doc → List Char
  | [] => newline level ++ [']']
  | d :: ds => ',' :: newline (level + 1) ++ pretty (level + 1) d ++ prettyItems level ds

def prettyMembers (level : Nat) : List (List Char × Doc) → List Char
  | [] => newline level ++ ['\x7d']
  | (k, d) :: ms =>
    ',' :: newline (level + 1) ++ quote k ++ ':' :: ' ' :: pretty (level + 1) d ++
      prettyMembers level ms

end

end Doc

end HopTrace.Json
