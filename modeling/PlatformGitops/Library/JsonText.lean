import PlatformGitops.Library.Json
import Mathlib.Data.List.Sort

/-! JSON texts: the compact writer that sorts keys, and the reader. -/

namespace PlatformGitops.Library

def hexDigit (n : Nat) : Char := ("0123456789abcdef".toList)[n]?.getD '0'

/-- The escapes of the JSON string encoder that leaves non-ASCII text as it is. -/
def escapeChar (c : Char) : List Char :=
  match c with
  | '"' => ['\\', '"']
  | '\\' => ['\\', '\\']
  | '\n' => ['\\', 'n']
  | '\r' => ['\\', 'r']
  | '\t' => ['\\', 't']
  | c =>
    if c.toNat = 8 then ['\\', 'b']
    else if c.toNat = 12 then ['\\', 'f']
    else if c.toNat < 32 then ['\\', 'u', '0', '0', hexDigit (c.toNat / 16), hexDigit (c.toNat % 16)]
    else [c]

def dumpsStr (s : String) : List Char := '"' :: s.toList.flatMap escapeChar ++ ['"']

namespace Json

section Writer

variable (le : String → String → Bool)

def joinItems (parts : List (List Char)) : List Char := '[' :: [','].intercalate parts ++ [']']

def member (p : String × List Char) : List Char := dumpsStr p.1 ++ ':' :: p.2

def joinFields (parts : List (String × List Char)) : List Char :=
  '\x7b' :: [','].intercalate (parts.map member) ++ ['\x7d']

mutual

/-- The compact text of a value. A float is given by its text. -/
def dumps : Json → List Char
  | .null => "null".toList
  | .bool true => "true".toList
  | .bool false => "false".toList
  | .int n => (toString n).toList
  | .float text => text.toList
  | .str s => dumpsStr s
  | .list items => joinItems (dumpsItems items)
  | .obj fields => joinFields ((dumpsFields fields).insertionSort fun p q => le p.1 q.1)

def dumpsItems : List Json → List (List Char)
  | [] => []
  | item :: items => dumps item :: dumpsItems items

def dumpsFields : List (String × Json) → List (String × List Char)
  | [] => []
  | (key, value) :: fields => (key, dumps value) :: dumpsFields fields

end

mutual

/-- The value with the keys of each of its objects in order. -/
def sortKeys : Json → Json
  | .list items => .list (sortItems items)
  | .obj fields => .obj ((sortFields fields).insertionSort fun p q => le p.1 q.1)
  | v => v

def sortItems : List Json → List Json
  | [] => []
  | item :: items => sortKeys item :: sortItems items

def sortFields : List (String × Json) → List (String × Json)
  | [] => []
  | (key, value) :: fields => (key, sortKeys value) :: sortFields fields

end

end Writer

section Reader

def isSpace (c : Char) : Bool := c = ' ' ∨ c = '\t' ∨ c = '\n' ∨ c = '\r'

def skipSpace (s : List Char) : List Char := s.dropWhile isSpace

def hexValue? (c : Char) : Option Nat :=
  if '0' ≤ c ∧ c ≤ '9' then some (c.toNat - 48)
  else if 'a' ≤ c ∧ c ≤ 'f' then some (c.toNat - 87)
  else if 'A' ≤ c ∧ c ≤ 'F' then some (c.toNat - 55)
  else none

def codeUnit? (a b c d : Char) : Option Nat := do
  let a ← hexValue? a
  let b ← hexValue? b
  let c ← hexValue? c
  let d ← hexValue? d
  pure (((a * 16 + b) * 16 + c) * 16 + d)

def isHighSurrogate (u : Nat) : Bool := 0xD800 ≤ u ∧ u < 0xDC00
def isLowSurrogate (u : Nat) : Bool := 0xDC00 ≤ u ∧ u < 0xE000

def escaped? : Char → Option Char
  | '"' => some '"'
  | '\\' => some '\\'
  | '/' => some '/'
  | 'b' => some (Char.ofNat 8)
  | 'f' => some (Char.ofNat 12)
  | 'n' => some '\n'
  | 'r' => some '\r'
  | 't' => some '\t'
  | _ => none

/-- The character of a `\u` escape that follows its first two characters, and the rest. A surrogate without its
other half is not a character. -/
def unicodeEscape? : List Char → Option (Char × List Char)
  | a :: b :: c :: d :: rest => do
    let u ← codeUnit? a b c d
    if isHighSurrogate u then
      match rest with
      | '\\' :: 'u' :: a' :: b' :: c' :: d' :: rest => do
        let l ← codeUnit? a' b' c' d'
        if isLowSurrogate l then some (Char.ofNat (0x10000 + (u - 0xD800) * 0x400 + (l - 0xDC00)), rest) else none
      | _ => none
    else if isLowSurrogate u then none
    else some (Char.ofNat u, rest)
  | _ => none

/-- The characters of a string up to its closing quote, and the rest. -/
def scanString : Nat → List Char → Option (List Char × List Char)
  | 0, _ => none
  | _ + 1, [] => none
  | n + 1, c :: rest =>
    if c = '"' then some ([], rest)
    else if c = '\\' then
      match rest with
      | [] => none
      | e :: rest =>
        if e = 'u' then do
          let (c, rest) ← unicodeEscape? rest
          let (cs, rest) ← scanString n rest
          pure (c :: cs, rest)
        else do
          let c ← escaped? e
          let (cs, rest) ← scanString n rest
          pure (c :: cs, rest)
    else if c.toNat < 32 then none
    else do
      let (cs, rest) ← scanString n rest
      pure (c :: cs, rest)

def digitsOf (s : List Char) : List Char × List Char := (s.takeWhile Char.isDigit, s.dropWhile Char.isDigit)

/-- The digits of the integer part of a number. -/
def integerPart? (s : List Char) : Option (List Char × List Char) :=
  if s.head? = some '0' then some (['0'], s.tail)
  else if (digitsOf s).1 = [] then none
  else some (digitsOf s)

def fractionPart (s : List Char) : List Char × List Char :=
  if s.head? = some '.' ∧ (digitsOf s.tail).1 ≠ [] then ('.' :: (digitsOf s.tail).1, (digitsOf s.tail).2) else ([], s)

def signPart (s : List Char) : List Char × List Char :=
  if s.head? = some '+' ∨ s.head? = some '-' then (s.take 1, s.tail) else ([], s)

def exponentPart (s : List Char) : List Char × List Char :=
  let unsigned := (signPart s.tail).2
  if (s.head? = some 'e' ∨ s.head? = some 'E') ∧ (digitsOf unsigned).1 ≠ [] then
    (s.take 1 ++ (signPart s.tail).1 ++ (digitsOf unsigned).1, (digitsOf unsigned).2)
  else ([], s)

/-- The integers that are read have at most so many digits. -/
def maxIntDigits : Nat := 4300

def minusPart (s : List Char) : List Char × List Char :=
  if s.head? = some '-' then (['-'], s.tail) else ([], s)

variable (float : String → String)

/-- A number: an integer, or a float, of which `float` gives the text. -/
def scanNumber (s : List Char) : Option (Json × List Char) := do
  let (digits, rest) ← integerPart? (minusPart s).2
  let fraction := fractionPart rest
  let exponent := exponentPart fraction.2
  if fraction.1 = [] ∧ exponent.1 = [] then
    if digits.length ≤ maxIntDigits then
      let n : Int := Nat.ofDigitChars 10 digits 0
      some (.int (if (minusPart s).1 = [] then n else -n), rest)
    else none
  else
    some (.float (float (String.ofList ((minusPart s).1 ++ digits ++ fraction.1 ++ exponent.1))), exponent.2)

/-- An object keeps the place of a key that comes again, and its last value. -/
def setField (fields : List (String × Json)) (p : String × Json) : List (String × Json) :=
  if p.1 ∈ fields.map (·.1) then fields.map fun q => if q.1 = p.1 then p else q else fields ++ [p]

def literals : List (List Char × Json) :=
  [("null".toList, .null), ("true".toList, .bool true), ("false".toList, .bool false), ("NaN".toList, .float "NaN"),
    ("Infinity".toList, .float "Infinity"), ("-Infinity".toList, .float "-Infinity")]

def scanLiteral (s : List Char) : Option (Json × List Char) :=
  (literals.find? fun l => l.1.isPrefixOf s).map fun l => (l.2, s.drop l.1.length)

/-- A key with its colon. -/
def scanKey : Nat → List Char → Option (String × List Char)
  | n, '"' :: rest => do
    let (cs, rest) ← scanString n rest
    match skipSpace rest with
    | ':' :: rest => some (String.ofList cs, skipSpace rest)
    | _ => none
  | _, _ => none

mutual

def scanValue : Nat → List Char → Option (Json × List Char)
  | 0, _ => none
  | n + 1, s =>
    match s with
    | '"' :: rest => (scanString n rest).map fun p => (.str (String.ofList p.1), p.2)
    | '[' :: rest =>
      match skipSpace rest with
      | ']' :: rest => some (.list [], rest)
      | rest => (scanItems n rest).map fun p => (.list p.1, p.2)
    | '\x7b' :: rest =>
      match skipSpace rest with
      | '\x7d' :: rest => some (.obj [], rest)
      | rest => (scanFields n rest).map fun p => (.obj (p.1.foldl setField []), p.2)
    | s => (scanLiteral s).or (scanNumber float s)

def scanItems : Nat → List Char → Option (List Json × List Char)
  | 0, _ => none
  | n + 1, s => do
    let (item, rest) ← scanValue n s
    match skipSpace rest with
    | ']' :: rest => some ([item], rest)
    | ',' :: rest => do
      let (items, rest) ← scanItems n (skipSpace rest)
      some (item :: items, rest)
    | _ => none

def scanFields : Nat → List Char → Option (List (String × Json) × List Char)
  | 0, _ => none
  | n + 1, s => do
    let (key, rest) ← scanKey n s
    let (value, rest) ← scanValue n rest
    match skipSpace rest with
    | '\x7d' :: rest => some ([(key, value)], rest)
    | ',' :: rest => do
      let (fields, rest) ← scanFields n (skipSpace rest)
      some ((key, value) :: fields, rest)
    | _ => none

end

def loads (s : List Char) : Option Json := do
  let (v, rest) ← scanValue float (s.length + 1) (skipSpace s)
  if skipSpace rest = [] then some v else none

example : (loads id " \x7b\"a\" : [1, -20,null, 1.5e3], \"b\":\"\\ud83d\\ude00\\n\", \"a\":true\x7d ".toList).map (dumps (· ≤ ·)) =
    some "\x7b\"a\":true,\"b\":\"😀\\n\"\x7d".toList := by
  decide +kernel

end Reader

end Json

end PlatformGitops.Library
