import PlatformGitops.CrossAi.Errors
import PlatformGitops.Library.JsonText
import Mathlib.Algebra.Group.Nat.Defs

/-! The restricted JSON canonicalization and the content digests built on it. -/

namespace PlatformGitops.CrossAi

open Library

def maxSafeInteger : Nat := 2 ^ 53 - 1

/-- The UTF-16 code units of a character. -/
def utf16Units (c : Char) : List Nat :=
  if c.toNat < 0x10000 then [c.toNat]
  else [0xD800 + (c.toNat - 0x10000) / 0x400, 0xDC00 + (c.toNat - 0x10000) % 0x400]

def keySortValue (value : String) : List Nat := value.toList.flatMap utf16Units

def unitsLe : List Nat → List Nat → Bool
  | [], _ => true
  | _ :: _, [] => false
  | x :: xs, y :: ys => x < y || (x == y && unitsLe xs ys)

/-- The text of a JSON value, as a list of characters. -/
abbrev Rendered := Except Failure (List Char)

def renderedObject (parts : List (String × Rendered)) : Rendered := do
  let sorted := parts.insertionSort (fun p q => unitsLe (keySortValue p.1) (keySortValue q.1))
  let rendered ← sorted.mapM (fun p => do pure (dumpsStr p.1 ++ ':' :: (← p.2)))
  pure ('\x7b' :: [','].intercalate rendered ++ ['\x7d'])

mutual

def render (path : String) : Json → Rendered
  | .null => pure "null".toList
  | .bool true => pure "true".toList
  | .bool false => pure "false".toList
  | .int n =>
    if n.natAbs > maxSafeInteger then
      reject "JCS_UNSAFE_INTEGER" (path ++ " exceeds the interoperable integer range")
    else pure (toString n).toList
  | .float _ => reject "JCS_FLOAT_FORBIDDEN" (path ++ " must not contain a floating-point number")
  | .str s => pure (dumpsStr s)
  | .list items => do
    let parts ← renderItems path 0 items
    pure ('[' :: [','].intercalate parts ++ [']'])
  | .obj fields => renderedObject (renderFields path fields)

def renderItems (path : String) (index : Nat) : List Json → Except Failure (List (List Char))
  | [] => pure []
  | item :: items => do
    let part ← render (path ++ "[" ++ toString index ++ "]") item
    let parts ← renderItems path (index + 1) items
    pure (part :: parts)

def renderFields (path : String) : List (String × Json) → List (String × Rendered)
  | [] => []
  | (key, value) :: fields => (key, render (path ++ "." ++ key) value) :: renderFields path fields

end

def canonicalBytes (value : Json) : Except Failure (List UInt8) := do
  pure ((← render "$" value).flatMap String.utf8EncodeChar)

def utf8 (s : String) : List UInt8 := s.toList.flatMap String.utf8EncodeChar

def sha256Digest (X : Externals) (value : Json) : Except Failure String := do
  pure ("sha256:" ++ X.sha256 (← canonicalBytes value))

example : render "$" (.obj [("b", .list [.int 1, .null]), ("a", .str "x\"\n")]) =
    .ok "\x7b\"a\":\"x\\\"\\n\",\"b\":[1,null]\x7d".toList := by decide

end PlatformGitops.CrossAi
