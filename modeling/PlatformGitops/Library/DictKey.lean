import PlatformGitops.Library.Json
import Mathlib.Data.Rat.Defs

/-! What a value of a document is found under in a dictionary. -/

namespace PlatformGitops.Library

/-- Numbers of one value are one key. -/
inductive DictKey where
  | none
  | text (s : String)
  | number (q : ℚ)
deriving DecidableEq

/-- A list or a mapping is no key; `floatValue` is the number that a float's text stands for. -/
def DictKey.ofJson (floatValue : String → ℚ) : Json → Option DictKey
  | .null => some .none
  | .str s => some (.text s)
  | .int n => some (.number n)
  | .bool b => some (.number (if b then 1 else 0))
  | .float s => some (.number (floatValue s))
  | .list _ | .obj _ => Option.none

end PlatformGitops.Library
