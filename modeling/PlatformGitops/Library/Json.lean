import Mathlib.Tactic.Common

/-! Decoded JSON values, read the way a dynamically typed program reads them: a missing key of an
object and an explicit null look the same, and a boolean is an integer. -/

namespace PlatformGitops.Library

inductive Json where
  | null
  | bool (b : Bool)
  | int (n : Int)
  | float (text : String)
  | str (s : String)
  | list (items : List Json)
  | obj (fields : List (String × Json))

namespace Json

def get : Json → String → Json
  | .obj fields, key => (fields.lookup key).getD .null
  | _, _ => .null

def item? : Json → String → Option Json
  | .obj fields, key => fields.lookup key
  | _, _ => none

def asInt? : Json → Option Int
  | .int n => some n
  | .bool b => some (if b then 1 else 0)
  | _ => none

def asStrictInt? : Json → Option Int
  | .int n => some n
  | _ => none

def asBool? : Json → Option Bool
  | .bool b => some b
  | _ => none

def asStr? : Json → Option String
  | .str s => some s
  | _ => none

def asList? : Json → Option (List Json)
  | .list items => some items
  | _ => none

def asObj? : Json → Option (List (String × Json))
  | .obj fields => some fields
  | _ => none

def asStrList? (j : Json) : Option (List String) := j.asList?.bind (·.mapM asStr?)

def isNull : Json → Bool
  | .null => true
  | _ => false

def ofOption {α : Type} (f : α → Json) : Option α → Json
  | none => .null
  | some a => f a

variable {value : Json}

lemma asStrictInt?_eq_some {n : Int} (h : value.asStrictInt? = some n) : value = .int n := by
  cases value with
  | int m => simpa [asStrictInt?] using h
  | _ => simp [asStrictInt?] at h

lemma asStr?_eq_some {s : String} (h : value.asStr? = some s) : value = .str s := by
  cases value with
  | str t => simpa [asStr?] using h
  | _ => simp [asStr?] at h

lemma asList?_eq_some {items : List Json} (h : value.asList? = some items) : value = .list items := by
  cases value with
  | list t => simpa [asList?] using h
  | _ => simp [asList?] at h

end Json

end PlatformGitops.Library
