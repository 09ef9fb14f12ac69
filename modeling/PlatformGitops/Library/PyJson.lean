import PlatformGitops.Library.JsonText
import PlatformGitops.Library.Fallible

/-! The JSON values of a reader whose strings are lists of code points: a surrogate without its other half may be in
them, and an integer of too many digits is an error of its own. -/

namespace PlatformGitops.Library

inductive PyJson where
  | null
  | bool (b : Bool)
  | int (n : Int)
  | float (text : String)
  | str (s : List Nat)
  | list (items : List PyJson)
  | obj (fields : List (List Nat × PyJson))

namespace PyJson

open Json (skipSpace codeUnit? isHighSurrogate isLowSurrogate escaped? integerPart? fractionPart exponentPart minusPart
  maxIntDigits literals)

def codePoints (s : String) : List Nat := s.toList.map Char.toNat

/-- The text of code points that are all characters. -/
def text? (s : List Nat) : Option String :=
  if s.all fun u => !(isHighSurrogate u || isLowSurrogate u) then some (String.ofList (s.map Char.ofNat)) else none

section Narrowing

mutual

/-- The value, if all its strings are texts. -/
def narrow : PyJson → Option Json
  | .null => some .null
  | .bool b => some (.bool b)
  | .int n => some (.int n)
  | .float text => some (.float text)
  | .str s => (text? s).map .str
  | .list items => (narrowItems items).map .list
  | .obj fields => (narrowFields fields).map .obj

def narrowItems : List PyJson → Option (List Json)
  | [] => some []
  | item :: items => do
    let item ← narrow item
    let items ← narrowItems items
    pure (item :: items)

def narrowFields : List (List Nat × PyJson) → Option (List (String × Json))
  | [] => some []
  | (key, value) :: fields => do
    let key ← text? key
    let value ← narrow value
    let fields ← narrowFields fields
    pure ((key, value) :: fields)

end

def get : PyJson → String → PyJson
  | .obj fields, key => (fields.lookup (codePoints key)).getD .null
  | _, _ => .null

def isObj : PyJson → Bool
  | .obj _ => true
  | _ => false

def isNonEmptyStr : PyJson → Bool
  | .str s => s ≠ []
  | _ => false

end Narrowing

section Reader

inductive ReadError where
  | decode
  | tooManyDigits
deriving DecidableEq, Repr

def unicodeEscape? : List Char → Option (Nat × List Char)
  | a :: b :: c :: d :: rest => do
    let u ← codeUnit? a b c d
    if isHighSurrogate u then
      match rest with
      | '\\' :: 'u' :: a' :: b' :: c' :: d' :: behind => do
        let l ← codeUnit? a' b' c' d'
        if isLowSurrogate l then some (0x10000 + (u - 0xD800) * 0x400 + (l - 0xDC00), behind) else some (u, rest)
      | _ => some (u, rest)
    else some (u, rest)
  | _ => none

def scanString : Nat → List Char → Option (List Nat × List Char)
  | 0, _ => none
  | _ + 1, [] => none
  | n + 1, c :: rest =>
    if c = '"' then some ([], rest)
    else if c = '\\' then
      match rest with
      | [] => none
      | e :: rest =>
        if e = 'u' then do
          let (u, rest) ← unicodeEscape? rest
          let (us, rest) ← scanString n rest
          pure (u :: us, rest)
        else do
          let c ← escaped? e
          let (us, rest) ← scanString n rest
          pure (c.toNat :: us, rest)
    else if c.toNat < 32 then none
    else do
      let (us, rest) ← scanString n rest
      pure (c.toNat :: us, rest)

variable (float : String → String)

def scanNumber (s : List Char) : Except ReadError (PyJson × List Char) := do
  let (digits, rest) ← Fallible.expect (integerPart? (minusPart s).2) .decode
  let fraction := fractionPart rest
  let exponent := exponentPart fraction.2
  if fraction.1 = [] ∧ exponent.1 = [] then
    if digits.length ≤ maxIntDigits then
      let n : Int := Nat.ofDigitChars 10 digits 0
      .ok (.int (if (minusPart s).1 = [] then n else -n), rest)
    else .error .tooManyDigits
  else
    .ok (.float (float (String.ofList ((minusPart s).1 ++ digits ++ fraction.1 ++ exponent.1))), exponent.2)

def setField (fields : List (List Nat × PyJson)) (p : List Nat × PyJson) : List (List Nat × PyJson) :=
  if p.1 ∈ fields.map (·.1) then fields.map fun q => if q.1 = p.1 then p else q else fields ++ [p]

def literal : Json → PyJson
  | .bool b => .bool b
  | .float text => .float text
  | _ => .null

def scanLiteral (s : List Char) : Option (PyJson × List Char) :=
  (literals.find? fun l => l.1.isPrefixOf s).map fun l => (literal l.2, s.drop l.1.length)

def scanKey : Nat → List Char → Option (List Nat × List Char)
  | n, '"' :: rest => do
    let (us, rest) ← scanString n rest
    match skipSpace rest with
    | ':' :: rest => some (us, skipSpace rest)
    | _ => none
  | _, _ => none

mutual

def scanValue : Nat → List Char → Except ReadError (PyJson × List Char)
  | 0, _ => .error .decode
  | n + 1, s =>
    match s with
    | '"' :: rest => (Fallible.expect (scanString n rest) .decode).map fun p => (.str p.1, p.2)
    | '[' :: rest =>
      match skipSpace rest with
      | ']' :: rest => .ok (.list [], rest)
      | rest => (scanItems n rest).map fun p => (.list p.1, p.2)
    | '\x7b' :: rest =>
      match skipSpace rest with
      | '\x7d' :: rest => .ok (.obj [], rest)
      | rest => (scanFields n rest).map fun p => (.obj (p.1.foldl setField []), p.2)
    | s =>
      match scanLiteral s with
      | some p => .ok p
      | none => scanNumber float s

def scanItems : Nat → List Char → Except ReadError (List PyJson × List Char)
  | 0, _ => .error .decode
  | n + 1, s => do
    let (item, rest) ← scanValue n s
    match skipSpace rest with
    | ']' :: rest => .ok ([item], rest)
    | ',' :: rest => do
      let (items, rest) ← scanItems n (skipSpace rest)
      .ok (item :: items, rest)
    | _ => .error .decode

def scanFields : Nat → List Char → Except ReadError (List (List Nat × PyJson) × List Char)
  | 0, _ => .error .decode
  | n + 1, s => do
    let (key, rest) ← Fallible.expect (scanKey n s) .decode
    let (value, rest) ← scanValue n rest
    match skipSpace rest with
    | '\x7d' :: rest => .ok ([(key, value)], rest)
    | ',' :: rest => do
      let (fields, rest) ← scanFields n (skipSpace rest)
      .ok ((key, value) :: fields, rest)
    | _ => .error .decode

end

def loads (s : List Char) : Except ReadError PyJson := do
  let (v, rest) ← scanValue float (s.length + 1) (skipSpace s)
  if skipSpace rest = [] then .ok v else .error .decode

end Reader

section Agreement

mutual

/-- The same value with its strings as code points. -/
def wide : Json → PyJson
  | .null => .null
  | .bool b => .bool b
  | .int n => .int n
  | .float text => .float text
  | .str s => .str (codePoints s)
  | .list items => .list (wideItems items)
  | .obj fields => .obj (wideFields fields)

def wideItems : List Json → List PyJson
  | [] => []
  | item :: items => wide item :: wideItems items

def wideFields : List (String × Json) → List (List Nat × PyJson)
  | [] => []
  | (key, value) :: fields => (codePoints key, wide value) :: wideFields fields

end

lemma text?_codePoints (s : String) : text? (codePoints s) = some s := by
  have hall : (codePoints s).all (fun u => !(isHighSurrogate u || isLowSurrogate u)) = true := by
    rw [List.all_eq_true]
    intro u hu
    obtain ⟨c, -, rfl⟩ := List.mem_map.mp hu
    have hvalid := c.valid
    simp only [isHighSurrogate, isLowSurrogate, Char.toNat, Bool.not_eq_true', Bool.or_eq_false_iff, decide_eq_false_iff_not]
    rcases hvalid with h | h <;> constructor <;> intro hc <;> simp only [UInt32.toNat] at * <;> omega
  rw [text?, if_pos hall, codePoints, List.map_map]
  have hid : Char.ofNat ∘ Char.toNat = id := funext Char.ofNat_toNat
  rw [hid, List.map_id, String.ofList_toList]

lemma codePoints_inj {s t : String} (h : codePoints s = codePoints t) : s = t := by
  have hs := text?_codePoints s
  rw [h, text?_codePoints] at hs
  exact (Option.some.inj hs).symm

mutual

lemma narrow_wide : (v : Json) → narrow (wide v) = some v
  | .null => rfl
  | .bool _ => rfl
  | .int _ => rfl
  | .float _ => rfl
  | .str s => by rw [wide, narrow, text?_codePoints]; rfl
  | .list items => by rw [wide, narrow, narrowItems_wide]; rfl
  | .obj fields => by rw [wide, narrow, narrowFields_wide]; rfl

lemma narrowItems_wide : (items : List Json) → narrowItems (wideItems items) = some items
  | [] => rfl
  | item :: items => by rw [wideItems, narrowItems, narrow_wide, narrowItems_wide]; rfl

lemma narrowFields_wide : (fields : List (String × Json)) → narrowFields (wideFields fields) = some fields
  | [] => rfl
  | (key, value) :: fields => by
    rw [wideFields, narrowFields, text?_codePoints, narrow_wide, narrowFields_wide]; rfl

end

lemma wideFields_eq_map (fields : List (String × Json)) :
    wideFields fields = fields.map fun p => (codePoints p.1, wide p.2) := by
  induction fields with
  | nil => rfl
  | cons p fields ih => rw [wideFields, ih, List.map_cons]

lemma setField_wide (fields : List (String × Json)) (p : String × Json) :
    wideFields (Json.setField fields p) = setField (wideFields fields) (codePoints p.1, wide p.2) := by
  have hmem : codePoints p.1 ∈ (wideFields fields).map (·.1) ↔ p.1 ∈ fields.map (·.1) := by
    rw [wideFields_eq_map, List.map_map]
    simp only [List.mem_map, Function.comp_apply]
    constructor
    · rintro ⟨q, hq, heq⟩
      exact ⟨q, hq, codePoints_inj heq⟩
    · rintro ⟨q, hq, heq⟩
      exact ⟨q, hq, congrArg codePoints heq⟩
  rw [Json.setField, setField]
  by_cases h : p.1 ∈ fields.map (·.1)
  · rw [if_pos h, if_pos (hmem.mpr h), wideFields_eq_map, wideFields_eq_map, List.map_map, List.map_map]
    refine List.map_congr_left fun q _ => ?_
    simp only [Function.comp_apply]
    by_cases hq : q.1 = p.1
    · rw [if_pos hq, if_pos (congrArg codePoints hq)]
    · rw [if_neg hq, if_neg fun heq => hq (codePoints_inj heq)]
  · rw [if_neg h, if_neg (fun hw => h (hmem.mp hw)), wideFields_eq_map, wideFields_eq_map, List.map_append]
    rfl

lemma foldl_setField_wide (pairs fields : List (String × Json)) :
    wideFields (pairs.foldl Json.setField fields) = (wideFields pairs).foldl setField (wideFields fields) := by
  induction pairs generalizing fields with
  | nil => rfl
  | cons p pairs ih => rw [List.foldl_cons, ih, setField_wide, wideFields, List.foldl_cons]

lemma lookup_wide (fields : List (String × Json)) (key : String) :
    (wideFields fields).lookup (codePoints key) = (fields.lookup key).map wide := by
  induction fields with
  | nil => rfl
  | cons p fields ih =>
    rw [wideFields, List.lookup_cons, List.lookup_cons, ih]
    by_cases hp : key = p.1
    · subst hp
      simp
    · have hne : codePoints key ≠ codePoints p.1 := fun h => hp (codePoints_inj h)
      rw [beq_false_of_ne hp, beq_false_of_ne hne]

lemma get_wide (v : Json) (key : String) : (wide v).get key = wide (v.get key) := by
  cases v with
  | obj fields =>
    rw [wide, get, lookup_wide, Json.get]
    cases fields.lookup key <;> rfl
  | _ => rfl

lemma codeUnit?_lt {a b c d : Char} {u : Nat} (h : codeUnit? a b c d = some u) : u < 0x10000 := by
  have hdigit : ∀ {c : Char} {n : Nat}, Json.hexValue? c = some n → n < 16 := by
    intro c n hc
    have h9 : '9'.toNat = 57 := rfl
    have hf : 'f'.toNat = 102 := rfl
    have hF : 'F'.toNat = 70 := rfl
    have hle : ∀ x y : Char, x ≤ y → x.toNat ≤ y.toNat := fun x y h => h
    unfold Json.hexValue? at hc
    split_ifs at hc with hd hl hu
    · cases hc
      have := hle _ _ hd.2
      omega
    · cases hc
      have := hle _ _ hl.2
      omega
    · cases hc
      have := hle _ _ hu.2
      omega
  simp only [codeUnit?, Option.bind_eq_bind, Option.bind_eq_some_iff, Option.pure_def, Option.some.injEq] at h
  obtain ⟨a', ha, b', hb, c', hc, d', hd, rfl⟩ := h
  have := hdigit ha
  have := hdigit hb
  have := hdigit hc
  have := hdigit hd
  omega

lemma toNat_ofNat {u : Nat} (h : u.isValidChar) : (Char.ofNat u).toNat = u := by
  rw [Char.ofNat, dif_pos h]
  rfl

lemma unicodeEscape?_wide {s rest : List Char} {c : Char} (h : Json.unicodeEscape? s = some (c, rest)) :
    unicodeEscape? s = some (c.toNat, rest) := by
  unfold Json.unicodeEscape? at h
  split at h
  · rename_i x y z w tail
    obtain ⟨u, hu, h⟩ := Option.bind_eq_some_iff.mp h
    have hlt := codeUnit?_lt hu
    rw [unicodeEscape?, hu]
    by_cases hhigh : isHighSurrogate u
    · simp only [hhigh, if_true] at h
      split at h
      · rename_i x' y' z' w' behind
        obtain ⟨l, hl, h⟩ := Option.bind_eq_some_iff.mp h
        by_cases hlow : isLowSurrogate l
        · simp only [hlow, if_true, Option.some.injEq, Prod.mk.injEq] at h
          obtain ⟨rfl, rfl⟩ := h
          simp only [isHighSurrogate, isLowSurrogate, decide_eq_true_eq] at hhigh hlow
          rw [toNat_ofNat (Or.inr (by omega))]
          simp [hl, isHighSurrogate, isLowSurrogate, hhigh, hlow]
        · simp [hlow] at h
      · cases h
    · simp only [hhigh] at h
      by_cases hlow : isLowSurrogate u
      · simp [hlow] at h
      · simp only [hlow] at h
        cases h
        simp only [isHighSurrogate, isLowSurrogate, decide_eq_true_eq] at hhigh hlow
        rw [toNat_ofNat (by unfold Nat.isValidChar; omega)]
        simp [isHighSurrogate, hhigh]
  · cases h

lemma scanString_wide {n : Nat} {s rest : List Char} {cs : List Char} (h : Json.scanString n s = some (cs, rest)) :
    scanString n s = some (cs.map Char.toNat, rest) := by
  induction n generalizing s cs with
  | zero => cases h
  | succ n ih =>
    cases s with
    | nil => cases h
    | cons c tail =>
      simp only [Json.scanString] at h
      simp only [scanString]
      by_cases hquote : c = '"'
      · rw [if_pos hquote] at h ⊢
        cases h
        rfl
      · rw [if_neg hquote] at h ⊢
        by_cases hslash : c = '\\'
        · rw [if_pos hslash] at h ⊢
          cases tail with
          | nil => cases h
          | cons e tail =>
            simp only at h ⊢
            by_cases hu : e = 'u'
            · rw [if_pos hu] at h ⊢
              obtain ⟨⟨d, behind⟩, hescape, h⟩ := Option.bind_eq_some_iff.mp h
              obtain ⟨⟨ds, behind'⟩, hscan, h⟩ := Option.bind_eq_some_iff.mp h
              cases h
              simp [unicodeEscape?_wide hescape, ih hscan]
            · rw [if_neg hu] at h ⊢
              obtain ⟨d, hescape, h⟩ := Option.bind_eq_some_iff.mp h
              obtain ⟨⟨ds, behind'⟩, hscan, h⟩ := Option.bind_eq_some_iff.mp h
              cases h
              simp [hescape, ih hscan]
        · rw [if_neg hslash] at h ⊢
          by_cases hcontrol : c.toNat < 32
          · rw [if_pos hcontrol] at h
            cases h
          · rw [if_neg hcontrol] at h ⊢
            obtain ⟨⟨ds, behind'⟩, hscan, h⟩ := Option.bind_eq_some_iff.mp h
            cases h
            simp [ih hscan]

lemma scanKey_wide {n : Nat} {s rest : List Char} {key : String} (h : Json.scanKey n s = some (key, rest)) :
    scanKey n s = some (codePoints key, rest) := by
  unfold Json.scanKey at h
  split at h
  · rename_i tail
    obtain ⟨⟨cs, behind⟩, hscan, h⟩ := Option.bind_eq_some_iff.mp h
    simp only at h
    rw [scanKey, scanString_wide hscan]
    split at h
    · rename_i behind' hcolon
      cases h
      simp [hcolon, codePoints]
    · cases h
  · cases h

variable {float : String → String}

lemma scanNumber_wide {s rest : List Char} {v : Json} (h : Json.scanNumber float s = some (v, rest)) :
    scanNumber float s = .ok (wide v, rest) := by
  obtain ⟨⟨digits, behind⟩, hdigits, h⟩ := Option.bind_eq_some_iff.mp h
  rw [scanNumber, hdigits]
  simp only [Fallible.expect, bind, Except.bind] at h ⊢
  split at h
  · rename_i hint
    rw [if_pos hint]
    split at h
    · rename_i hmax
      rw [if_pos hmax]
      cases h
      rfl
    · cases h
  · rename_i hfloat
    rw [if_neg hfloat]
    cases h
    rfl

lemma scanLiteral_wide {s rest : List Char} {v : Json} (h : Json.scanLiteral s = some (v, rest)) :
    scanLiteral s = some (wide v, rest) := by
  obtain ⟨l, hl, heq⟩ := Option.map_eq_some_iff.mp h
  cases heq
  rw [scanLiteral, hl]
  have hall : ∀ l ∈ literals, literal l.2 = wide l.2 := by simp [literals, literal, wide]
  simp [hall l (List.mem_of_find?_eq_some hl)]

lemma scanLiteral_none {s : List Char} (h : Json.scanLiteral s = none) : scanLiteral s = none := by
  rw [Json.scanLiteral, Option.map_eq_none_iff] at h
  rw [scanLiteral, h]
  rfl

/-- The values, items and fields that are read of one amount of fuel. -/
structure ScansWide (float : String → String) (n : Nat) : Prop where
  value : ∀ {s rest v}, Json.scanValue float n s = some (v, rest) → scanValue float n s = .ok (wide v, rest)
  items : ∀ {s rest items}, Json.scanItems float n s = some (items, rest) →
    scanItems float n s = .ok (wideItems items, rest)
  fields : ∀ {s rest fields}, Json.scanFields float n s = some (fields, rest) →
    scanFields float n s = .ok (wideFields fields, rest)

lemma scanValue_wide {n : Nat} (ih : ScansWide float n) {s rest : List Char} {v : Json}
    (h : Json.scanValue float (n + 1) s = some (v, rest)) : scanValue float (n + 1) s = .ok (wide v, rest) := by
  rw [Json.scanValue.eq_def] at h
  simp only at h
  split at h
  · obtain ⟨⟨cs, behind⟩, hscan, heq⟩ := Option.map_eq_some_iff.mp h
    cases heq
    simp [scanValue, scanString_wide hscan, Fallible.expect, Except.map, wide, codePoints]
  · rw [scanValue]
    split at h
    · rename_i hclose
      cases h
      simp [hclose, wide, wideItems]
    · rename_i hopen
      obtain ⟨⟨items, behind⟩, hscan, heq⟩ := Option.map_eq_some_iff.mp h
      cases heq
      have hitems := congrArg (Except.map fun p : List PyJson × List Char => (list p.1, p.2)) (ih.items hscan)
      -- the match on the goal may be the one that is split already
      first
      | exact hitems
      | split
        · rename_i hclose
          exact absurd hclose (hopen _)
        · exact hitems
  · rw [scanValue]
    split at h
    · rename_i hclose
      cases h
      simp [hclose, wide, wideFields]
    · rename_i hopen
      obtain ⟨⟨pairs, behind⟩, hscan, heq⟩ := Option.map_eq_some_iff.mp h
      cases heq
      have hfields := congrArg (Except.map fun p : List (List Nat × PyJson) × List Char => (obj (p.1.foldl setField []), p.2))
        (ih.fields hscan)
      rw [wide, foldl_setField_wide]
      first
      | exact hfields
      | split
        · rename_i hclose
          exact absurd hclose (hopen _)
        · exact hfields
  · rename_i hquote hlist hobj
    rw [scanValue]
    · cases hliteral : Json.scanLiteral s with
      | some p =>
        rw [hliteral] at h
        cases h
        rw [scanLiteral_wide hliteral]
      | none =>
        rw [hliteral] at h
        rw [scanLiteral_none hliteral]
        exact scanNumber_wide h
    · exact hquote
    · exact hlist
    · exact hobj

lemma scanItems_wide {n : Nat} (ih : ScansWide float n) {s rest : List Char} {items : List Json}
    (h : Json.scanItems float (n + 1) s = some (items, rest)) :
    scanItems float (n + 1) s = .ok (wideItems items, rest) := by
  rw [Json.scanItems] at h
  obtain ⟨⟨item, behind⟩, hscan, h⟩ := Option.bind_eq_some_iff.mp h
  simp only at h
  rw [scanItems, ih.value hscan]
  simp only [bind, Except.bind]
  split at h
  · rename_i hclose
    cases h
    simp [hclose, wideItems]
  · rename_i hcomma
    obtain ⟨⟨items', behind'⟩, hrest, h⟩ := Option.bind_eq_some_iff.mp h
    cases h
    simp [hcomma, ih.items hrest, wideItems]
  · cases h

lemma scanFields_wide {n : Nat} (ih : ScansWide float n) {s rest : List Char} {fields : List (String × Json)}
    (h : Json.scanFields float (n + 1) s = some (fields, rest)) :
    scanFields float (n + 1) s = .ok (wideFields fields, rest) := by
  rw [Json.scanFields] at h
  obtain ⟨⟨key, behind⟩, hkey, h⟩ := Option.bind_eq_some_iff.mp h
  obtain ⟨⟨value, behind'⟩, hscan, h⟩ := Option.bind_eq_some_iff.mp h
  simp only at h
  rw [scanFields, scanKey_wide hkey]
  simp only [Fallible.expect, bind, Except.bind, ih.value hscan]
  split at h
  · rename_i hclose
    cases h
    simp [hclose, wideFields]
  · rename_i hcomma
    obtain ⟨⟨fields', behind''⟩, hrest, h⟩ := Option.bind_eq_some_iff.mp h
    cases h
    simp [hcomma, ih.fields hrest, wideFields]
  · cases h

lemma scansWide (n : Nat) : ScansWide float n := by
  induction n with
  | zero =>
    constructor
    all_goals
      intro _ _ _ h
      simp [Json.scanValue, Json.scanItems, Json.scanFields] at h
  | succ n ih => exact ⟨scanValue_wide ih, scanItems_wide ih, scanFields_wide ih⟩

/-- A text that is read as a value of texts is read as the same value. -/
lemma loads_wide {s : List Char} {v : Json} (h : Json.loads float s = some v) : loads float s = .ok (wide v) := by
  obtain ⟨⟨w, rest⟩, hscan, h⟩ := Option.bind_eq_some_iff.mp h
  simp only at h
  rw [loads, (scansWide _).value hscan]
  simp only [bind, Except.bind]
  split at h
  · rename_i hend
    cases h
    rw [if_pos hend]
  · cases h

end Agreement

end PyJson

end PlatformGitops.Library
