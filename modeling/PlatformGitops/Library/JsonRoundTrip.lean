import PlatformGitops.Library.JsonText
import Mathlib.Data.List.TakeWhile
import Mathlib.Tactic.IntervalCases

/-! A text that the writer makes is read back as the value with sorted keys. -/

namespace PlatformGitops.Library.Json

lemma memInduction {P : Json → Prop} (null : P .null) (bool : ∀ b, P (.bool b)) (int : ∀ n, P (.int n))
    (float : ∀ text, P (.float text)) (str : ∀ s, P (.str s))
    (list : ∀ items, (∀ v ∈ items, P v) → P (.list items))
    (obj : ∀ fields, (∀ p ∈ fields, P p.2) → P (.obj fields)) (v : Json) : P v := by
  refine @Json.rec P (fun items => ∀ v ∈ items, P v) (fun fields => ∀ p ∈ fields, P p.2) (fun p => P p.2)
    null bool int float str list obj ?_ ?_ ?_ ?_ ?_ v
  · simp
  · intro head tail hhead htail v hv
    rcases List.mem_cons.mp hv with rfl | hv
    · exact hhead
    · exact htail v hv
  · simp
  · intro head tail hhead htail p hp
    rcases List.mem_cons.mp hp with rfl | hp
    · exact hhead
    · exact htail p hp
  · intro key value hvalue
    exact hvalue

section

variable (le : String → String → Bool)

lemma dumpsItems_eq (items : List Json) : dumpsItems le items = items.map (dumps le) := by
  induction items with
  | nil => rfl
  | cons item items ih => simp [dumpsItems, ih]

lemma dumpsFields_eq (fields : List (String × Json)) :
    dumpsFields le fields = fields.map fun p => (p.1, dumps le p.2) := by
  induction fields with
  | nil => rfl
  | cons p fields ih => simp [dumpsFields, ih]

lemma sortItems_eq (items : List Json) : sortItems le items = items.map (sortKeys le) := by
  induction items with
  | nil => rfl
  | cons item items ih => simp [sortItems, ih]

lemma sortFields_eq (fields : List (String × Json)) :
    sortFields le fields = fields.map fun p => (p.1, sortKeys le p.2) := by
  induction fields with
  | nil => rfl
  | cons p fields ih => simp [sortFields, ih]

/-- The fields of an object in the order of their keys. -/
def inOrder {α : Type} (fields : List (String × α)) : List (String × α) :=
  fields.insertionSort fun p q => le p.1 q.1

lemma inOrder_map {α β : Type} (f : α → β) (fields : List (String × α)) :
    inOrder le (fields.map fun p => (p.1, f p.2)) = (inOrder le fields).map fun p => (p.1, f p.2) := by
  refine (List.map_insertionSort _ _ _ fields ?_).symm
  intro a _ b _
  rfl

lemma dumps_list (items : List Json) : dumps le (.list items) = joinItems (items.map (dumps le)) := by
  rw [dumps, dumpsItems_eq]

lemma dumps_obj (fields : List (String × Json)) :
    dumps le (.obj fields) = joinFields ((inOrder le fields).map fun p => (p.1, dumps le p.2)) := by
  rw [dumps, dumpsFields_eq, ← inOrder_map]
  rfl

lemma sortKeys_list (items : List Json) : sortKeys le (.list items) = .list (items.map (sortKeys le)) := by
  rw [sortKeys, sortItems_eq]

lemma sortKeys_obj (fields : List (String × Json)) :
    sortKeys le (.obj fields) = .obj ((inOrder le fields).map fun p => (p.1, sortKeys le p.2)) := by
  rw [sortKeys, sortFields_eq, ← inOrder_map]
  rfl

end

mutual

/-- Every value inside a value, itself included, has the property. -/
def All (P : Json → Prop) : Json → Prop
  | .list items => P (.list items) ∧ AllItems P items
  | .obj fields => P (.obj fields) ∧ AllFields P fields
  | v => P v

def AllItems (P : Json → Prop) : List Json → Prop
  | [] => True
  | item :: items => All P item ∧ AllItems P items

def AllFields (P : Json → Prop) : List (String × Json) → Prop
  | [] => True
  | (_, value) :: fields => All P value ∧ AllFields P fields

end

section

variable {P Q : Json → Prop}

lemma allItems_iff {items : List Json} : AllItems P items ↔ ∀ v ∈ items, All P v := by
  induction items with
  | nil => simp [AllItems]
  | cons item items ih => simp [AllItems, ih]

lemma allFields_iff {fields : List (String × Json)} : AllFields P fields ↔ ∀ p ∈ fields, All P p.2 := by
  induction fields with
  | nil => simp [AllFields]
  | cons p fields ih => simp [AllFields, ih]

lemma all_list {items : List Json} : All P (.list items) ↔ P (.list items) ∧ ∀ v ∈ items, All P v := by
  rw [All, allItems_iff]

lemma all_obj {fields : List (String × Json)} :
    All P (.obj fields) ↔ P (.obj fields) ∧ ∀ p ∈ fields, All P p.2 := by
  rw [All, allFields_iff]

lemma All.self {v : Json} (h : All P v) : P v := by
  cases v <;> simp only [All] at h <;> first | exact h.1 | exact h

lemma All.imp (hPQ : ∀ v, P v → Q v) {v : Json} (h : All P v) : All Q v := by
  induction v using memInduction with
  | list items ih =>
    rw [all_list] at h ⊢
    exact ⟨hPQ _ h.1, fun v hv => ih v hv (h.2 v hv)⟩
  | obj fields ih =>
    rw [all_obj] at h ⊢
    exact ⟨hPQ _ h.1, fun p hp => ih p hp (h.2 p hp)⟩
  | _ => exact hPQ _ h

lemma All.and {v : Json} (hP : All P v) (hQ : All Q v) : All (fun w => P w ∧ Q w) v := by
  induction v using memInduction with
  | list items ih =>
    rw [all_list] at hP hQ ⊢
    exact ⟨⟨hP.1, hQ.1⟩, fun v hv => ih v hv (hP.2 v hv) (hQ.2 v hv)⟩
  | obj fields ih =>
    rw [all_obj] at hP hQ ⊢
    exact ⟨⟨hP.1, hQ.1⟩, fun p hp => ih p hp (hP.2 p hp) (hQ.2 p hp)⟩
  | _ => exact ⟨hP, hQ⟩

end

/-- The keys of an object are distinct, as those of a map are. -/
def DistinctKeys : Json → Prop
  | .obj fields => (fields.map (·.1)).Nodup
  | _ => True

/-- A value that a program can hold: a map has each key once. -/
def Distinct (v : Json) : Prop := All DistinctKeys v

section Strings

lemma hexValue?_hexDigit : ∀ n, n < 16 → hexValue? (hexDigit n) = some n := by
  decide

lemma codeUnit?_control {n : Nat} (h : n < 32) :
    codeUnit? '0' '0' (hexDigit (n / 16)) (hexDigit (n % 16)) = some n := by
  have hzero : hexValue? '0' = some 0 := by decide
  have hhigh := hexValue?_hexDigit (n / 16) (by omega)
  have hlow := hexValue?_hexDigit (n % 16) (by omega)
  simp only [codeUnit?, hzero, hhigh, hlow, Option.pure_def, Option.bind_eq_bind, Option.bind_some, Option.some.injEq]
  omega

lemma unicodeEscape?_control {c : Char} (h : c.toNat < 32) (rest : List Char) :
    unicodeEscape? ('0' :: '0' :: hexDigit (c.toNat / 16) :: hexDigit (c.toNat % 16) :: rest) = some (c, rest) := by
  have hhigh : isHighSurrogate c.toNat = false := by simp [isHighSurrogate]; omega
  have hlow : isLowSurrogate c.toNat = false := by simp [isLowSurrogate]; omega
  simp [unicodeEscape?, codeUnit?_control h, hhigh, hlow, Char.ofNat_toNat]

lemma toNat_injective {c : Char} {n : Nat} (h : c.toNat = n) : c = Char.ofNat n := by
  rw [← h, Char.ofNat_toNat]

/-- Each character is read back from its escape. -/
lemma scanString_escape (c : Char) (n : Nat) (rest : List Char) :
    scanString (n + 1) (escapeChar c ++ rest) = (scanString n rest).map fun p => (c :: p.1, p.2) := by
  have hshort : ∀ e, escaped? e = some c → e ≠ 'u' →
      scanString (n + 1) ('\\' :: e :: rest) = (scanString n rest).map fun p => (c :: p.1, p.2) := by
    intro e he hu
    simp only [scanString, if_false, hu, he]
    cases scanString n rest <;> rfl
  unfold escapeChar
  split
  · exact hshort '"' rfl (by decide)
  · exact hshort '\\' rfl (by decide)
  · exact hshort 'n' rfl (by decide)
  · exact hshort 'r' rfl (by decide)
  · exact hshort 't' rfl (by decide)
  · rename_i hquote hslash _ _ _
    split
    · rename_i h8
      exact hshort 'b' (by rw [toNat_injective h8]; rfl) (by decide)
    · split
      · rename_i h12
        exact hshort 'f' (by rw [toNat_injective h12]; rfl) (by decide)
      · split
        · rename_i hcontrol
          have hne : '\\' ≠ '"' := by decide
          simp only [List.cons_append, List.nil_append, scanString, hne, if_false, if_true,
            unicodeEscape?_control hcontrol, Option.bind_eq_bind, Option.bind_some]
          cases scanString n rest <;> rfl
        · rename_i hplain
          have hne : c ≠ '"' := fun h => hquote h
          have hne' : c ≠ '\\' := fun h => hslash h
          simp only [List.cons_append, List.nil_append, scanString, hne, hne', hplain, if_false]
          cases scanString n rest <;> rfl

lemma length_escapeChar (c : Char) : 1 ≤ (escapeChar c).length := by
  unfold escapeChar
  split <;> try simp
  split <;> try simp
  split <;> try simp
  split <;> simp

lemma scanString_dumps {cs rest : List Char} {n : Nat} (hn : (cs.flatMap escapeChar).length < n) :
    scanString n (cs.flatMap escapeChar ++ '"' :: rest) = some (cs, rest) := by
  induction cs generalizing n with
  | nil =>
    obtain ⟨m, rfl⟩ : ∃ m, n = m + 1 := ⟨n - 1, by simp at hn; omega⟩
    simp [scanString]
  | cons c cs ih =>
    have hc := length_escapeChar c
    simp only [List.flatMap_cons, List.length_append] at hn
    obtain ⟨m, rfl⟩ : ∃ m, n = m + 1 := ⟨n - 1, by omega⟩
    rw [List.flatMap_cons, List.append_assoc, scanString_escape, ih (by omega)]
    rfl

end Strings

section Numbers

variable {float : String → String}

def isNumberChar (c : Char) : Bool := c.isDigit ∨ c ∈ ['-', '+', '.', 'e', 'E']

/-- What may follow a value inside a text. -/
def Ends (rest : List Char) : Prop := ∀ c ∈ rest.head?, c = ',' ∨ c = ']' ∨ c = '\x7d'

/-- A text that does not continue a number. -/
def Stops (rest : List Char) : Prop := ∀ c ∈ rest.head?, isNumberChar c = false

variable {s rest : List Char}

lemma Ends.stops (h : Ends rest) : Stops rest := by
  intro c hc
  rcases h c hc with rfl | rfl | rfl <;> decide

lemma digitsOf_append (h : Stops rest) : digitsOf (s ++ rest) = ((digitsOf s).1, (digitsOf s).2 ++ rest) := by
  unfold digitsOf
  induction s with
  | nil =>
    cases rest with
    | nil => rfl
    | cons c rest =>
      have hc : c.isDigit = false := by
        have hnumber := h c rfl
        simp only [isNumberChar, decide_eq_false_iff_not, not_or] at hnumber
        exact Bool.eq_false_iff.mpr hnumber.1
      simp [hc]
  | cons c s ih =>
    by_cases hc : c.isDigit = true
    · simp only [List.cons_append, List.takeWhile_cons, List.dropWhile_cons, hc, if_true]
      simp only [Prod.mk.injEq] at ih ⊢
      exact ⟨congrArg _ ih.1, ih.2⟩
    · simp [hc]

lemma head?_append_eq {c : Char} (h : Stops rest) (hc : isNumberChar c = true) :
    (s ++ rest).head? = some c ↔ s.head? = some c := by
  cases s with
  | nil =>
    refine ⟨fun hr => ?_, fun hs => by cases hs⟩
    rw [h c hr] at hc
    cases hc
  | cons d s => simp

lemma tail_append_eq {c : Char} (hs : s.head? = some c) :
    (s ++ rest).tail = s.tail ++ rest ∧ (s ++ rest).take 1 = s.take 1 := by
  cases s with
  | nil => cases hs
  | cons d s => simp

lemma integerPart?_append (h : Stops rest) :
    integerPart? (s ++ rest) = (integerPart? s).map fun out => (out.1, out.2 ++ rest) := by
  have hhead : (s ++ rest).head? = some '0' ↔ s.head? = some '0' := head?_append_eq h (by decide)
  simp only [integerPart?, hhead, digitsOf_append h]
  by_cases hzero : s.head? = some '0'
  · rw [if_pos hzero, if_pos hzero, (tail_append_eq hzero).1]
    rfl
  · rw [if_neg hzero, if_neg hzero]
    split <;> rfl

lemma fractionPart_append (h : Stops rest) :
    fractionPart (s ++ rest) = ((fractionPart s).1, (fractionPart s).2 ++ rest) := by
  have hhead : (s ++ rest).head? = some '.' ↔ s.head? = some '.' := head?_append_eq h (by decide)
  simp only [fractionPart, hhead]
  by_cases hdot : s.head? = some '.'
  · simp only [(tail_append_eq hdot).1, digitsOf_append h]
    by_cases hd : (digitsOf s.tail).1 = [] <;> simp [hdot, hd]
  · simp [hdot]

lemma signPart_append (h : Stops rest) : signPart (s ++ rest) = ((signPart s).1, (signPart s).2 ++ rest) := by
  have hplus : (s ++ rest).head? = some '+' ↔ s.head? = some '+' := head?_append_eq h (by decide)
  have hminus : (s ++ rest).head? = some '-' ↔ s.head? = some '-' := head?_append_eq h (by decide)
  simp only [signPart, hplus, hminus]
  split
  · rename_i hsign
    rcases hsign with hs | hs <;> rw [(tail_append_eq hs).1, (tail_append_eq hs).2]
  · rfl

lemma exponentPart_append (h : Stops rest) :
    exponentPart (s ++ rest) = ((exponentPart s).1, (exponentPart s).2 ++ rest) := by
  have hlower : (s ++ rest).head? = some 'e' ↔ s.head? = some 'e' := head?_append_eq h (by decide)
  have hupper : (s ++ rest).head? = some 'E' ↔ s.head? = some 'E' := head?_append_eq h (by decide)
  simp only [exponentPart, hlower, hupper]
  by_cases he : s.head? = some 'e' ∨ s.head? = some 'E'
  · have htail : (s ++ rest).tail = s.tail ++ rest ∧ (s ++ rest).take 1 = s.take 1 := by
      rcases he with hs | hs <;> exact tail_append_eq hs
    simp only [htail.1, htail.2, signPart_append h, digitsOf_append h]
    by_cases hd : (digitsOf (signPart s.tail).2).1 = [] <;> simp [he, hd]
  · simp [he]

lemma minusPart_append (h : Stops rest) : minusPart (s ++ rest) = ((minusPart s).1, (minusPart s).2 ++ rest) := by
  have hminus : (s ++ rest).head? = some '-' ↔ s.head? = some '-' := head?_append_eq h (by decide)
  simp only [minusPart, hminus]
  split
  · rename_i hs
    rw [(tail_append_eq hs).1]
  · rfl

/-- A number is read the same with more text after it that does not continue it. -/
lemma scanNumber_append (h : Stops rest) :
    scanNumber float (s ++ rest) = (scanNumber float s).map fun p => (p.1, p.2 ++ rest) := by
  unfold scanNumber
  rw [minusPart_append h]
  simp only [integerPart?_append h, Option.bind_eq_bind]
  cases integerPart? (minusPart s).2 with
  | none => rfl
  | some out =>
    simp only [Option.map_some, Option.bind_some, fractionPart_append h, exponentPart_append h]
    split
    · split <;> rfl
    · rfl

end Numbers

section Leaves

variable {float : String → String} {rest : List Char}

lemma head?_toDigits {m : Nat} (h : 0 < m) : (Nat.toDigits 10 m).head? ≠ some '0' := by
  induction m using Nat.strongRecOn with
  | ind m ih =>
    by_cases hm : m < 10
    · rw [Nat.toDigits_of_lt_base hm]
      interval_cases m <;> decide
    · rw [Nat.toDigits_of_base_le (by decide) (by omega), List.head?_append_of_ne_nil _ Nat.toDigits_ne_nil]
      exact ih (m / 10) (by omega) (by omega)

lemma integerPart?_toDigits (m : Nat) : integerPart? (Nat.toDigits 10 m) = some (Nat.toDigits 10 m, []) := by
  rcases Nat.eq_zero_or_pos m with rfl | hm
  · simp [integerPart?]
  · have hdigits : ∀ c ∈ Nat.toDigits 10 m, c.isDigit = true :=
      fun c hc => Nat.isDigit_of_mem_toDigits (by decide) (by decide) hc
    have hspan : digitsOf (Nat.toDigits 10 m) = (Nat.toDigits 10 m, []) := by
      rw [digitsOf, List.takeWhile_eq_self_iff.mpr hdigits, List.dropWhile_eq_nil_iff.mpr hdigits]
    rw [integerPart?, if_neg (head?_toDigits hm), hspan, if_neg Nat.toDigits_ne_nil]

lemma fractionPart_nil : fractionPart [] = ([], []) := rfl

lemma exponentPart_nil : exponentPart [] = ([], []) := rfl

lemma toList_toString_int (n : Int) :
    (toString n).toList = (if n < 0 then ['-'] else []) ++ Nat.toDigits 10 n.natAbs := by
  cases n with
  | ofNat m =>
    have hneg : ¬ Int.ofNat m < 0 := by simp
    rw [if_neg hneg, List.nil_append, ← Nat.toList_repr]
    rfl
  | negSucc m =>
    have hneg : Int.negSucc m < 0 := Int.negSucc_lt_zero m
    rw [if_pos hneg, ← Nat.toList_repr]
    change ("-" ++ (m + 1).repr).toList = _
    rw [String.toList_append]
    rfl

lemma scanNumber_int {n : Int} (h : n.natAbs < 10 ^ maxIntDigits) :
    scanNumber float (toString n).toList = some (.int n, []) := by
  have hlen : (Nat.toDigits 10 n.natAbs).length ≤ maxIntDigits :=
    (Nat.length_toDigits_le_iff (by decide) (by decide)).mpr h
  have hminus : minusPart (toString n).toList = ((if n < 0 then ['-'] else []), Nat.toDigits 10 n.natAbs) := by
    rw [toList_toString_int]
    split
    · rfl
    · have hne : (Nat.toDigits 10 n.natAbs).head? ≠ some '-' := by
        intro hhead
        have := Nat.isDigit_of_mem_toDigits (b := 10) (by decide) (by decide) (List.mem_of_mem_head? hhead)
        exact absurd this (by decide)
      rw [List.nil_append, minusPart, if_neg hne]
  simp only [scanNumber, hminus, integerPart?_toDigits, Option.bind_eq_bind, Option.bind_some, fractionPart_nil,
    exponentPart_nil, and_self, if_true, hlen, Nat.ofDigitChars_ten_toDigits]
  by_cases hn : n < 0
  · simp only [hn, if_true, reduceCtorEq, if_false, Option.some.injEq, Prod.mk.injEq, Json.int.injEq, and_true]
    omega
  · simp only [hn, if_false, if_true, Option.some.injEq, Prod.mk.injEq, Json.int.injEq, and_true]
    omega

/-- A text that starts a number starts nothing else. -/
lemma scanNumber_head {s : List Char} {out : Json × List Char} (h : scanNumber float s = some out) :
    ∃ c more, s = c :: more ∧ (c.isDigit ∨ c = '-' ∧ ∃ d more', more = d :: more' ∧ d.isDigit) := by
  obtain ⟨⟨digits, more⟩, hint, -⟩ := Option.bind_eq_some_iff.mp h
  have hdigit : ∀ t : List Char, integerPart? t = some (digits, more) → ∃ d t', t = d :: t' ∧ d.isDigit := by
    intro t ht
    cases t with
    | nil => simp [integerPart?, digitsOf] at ht
    | cons d t' =>
      refine ⟨d, t', rfl, ?_⟩
      by_contra hd
      have hzero : d ≠ '0' := by
        rintro rfl
        exact hd rfl
      simp [integerPart?, digitsOf, hd, hzero] at ht
  cases s with
  | nil =>
    obtain ⟨d, t', ht, -⟩ := hdigit _ hint
    simp [minusPart] at ht
  | cons c s =>
    by_cases hc : c = '-'
    · subst hc
      obtain ⟨d, t', ht, hd⟩ := hdigit _ hint
      exact ⟨'-', s, rfl, .inr ⟨rfl, d, t', by simpa [minusPart] using ht, hd⟩⟩
    · obtain ⟨d, t', ht, hd⟩ := hdigit _ hint
      obtain ⟨rfl, -⟩ : c = d ∧ s = t' := by simpa [minusPart, hc] using ht
      exact ⟨c, s, rfl, .inl hd⟩

lemma scanLiteral_number {s : List Char} {out : Json × List Char} (h : scanNumber float s = some out) :
    scanLiteral s = none := by
  obtain ⟨c, more, rfl, hc⟩ := scanNumber_head h
  simp only [scanLiteral, Option.map_eq_none_iff, List.find?_eq_none]
  intro l hl hstart
  simp only [literals, List.mem_cons, List.not_mem_nil, or_false] at hl
  rcases hl with rfl | rfl | rfl | rfl | rfl | rfl <;>
    simp only [String.reduceToList, List.isPrefixOf, Bool.and_eq_true, beq_iff_eq] at hstart <;>
    obtain ⟨rfl, hmore⟩ := hstart <;>
    rcases hc with hc | ⟨hc, d, more', rfl, hd⟩ <;>
    first
    | exact absurd hc (by decide)
    | (simp only [List.isPrefixOf, Bool.and_eq_true, beq_iff_eq] at hmore
       obtain ⟨rfl, -⟩ := hmore
       exact absurd hd (by decide))

lemma scanValue_number {s : List Char} {v : Json} {r : List Char} {n : Nat} (h : Ends rest)
    (hs : scanNumber float s = some (v, r)) : scanValue float (n + 1) (s ++ rest) = some (v, r ++ rest) := by
  have happend : scanNumber float (s ++ rest) = some (v, r ++ rest) := by
    rw [scanNumber_append h.stops, hs, Option.map_some]
  have hliteral := scanLiteral_number happend
  obtain ⟨c, more, hc, hdigit⟩ := scanNumber_head happend
  have hquote : c ≠ '"' ∧ c ≠ '[' ∧ c ≠ '\x7b' := by
    refine ⟨?_, ?_, ?_⟩ <;> rintro rfl <;> rcases hdigit with hd | ⟨hd, -⟩ <;> exact absurd hd (by decide)
  rw [hc] at happend hliteral ⊢
  rw [scanValue, hliteral, Option.none_or, happend]
  · exact fun _ heq => hquote.1 (List.cons.inj heq).1
  · exact fun _ heq => hquote.2.1 (List.cons.inj heq).1
  · exact fun _ heq => hquote.2.2 (List.cons.inj heq).1

lemma scanValue_literal {l : List Char × Json} {n : Nat} (hl : l ∈ literals) :
    scanValue float (n + 1) (l.1 ++ rest) = some (l.2, rest) := by
  simp only [literals, List.mem_cons, List.not_mem_nil, or_false] at hl
  rcases hl with rfl | rfl | rfl | rfl | rfl | rfl <;> rfl

end Leaves

/-- The text of a float is read back as it is. -/
def FloatText (float : String → String) (text : String) : Prop :=
  (text.toList, Json.float text) ∈ literals ∨ scanNumber float text.toList = some (.float text, [])

/-- A value that the reader can give: its objects are maps, its integers are not too long for it, and its floats are
given by the texts that are read back. -/
def Readable (float : String → String) : Json → Prop
  | .int n => n.natAbs < 10 ^ maxIntDigits
  | .float text => FloatText float text
  | .obj fields => (fields.map (·.1)).Nodup
  | _ => True

section Values

variable {le : String → String → Bool} {float : String → String}

lemma not_space {c : Char} (h : c.isDigit = true ∨ c = '-') : isSpace c = false ∧ c ≠ ']' ∧ c ≠ '\x7d' ∧ c.toNat < 128 := by
  refine ⟨?_, ?_, ?_, ?_⟩
  · by_contra hspace
    simp only [isSpace, Bool.not_eq_false, decide_eq_true_eq] at hspace
    rcases hspace with rfl | rfl | rfl | rfl <;> rcases h with h | h <;> exact absurd h (by decide)
  · rintro rfl
    rcases h with h | h <;> exact absurd h (by decide)
  · rintro rfl
    rcases h with h | h <;> exact absurd h (by decide)
  · rcases h with h | rfl
    · exact lt_of_le_of_lt (Char.isDigit_iff_toNat.mp h).2 (by decide)
    · decide

/-- The text of a value starts with an ASCII character that is neither space nor a closing bracket. -/
lemma dumps_head (le : String → String → Bool) {v : Json} (h : All (Readable float) v) :
    ∃ c more, dumps le v = c :: more ∧ isSpace c = false ∧ c ≠ ']' ∧ c ≠ '\x7d' ∧ c.toNat < 128 := by
  cases v with
  | null => exact ⟨'n', _, rfl, by decide, by decide, by decide, by decide⟩
  | bool b => cases b <;> exact ⟨_, _, rfl, by decide, by decide, by decide, by decide⟩
  | int n =>
    obtain ⟨c, more, hc, hdigit⟩ := scanNumber_head (@scanNumber_int float _ h.self)
    exact ⟨c, more, hc, not_space (hdigit.imp_right And.left)⟩
  | float text =>
    rcases h.self with hl | hn
    · simp only [literals, List.mem_cons, List.not_mem_nil, or_false, Prod.mk.injEq, reduceCtorEq, and_false,
        false_or] at hl
      rcases hl with ⟨hl, -⟩ | ⟨hl, -⟩ | ⟨hl, -⟩ <;> exact ⟨_, _, hl, by decide, by decide, by decide, by decide⟩
    · obtain ⟨c, more, hc, hdigit⟩ := scanNumber_head hn
      exact ⟨c, more, hc, not_space (hdigit.imp_right And.left)⟩
  | str s => exact ⟨'"', _, rfl, by decide, by decide, by decide, by decide⟩
  | list items =>
    rw [dumps_list]
    exact ⟨'[', _, rfl, by decide, by decide, by decide, by decide⟩
  | obj fields =>
    rw [dumps_obj]
    exact ⟨'\x7b', _, rfl, by decide, by decide, by decide, by decide⟩

lemma skipSpace_dumps (le : String → String → Bool) {v : Json} (h : All (Readable float) v) (rest : List Char) :
    skipSpace (dumps le v ++ rest) = dumps le v ++ rest := by
  obtain ⟨c, more, hc, hspace, -⟩ := dumps_head le h
  simp [skipSpace, hc, hspace]

lemma skipSpace_ends {rest : List Char} (h : Ends rest) : skipSpace rest = rest := by
  cases rest with
  | nil => rfl
  | cons c rest =>
    have hspace : isSpace c = false := by rcases h c rfl with rfl | rfl | rfl <;> rfl
    simp [skipSpace, hspace]

lemma intercalate_cons_cons {a b : List Char} {l : List (List Char)} :
    [','].intercalate (a :: b :: l) = a ++ ',' :: [','].intercalate (b :: l) := by
  simp [List.intercalate]

/-- The text of a value is read back, with enough fuel for it. -/
def ReadsBack (le : String → String → Bool) (float : String → String) (v : Json) : Prop :=
  ∀ n rest, (dumps le v).length ≤ n → Ends rest → scanValue float n (dumps le v ++ rest) = some (sortKeys le v, rest)

lemma ends_cons {c : Char} {rest : List Char} (h : c = ',' ∨ c = ']' ∨ c = '\x7d') : Ends (c :: rest) := by
  intro d hd
  cases hd
  exact h

lemma scanItems_dumps {items : List Json} (hread : ∀ v ∈ items, All (Readable float) v)
    (ih : ∀ v ∈ items, ReadsBack le float v) (hne : items ≠ []) {n : Nat} (rest : List Char)
    (hn : ([','].intercalate (items.map (dumps le))).length < n) :
    scanItems float n ([','].intercalate (items.map (dumps le)) ++ ']' :: rest) =
      some (items.map (sortKeys le), rest) := by
  induction items generalizing n with
  | nil => exact (hne rfl).elim
  | cons v items ihtail =>
    obtain ⟨m, rfl⟩ : ∃ m, n = m + 1 := ⟨n - 1, by omega⟩
    have hv := ih v List.mem_cons_self
    cases items with
    | nil =>
      have hsingle : [','].intercalate ([v].map (dumps le)) = dumps le v := by simp [List.intercalate]
      rw [hsingle] at hn ⊢
      rw [scanItems, hv m _ (by omega) (ends_cons (by decide))]
      rfl
    | cons w items =>
      simp only [List.map_cons, intercalate_cons_cons, List.length_append, List.length_cons] at hn
      have hstep := ihtail (fun u hu => hread u (List.mem_cons_of_mem _ hu))
        (fun u hu => ih u (List.mem_cons_of_mem _ hu)) (by simp) (n := m) (by simp only [List.map_cons]; omega)
      obtain ⟨c, more, hc, hspace, -⟩ := dumps_head le (hread w (by simp))
      have hskip : skipSpace ([','].intercalate ((w :: items).map (dumps le)) ++ ']' :: rest) =
          [','].intercalate ((w :: items).map (dumps le)) ++ ']' :: rest := by
        cases items <;> simp [skipSpace, List.intercalate, hc, hspace]
      rw [List.map_cons] at hstep hskip
      rw [List.map_cons, List.map_cons, intercalate_cons_cons, List.append_assoc, List.cons_append, scanItems,
        hv m _ (by omega) (ends_cons (.inl rfl))]
      simp only [Option.bind_eq_bind, Option.bind_some]
      rw [skipSpace_ends (ends_cons (.inl rfl))]
      simp only [hskip, hstep, Option.bind_some]
      rfl

lemma length_member {k : String} {text : List Char} :
    (member (k, text)).length = (k.toList.flatMap escapeChar).length + 3 + text.length := by
  simp [member, dumpsStr]
  omega

lemma scanKey_dumps {k : String} {v : Json} (hread : All (Readable float) v) {n : Nat} {rest : List Char}
    (hn : (k.toList.flatMap escapeChar).length < n) :
    scanKey n (member (k, dumps le v) ++ rest) = some (k, dumps le v ++ rest) := by
  have hskip := skipSpace_dumps le hread rest
  have hcolon : skipSpace (':' :: (dumps le v ++ rest)) = ':' :: (dumps le v ++ rest) := rfl
  simp only [member, dumpsStr, List.cons_append, List.append_assoc, scanKey, List.nil_append, scanString_dumps hn,
    Option.bind_eq_bind, Option.bind_some, hcolon, hskip, String.ofList_toList]

lemma scanFields_dumps {fields : List (String × Json)} (hread : ∀ p ∈ fields, All (Readable float) p.2)
    (ih : ∀ p ∈ fields, ReadsBack le float p.2) (hne : fields ≠ []) {n : Nat} (rest : List Char)
    (hn : ([','].intercalate (fields.map fun p => member (p.1, dumps le p.2))).length < n) :
    scanFields float n ([','].intercalate (fields.map fun p => member (p.1, dumps le p.2)) ++ '\x7d' :: rest) =
      some (fields.map fun p => (p.1, sortKeys le p.2), rest) := by
  induction fields generalizing n with
  | nil => exact (hne rfl).elim
  | cons p fields ihtail =>
    obtain ⟨m, rfl⟩ : ∃ m, n = m + 1 := ⟨n - 1, by omega⟩
    obtain ⟨k, v⟩ := p
    have hv : ReadsBack le float v := ih (k, v) List.mem_cons_self
    have hreadv : All (Readable float) v := hread (k, v) List.mem_cons_self
    cases fields with
    | nil =>
      have hsingle : [','].intercalate ([(k, v)].map fun p => member (p.1, dumps le p.2)) = member (k, dumps le v) := by
        simp [List.intercalate]
      rw [hsingle] at hn ⊢
      rw [length_member] at hn
      rw [scanFields, scanKey_dumps hreadv (by omega)]
      simp only [Option.bind_eq_bind, Option.bind_some]
      rw [hv m _ (by omega) (ends_cons (.inr (.inr rfl)))]
      rfl
    | cons q fields =>
      simp only [List.map_cons, intercalate_cons_cons, List.length_append, List.length_cons, length_member] at hn
      have hstep := ihtail (fun u hu => hread u (List.mem_cons_of_mem _ hu))
        (fun u hu => ih u (List.mem_cons_of_mem _ hu)) (by simp) (n := m)
        (by simp only [List.map_cons]; omega)
      have hskip : skipSpace ([','].intercalate ((q :: fields).map fun p => member (p.1, dumps le p.2)) ++
          '\x7d' :: rest) = [','].intercalate ((q :: fields).map fun p => member (p.1, dumps le p.2)) ++
          '\x7d' :: rest := by
        cases fields <;> simp [skipSpace, List.intercalate, member, dumpsStr, isSpace]
      rw [List.map_cons] at hstep hskip
      rw [List.map_cons, List.map_cons, intercalate_cons_cons, List.append_assoc, List.cons_append, scanFields,
        scanKey_dumps (k := k) hreadv (by omega)]
      simp only [Option.bind_eq_bind, Option.bind_some]
      rw [hv m _ (by omega) (ends_cons (.inl rfl))]
      simp only [Option.bind_some]
      rw [skipSpace_ends (ends_cons (.inl rfl))]
      simp only [hskip, hstep, Option.bind_some]
      rfl

lemma foldl_setField {fields acc : List (String × Json)} (hn : ((acc ++ fields).map (·.1)).Nodup) :
    fields.foldl setField acc = acc ++ fields := by
  induction fields generalizing acc with
  | nil => simp
  | cons p fields ih =>
    have hp : p.1 ∉ acc.map (·.1) := by
      rw [List.map_append, List.nodup_append] at hn
      intro hmem
      exact hn.2.2 p.1 hmem p.1 (by simp) rfl
    rw [List.foldl_cons, setField, if_neg hp, ih (by simpa using hn), List.append_assoc]
    rfl

lemma scanValue_items {c : Char} {more : List Char} {n : Nat} (hspace : isSpace c = false) (hclose : c ≠ ']') :
    scanValue float (n + 1) ('[' :: c :: more) = (scanItems float n (c :: more)).map fun p => (.list p.1, p.2) := by
  have hskip : skipSpace (c :: more) = c :: more := by simp [skipSpace, hspace]
  rw [scanValue, hskip]
  split
  · rename_i heq
    exact (hclose (List.cons.inj heq).1).elim
  · rfl

lemma scanValue_fields {c : Char} {more : List Char} {n : Nat} (hspace : isSpace c = false) (hclose : c ≠ '\x7d') :
    scanValue float (n + 1) ('\x7b' :: c :: more) =
      (scanFields float n (c :: more)).map fun p => (.obj (p.1.foldl setField []), p.2) := by
  have hskip : skipSpace (c :: more) = c :: more := by simp [skipSpace, hspace]
  rw [scanValue, hskip]
  split
  · rename_i heq
    exact (hclose (List.cons.inj heq).1).elim
  · rfl

/-- Every value that the reader can give is read back from its text, with its keys in order. -/
lemma readsBack {v : Json} (h : All (Readable float) v) : ReadsBack le float v := by
  induction v using memInduction with
  | null =>
    intro n rest hn _
    obtain ⟨m, rfl⟩ : ∃ m, n = m + 1 := ⟨n - 1, by simp [dumps] at hn; omega⟩
    exact scanValue_literal (l := ("null".toList, .null)) (by simp [literals])
  | bool b =>
    intro n rest hn _
    cases b with
    | true =>
      obtain ⟨m, rfl⟩ : ∃ m, n = m + 1 := ⟨n - 1, by simp [dumps] at hn; omega⟩
      exact scanValue_literal (l := ("true".toList, .bool true)) (by simp [literals])
    | false =>
      obtain ⟨m, rfl⟩ : ∃ m, n = m + 1 := ⟨n - 1, by simp [dumps] at hn; omega⟩
      exact scanValue_literal (l := ("false".toList, .bool false)) (by simp [literals])
  | int i =>
    intro n rest hn hends
    obtain ⟨c, more, hc, -⟩ := dumps_head le h
    obtain ⟨m, rfl⟩ : ∃ m, n = m + 1 := ⟨n - 1, by rw [hc] at hn; simp at hn; omega⟩
    exact scanValue_number hends (scanNumber_int h.self)
  | float text =>
    intro n rest hn hends
    obtain ⟨c, more, hc, -⟩ := dumps_head le h
    obtain ⟨m, rfl⟩ : ∃ m, n = m + 1 := ⟨n - 1, by rw [hc] at hn; simp at hn; omega⟩
    rcases h.self with hl | hnumber
    · exact scanValue_literal hl
    · exact scanValue_number hends hnumber
  | str s =>
    intro n rest hn _
    simp only [dumps, dumpsStr, List.length_append, List.length_cons, List.length_nil] at hn
    obtain ⟨m, rfl⟩ : ∃ m, n = m + 1 := ⟨n - 1, by omega⟩
    simp only [dumps, dumpsStr, List.cons_append, List.append_assoc, List.nil_append, scanValue]
    rw [scanString_dumps (by omega)]
    simp [sortKeys]
  | list items ih =>
    intro n rest hn _
    rw [all_list] at h
    have hitems := fun v hv => ih v hv (h.2 v hv)
    rw [dumps_list, joinItems] at hn ⊢
    rw [sortKeys_list]
    simp only [List.length_append, List.length_cons, List.length_nil] at hn
    obtain ⟨m, rfl⟩ : ∃ m, n = m + 1 := ⟨n - 1, by omega⟩
    cases items with
    | nil => rfl
    | cons v items =>
      obtain ⟨c, more, hc, hspace, hclose, -⟩ := dumps_head le (h.2 v (by simp))
      have hscan := scanItems_dumps h.2 hitems (by simp) (n := m) rest (by omega)
      obtain ⟨more', hmore⟩ : ∃ more', [','].intercalate ((v :: items).map (dumps le)) ++ ']' :: rest = c :: more' := by
        cases items <;> simp [List.intercalate, hc]
      rw [hmore] at hscan
      simp only [List.cons_append, List.append_assoc, List.nil_append]
      rw [hmore, scanValue_items hspace hclose, hscan]
      rfl
  | obj fields ih =>
    intro n rest hn _
    rw [all_obj] at h
    have hperm := List.perm_insertionSort (fun p q : String × Json => le p.1 q.1) fields
    have hread : ∀ p ∈ inOrder le fields, All (Readable float) p.2 := fun p hp => h.2 p (hperm.mem_iff.mp hp)
    have hfields : ∀ p ∈ inOrder le fields, ReadsBack le float p.2 :=
      fun p hp => ih p (hperm.mem_iff.mp hp) (hread p hp)
    have hnodup : ((inOrder le fields).map (·.1)).Nodup := (hperm.map _).nodup_iff.mpr h.1
    rw [dumps_obj, joinFields, List.map_map] at hn ⊢
    rw [sortKeys_obj]
    generalize inOrder le fields = sorted at *
    simp only [List.length_append, List.length_cons, List.length_nil, Function.comp_def] at hn ⊢
    obtain ⟨m, rfl⟩ : ∃ m, n = m + 1 := ⟨n - 1, by omega⟩
    cases sorted with
    | nil => rfl
    | cons p fields =>
      have hscan := scanFields_dumps hread hfields (by simp) (n := m) rest (by omega)
      obtain ⟨more', hmore⟩ : ∃ more', [','].intercalate ((p :: fields).map fun p => member (p.1, dumps le p.2)) ++
          '\x7d' :: rest = '"' :: more' := by
        cases fields <;> simp [List.intercalate, member, dumpsStr]
      rw [hmore] at hscan
      simp only [List.cons_append, List.append_assoc, List.nil_append]
      rw [hmore, scanValue_fields (by decide) (by decide), hscan, Option.map_some, foldl_setField]
      · rfl
      · simpa [Function.comp_def] using hnodup

lemma loads_dumps (le : String → String → Bool) {v : Json} (h : All (Readable float) v) :
    loads float (dumps le v) = some (sortKeys le v) := by
  have hskip := skipSpace_dumps le h []
  have hread : ReadsBack le float v := readsBack h
  have hscan := hread ((dumps le v).length + 1) [] (by omega) (by intro c hc; cases hc)
  rw [List.append_nil] at hskip hscan
  simp only [loads, hskip, hscan, Option.bind_eq_bind, Option.bind_some]
  rfl

end Values

end PlatformGitops.Library.Json
