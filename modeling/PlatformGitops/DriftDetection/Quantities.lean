import PlatformGitops.DriftDetection.DeployNormalizer
import PlatformGitops.Library.Binary64

/-! Reading resource quantities with floats: which spellings of a quantity the normalizer can read. -/

namespace PlatformGitops.DriftDetection

open Library
open Coordination (strip)

section Readers

/-- The text of a value, where it is a scalar; `str` prints the others. -/
def scalarText (str : Json → String) : Json → List Char
  | .str s => s.toList
  | .int n => (toString n).toList
  | .float text => text.toList
  | .bool b => if b then ['T', 'r', 'u', 'e'] else ['F', 'a', 'l', 's', 'e']
  | v => (str v).toList

def floatOf (text : List Char) : Except NormalizeError Binary64 := Fallible.expect (Binary64.ofText (strip text)) .valueError

/-- `int` and `round` of a float. -/
def wholeNumber (f : ℚ → ℤ) : Binary64 → Except NormalizeError Json
  | .finite q => .ok (.int (f q))
  | .infinite _ => .error .overflowError
  | .nan => .error .valueError

def cpuOfText (s : List Char) : Except NormalizeError Json := do
  if s.getLast? = some 'm' then wholeNumber Binary64.trunc (← floatOf s.dropLast)
  else wholeNumber Binary64.roundEven ((← floatOf s).mulInt 1000)

def memorySuffixes : List (List Char × ℤ) :=
  [(['E', 'i'], 1024 ^ 6), (['P', 'i'], 1024 ^ 5), (['T', 'i'], 1024 ^ 4), (['G', 'i'], 1024 ^ 3), (['M', 'i'], 1024 ^ 2),
    (['K', 'i'], 1024), (['E'], 1000 ^ 6), (['P'], 1000 ^ 5), (['T'], 1000 ^ 4), (['G'], 1000 ^ 3), (['M'], 1000 ^ 2),
    (['K'], 1000)]

/-- The first suffix that the text ends with. -/
def memorySuffix? (s : List Char) : Option (List Char × ℤ) := memorySuffixes.find? fun p => p.1.isSuffixOf s

def memoryOfText (s : List Char) : Except NormalizeError Json := do
  match memorySuffix? s with
  | some (suffix, multiplier) =>
    wholeNumber Binary64.trunc ((← floatOf (s.take (s.length - suffix.length))).mulInt multiplier)
  | none => wholeNumber Binary64.trunc (← floatOf s)

variable (str : Json → String)

def parseQuantity (ofText : List Char → Except NormalizeError Json) (value : Json) : Except NormalizeError Json :=
  match value with
  | .null => .ok .null
  | value =>
    let s := strip (scalarText str value)
    if s = [] then .ok .null else ofText s

def parseCpuToMillicores : Json → Except NormalizeError Json := parseQuantity str cpuOfText

def parseMemoryToBytes : Json → Except NormalizeError Json := parseQuantity str memoryOfText

def floatValue (text : String) : ℚ :=
  match Binary64.ofText text.toList with
  | some (.finite q) => q
  | _ => 0

/-- What the normalizer computes with. -/
def normalizerExternals : Externals := ⟨parseCpuToMillicores str, parseMemoryToBytes str, floatValue, str⟩

end Readers

section Quantities

inductive QuantitySuffix where
  | one
  | nano
  | micro
  | milli
  | kilo
  | decimal (letter : Char) (power : ℕ) (h : (letter, power) ∈ [('M', 2), ('G', 3), ('T', 4), ('P', 5), ('E', 6)])
  | binary (letter : Char) (power : ℕ) (h : (letter, power) ∈ [('K', 1), ('M', 2), ('G', 3), ('T', 4), ('P', 5), ('E', 6)])
  | exponent (upper : Bool) (sign : Option Bool) (digits : List Char) (h : digits ≠ [] ∧ ∀ c ∈ digits, c.isDigit)

/-- A quantity as the Kubernetes API writes it: a signed number, and a suffix or a decimal exponent. -/
structure Quantity where
  sign : Option Bool
  whole : List Char
  fraction : Option (List Char)
  suffix : QuantitySuffix
  whole_digits : ∀ c ∈ whole, c.isDigit
  fraction_digits : ∀ f ∈ fraction, ∀ c ∈ f, c.isDigit
  nonempty : whole ++ fraction.getD [] ≠ []

def signText : Option Bool → List Char
  | none => []
  | some negative => [if negative then '-' else '+']

def QuantitySuffix.text : QuantitySuffix → List Char
  | one => []
  | nano => ['n']
  | micro => ['u']
  | milli => ['m']
  | kilo => ['k']
  | decimal letter _ _ => [letter]
  | binary letter _ _ => [letter, 'i']
  | exponent upper sign digits _ => (if upper then 'E' else 'e') :: (signText sign ++ digits)

def QuantitySuffix.multiplier : QuantitySuffix → ℚ
  | one => 1
  | nano => 10 ^ (-9 : ℤ)
  | micro => 10 ^ (-6 : ℤ)
  | milli => 10 ^ (-3 : ℤ)
  | kilo => 10 ^ (3 : ℤ)
  | decimal _ power _ => 1000 ^ power
  | binary _ power _ => 1024 ^ power
  | exponent _ sign digits _ => 10 ^ (if sign = some true then -(Binary64.digitsValue digits : ℤ) else Binary64.digitsValue digits)

namespace Quantity

variable (q : Quantity)

def numeral : List Char := Binary64.numeral q.whole q.fraction

def text : List Char := signText q.sign ++ (q.numeral ++ q.suffix.text)

/-- The number before the suffix, without its sign. -/
def number : ℚ :=
  Binary64.digitsValue (q.whole ++ q.fraction.getD []) * (10 : ℚ) ^ (-((q.fraction.getD []).length : ℤ))

/-- No quantity is larger than the largest signed integer of 64 bits. -/
def InRange : Prop := q.number * q.suffix.multiplier ≤ 2 ^ 63 - 1

end Quantity

/-- The suffixes of a cpu quantity that are read: none, thousandths, and an exponent. -/
def QuantitySuffix.cpuReadable : QuantitySuffix → Bool
  | one | milli | exponent .. => true
  | _ => false

/-- The suffixes of a memory quantity that are not read are those of parts, and the small one of thousands. -/
def QuantitySuffix.memoryReadable : QuantitySuffix → Bool
  | nano | micro | milli | kilo => false
  | _ => true

end Quantities

section Reading

variable {q : Quantity} {tail text : List Char} {sign : Option Bool} {c : Char}

/-- A character of a quantity's text: none of them is blank, and none joins digits. -/
def Plain (c : Char) : Prop := Coordination.isBlank c = false ∧ c ≠ '_'

lemma digit_range (h : c.isDigit = true) : 48 ≤ c.toNat ∧ c.toNat ≤ 57 := Char.isDigit_iff_toNat.mp h

lemma plain_of_isDigit (h : c.isDigit = true) : Plain c := by
  have hrange := digit_range h
  refine ⟨?_, ?_⟩
  · simp only [Coordination.isBlank, decide_eq_false_iff_not, List.mem_cons, List.not_mem_nil, or_false]
    omega
  · rintro rfl
    exact absurd h (by decide)

lemma strip_eq (h : ∀ c ∈ text, Plain c) : strip text = text := by
  have hleft : text.dropWhile Coordination.isBlank = text := by
    cases text with
    | nil => rfl
    | cons c text => rw [List.dropWhile_cons_of_neg (by simp [(h c List.mem_cons_self).1])]
  have hright : text.reverse.dropWhile Coordination.isBlank = text.reverse := by
    cases hreverse : text.reverse with
    | nil => rfl
    | cons c rest =>
      have hc : c ∈ text := List.mem_reverse.mp (hreverse ▸ List.mem_cons_self)
      rw [List.dropWhile_cons_of_neg (by simp [(h c hc).1])]
  rw [strip, hleft, hright, List.reverse_reverse]

lemma plain_signText (h : c ∈ signText sign) : Plain c := by
  rcases sign with - | - | -
  · cases h
  · rw [List.mem_singleton.mp h]
    exact ⟨by decide, by decide⟩
  · rw [List.mem_singleton.mp h]
    exact ⟨by decide, by decide⟩

lemma numeral_chars (h : c ∈ q.numeral) : c.isDigit = true ∨ c = '.' := by
  have hwhole := q.whole_digits
  have hfraction := q.fraction_digits
  unfold Quantity.numeral Binary64.numeral at h
  split at h
  · exact Or.inl (hwhole c h)
  · rename_i fraction hsome
    rcases List.mem_append.mp h with h | h
    · exact Or.inl (hwhole c h)
    · rcases List.mem_cons.mp h with rfl | h
      · exact Or.inr rfl
      · exact Or.inl (hfraction fraction hsome c h)

lemma plain_numeral (h : c ∈ q.numeral) : Plain c := by
  rcases numeral_chars h with hdigit | rfl
  · exact plain_of_isDigit hdigit
  · exact ⟨by decide, by decide⟩

lemma numeral_ne_nil (q : Quantity) : q.numeral ≠ [] := by
  have hnonempty := q.nonempty
  unfold Quantity.numeral Binary64.numeral
  split
  · rename_i hnone
    simpa [hnone] using hnonempty
  · simp

/-- The numeral begins with a digit or a point. -/
lemma numeral_eq_cons (q : Quantity) : ∃ c rest, q.numeral = c :: rest ∧ (c.isDigit = true ∨ c = '.') := by
  obtain ⟨c, rest, hcons⟩ := List.exists_cons_of_ne_nil (numeral_ne_nil q)
  exact ⟨c, rest, hcons, numeral_chars (hcons ▸ List.mem_cons_self)⟩

lemma signPart_signText (h : ∀ c ∈ text.head?, c ≠ '-' ∧ c ≠ '+') :
    Binary64.signPart (signText sign ++ text) = (decide (sign = some true), text) := by
  rcases sign with - | - | -
  · cases text with
    | nil => rfl
    | cons c text =>
      obtain ⟨hminus, hplus⟩ := h c rfl
      change Binary64.signPart (c :: text) = (false, c :: text)
      unfold Binary64.signPart
      split
      · rename_i heq
        cases heq
        exact absurd rfl hminus
      · rename_i heq
        cases heq
        exact absurd rfl hplus
      · rfl
  · rfl
  · rfl

lemma not_sign_of_digit (h : c.isDigit = true ∨ c = '.') : c ≠ '-' ∧ c ≠ '+' := by
  rcases h with h | rfl
  · constructor
    · rintro rfl
      exact absurd h (by decide)
    · rintro rfl
      exact absurd h (by decide)
  · decide

lemma special?_numeral (q : Quantity) (tail : List Char) (negative : Bool) :
    Binary64.special? (q.numeral ++ tail) negative = none := by
  obtain ⟨c, rest, hcons, hc⟩ := numeral_eq_cons q
  have hlower : c.toLower ≠ 'i' ∧ c.toLower ≠ 'n' := by
    rcases hc with hc | rfl
    · have hrange := digit_range hc
      have hsame : c.toLower = c := by
        unfold Char.toLower
        split
        · rename_i hupper
          have hlarge : 65 ≤ c.toNat := hupper.1
          omega
        · rfl
      rw [hsame]
      constructor
      · rintro rfl
        exact absurd hc (by decide)
      · rintro rfl
        exact absurd hc (by decide)
    · decide
  rw [hcons, Binary64.special?, List.cons_append, List.map_cons]
  simp [hlower.1, hlower.2]

/-- A signed numeral is read if an exponent or nothing comes after it. -/
lemma floatOf_numeral (q : Quantity) (hplain : ∀ c ∈ tail, Plain c) (htail : ∀ c ∈ tail.head?, c.isDigit = false ∧ c ≠ '.') :
    floatOf (signText q.sign ++ (q.numeral ++ tail)) =
      match Binary64.exponentPart tail with
      | none => .error .valueError
      | some e => .ok (Binary64.nearest (if q.sign = some true then
          -(Binary64.digitsValue (q.whole ++ q.fraction.getD []) * (10 : ℚ) ^ (e - ((q.fraction.getD []).length : ℤ)))
          else Binary64.digitsValue (q.whole ++ q.fraction.getD []) * (10 : ℚ) ^ (e - ((q.fraction.getD []).length : ℤ)))) := by
  have hall : ∀ c ∈ signText q.sign ++ (q.numeral ++ tail), Plain c := by
    intro c hc
    rcases List.mem_append.mp hc with hc | hc
    · exact plain_signText hc
    · rcases List.mem_append.mp hc with hc | hc
      · exact plain_numeral hc
      · exact hplain c hc
  have hhead : ∀ c ∈ (q.numeral ++ tail).head?, c ≠ '-' ∧ c ≠ '+' := by
    obtain ⟨c, rest, hcons, hc⟩ := numeral_eq_cons q
    rw [hcons]
    rintro d ⟨⟩
    exact not_sign_of_digit hc
  have hunderscores : '_' ∉ signText q.sign ++ (q.numeral ++ tail) := fun h => (hall _ h).2 rfl
  rw [floatOf, strip_eq hall, Binary64.ofText, Binary64.withoutUnderscores_eq hunderscores]
  have hdecimal := Binary64.decimal?_numeral q.whole_digits q.fraction_digits q.nonempty htail
  rw [← Quantity.numeral] at hdecimal
  simp only [Option.bind_eq_bind, Option.bind_some, signPart_signText hhead, special?_numeral, hdecimal]
  cases Binary64.exponentPart tail with
  | none => rfl
  | some e => simp [Fallible.expect]

lemma plain_suffix (s : QuantitySuffix) (h : c ∈ s.text) : Plain c := by
  have hletter : ∀ {letter : Char} {power : ℕ},
      (letter, power) ∈ [('K', 1), ('M', 2), ('G', 3), ('T', 4), ('P', 5), ('E', 6)] → Plain letter := by
    intro letter power hmem
    simp only [List.mem_cons, Prod.mk.injEq, List.not_mem_nil, or_false] at hmem
    obtain ⟨rfl, -⟩ | ⟨rfl, -⟩ | ⟨rfl, -⟩ | ⟨rfl, -⟩ | ⟨rfl, -⟩ | ⟨rfl, -⟩ := hmem <;> exact ⟨by decide, by decide⟩
  cases s with
  | one => cases h
  | nano | micro | milli | kilo =>
    rw [List.mem_singleton.mp h]
    exact ⟨by decide, by decide⟩
  | decimal letter power hmem =>
    rw [List.mem_singleton.mp h]
    exact hletter (List.mem_cons_of_mem _ hmem)
  | binary letter power hmem =>
    rcases List.mem_cons.mp h with rfl | h
    · exact hletter hmem
    · rw [List.mem_singleton.mp h]
      exact ⟨by decide, by decide⟩
  | exponent upper sign digits hdigits =>
    rcases List.mem_cons.mp h with rfl | h
    · cases upper
      · exact ⟨by decide, by decide⟩
      · exact ⟨by decide, by decide⟩
    · rcases List.mem_append.mp h with h | h
      · exact plain_signText h
      · exact plain_of_isDigit (hdigits.2 c h)

/-- A suffix does not go on with the digits before it. -/
lemma head_suffix (s : QuantitySuffix) : ∀ c ∈ s.text.head?, c.isDigit = false ∧ c ≠ '.' := by
  have hletter : ∀ {letter : Char} {power : ℕ},
      (letter, power) ∈ [('K', 1), ('M', 2), ('G', 3), ('T', 4), ('P', 5), ('E', 6)] → letter.isDigit = false ∧ letter ≠ '.' := by
    intro letter power hmem
    simp only [List.mem_cons, Prod.mk.injEq, List.not_mem_nil, or_false] at hmem
    obtain ⟨rfl, -⟩ | ⟨rfl, -⟩ | ⟨rfl, -⟩ | ⟨rfl, -⟩ | ⟨rfl, -⟩ | ⟨rfl, -⟩ := hmem <;> decide
  cases s with
  | one => rintro c ⟨⟩
  | nano | micro | milli | kilo =>
    rintro c ⟨⟩
    decide
  | decimal letter power hmem =>
    rintro c ⟨⟩
    exact hletter (List.mem_cons_of_mem _ hmem)
  | binary letter power hmem =>
    rintro c ⟨⟩
    exact hletter hmem
  | exponent upper sign digits hdigits =>
    rintro c ⟨⟩
    cases upper <;> decide

lemma exponentPart_digits {upper : Bool} {digits : List Char} (h : digits ≠ [] ∧ ∀ c ∈ digits, c.isDigit) :
    Binary64.exponentPart (QuantitySuffix.exponent upper sign digits h).text =
      some (if sign = some true then -(Binary64.digitsValue digits : ℤ) else Binary64.digitsValue digits) := by
  have hhead : ∀ c ∈ digits.head?, c ≠ '-' ∧ c ≠ '+' := fun c hc =>
    not_sign_of_digit (Or.inl (h.2 c (List.mem_of_head? hc)))
  have hmark : (if upper then 'E' else 'e') = 'e' ∨ (if upper then 'E' else 'e') = 'E' := by
    cases upper
    · exact Or.inl rfl
    · exact Or.inr rfl
  rw [QuantitySuffix.text, Binary64.exponentPart, signPart_signText hhead]
  simp only [decide_eq_true_eq]
  rw [if_pos ⟨hmark, h.1, List.all_eq_true.mpr h.2⟩]

/-- The suffixes that are letters are no exponents. -/
def QuantitySuffix.IsLetters : QuantitySuffix → Prop
  | one | exponent .. => False
  | _ => True

lemma exponentPart_letters {s : QuantitySuffix} (h : s.IsLetters) : Binary64.exponentPart s.text = none := by
  cases s with
  | one => exact h.elim
  | nano | micro | milli | kilo => rfl
  | decimal letter power hmem =>
    simp only [List.mem_cons, Prod.mk.injEq, List.not_mem_nil, or_false] at hmem
    obtain ⟨rfl, -⟩ | ⟨rfl, -⟩ | ⟨rfl, -⟩ | ⟨rfl, -⟩ | ⟨rfl, -⟩ := hmem <;> rfl
  | binary letter power hmem =>
    simp only [List.mem_cons, Prod.mk.injEq, List.not_mem_nil, or_false] at hmem
    obtain ⟨rfl, -⟩ | ⟨rfl, -⟩ | ⟨rfl, -⟩ | ⟨rfl, -⟩ | ⟨rfl, -⟩ | ⟨rfl, -⟩ := hmem <;> rfl
  | exponent upper sign digits hdigits => exact h.elim

def Quantity.signed (q : Quantity) (v : ℚ) : ℚ := if q.sign = some true then -v else v

lemma floatOf_letters (h : q.suffix.IsLetters) : floatOf q.text = .error .valueError := by
  rw [Quantity.text, floatOf_numeral q (fun c hc => plain_suffix _ hc) (head_suffix _), exponentPart_letters h]

lemma floatOf_number (q : Quantity) : floatOf (signText q.sign ++ q.numeral) = .ok (Binary64.nearest (q.signed q.number)) := by
  have hempty : signText q.sign ++ q.numeral = signText q.sign ++ (q.numeral ++ []) := by rw [List.append_nil]
  rw [hempty, floatOf_numeral q (by simp) (by simp)]
  simp [Binary64.exponentPart, Quantity.signed, Quantity.number]

lemma floatOf_exponent {upper : Bool} {digits : List Char} {h : digits ≠ [] ∧ ∀ c ∈ digits, c.isDigit}
    (hsuffix : q.suffix = .exponent upper sign digits h) :
    floatOf q.text = .ok (Binary64.nearest (q.signed (q.number * q.suffix.multiplier))) := by
  rw [Quantity.text, floatOf_numeral q (fun c hc => plain_suffix _ hc) (head_suffix _), hsuffix, exponentPart_digits]
  simp only [Quantity.signed, Quantity.number, QuantitySuffix.multiplier]
  have hpower : ∀ (v : ℚ) (e : ℤ) (n : ℕ), v * (10 : ℚ) ^ (e - (n : ℤ)) = v * 10 ^ (-(n : ℤ)) * 10 ^ e := by
    intro v e n
    rw [mul_assoc, ← zpow_add₀ (by norm_num), sub_eq_neg_add]
  rw [hpower]

end Reading

section Readable

variable {q : Quantity} {v : ℚ} {c : Char}

lemma number_nonneg (q : Quantity) : 0 ≤ q.number := by
  exact mul_nonneg (Nat.cast_nonneg _) (zpow_nonneg (by norm_num) _)

lemma abs_signed (h : 0 ≤ v) : |q.signed v| = v := by
  unfold Quantity.signed
  split
  · rw [abs_neg, abs_of_nonneg h]
  · exact abs_of_nonneg h

lemma nearest_signed (hnonneg : 0 ≤ v) (hlt : v < 2 ^ 100) :
    ∃ r, Binary64.nearest (q.signed v) = .finite r ∧ |r| < 2 ^ 101 :=
  Binary64.nearest_finite (by rwa [abs_signed hnonneg]) (by norm_num)

lemma mulInt_finite {r : ℚ} {k : ℤ} (hr : |r| < 2 ^ 101) (hk : |(k : ℚ)| ≤ 2 ^ 60) :
    ∃ p, (Binary64.finite r).mulInt k = .finite p := by
  have hproduct : |r * k| < 2 ^ 162 := by
    rw [abs_mul]
    calc |r| * |(k : ℚ)| ≤ 2 ^ 101 * 2 ^ 60 := mul_le_mul hr.le hk (abs_nonneg _) (by positivity)
      _ < 2 ^ 162 := by norm_num
  obtain ⟨p, hp, -⟩ := Binary64.nearest_finite hproduct (by norm_num)
  exact ⟨p, hp⟩

/-- No suffix stands for less than a billionth. -/
lemma number_lt (hrange : q.InRange) (hmultiplier : (10 : ℚ) ^ (-9 : ℤ) ≤ q.suffix.multiplier) : q.number < 2 ^ 100 := by
  have hle : q.number * (10 : ℚ) ^ (-9 : ℤ) ≤ 2 ^ 63 - 1 :=
    (mul_le_mul_of_nonneg_left hmultiplier (number_nonneg q)).trans hrange
  rw [zpow_neg, ← div_eq_mul_inv, div_le_iff₀ (by positivity)] at hle
  refine lt_of_le_of_lt hle ?_
  norm_num

lemma one_le_multiplier (hsuffix : q.suffix.memoryReadable) (hexponent : ¬∃ u s d h, q.suffix = .exponent u s d h) :
    1 ≤ q.suffix.multiplier := by
  cases hs : q.suffix with
  | one => exact le_rfl
  | nano | micro | milli | kilo => rw [hs] at hsuffix; cases hsuffix
  | decimal letter power hmem => exact one_le_pow₀ (by norm_num)
  | binary letter power hmem => exact one_le_pow₀ (by norm_num)
  | exponent upper sign digits h => exact absurd ⟨_, _, _, _, hs⟩ hexponent

lemma number_lt_of_one_le (hrange : q.InRange) (h : 1 ≤ q.suffix.multiplier) : q.number < 2 ^ 100 := by
  refine number_lt hrange (le_trans ?_ h)
  norm_num

/-- The last character of a quantity that ends with a digit or a point. -/
lemma last_of_digits (h : q.suffix = .one ∨ ∃ u s d h, q.suffix = .exponent u s d h) :
    ∀ c ∈ q.text.getLast?, c.isDigit = true ∨ c = '.' := by
  intro c hc
  rcases h with hone | ⟨upper, sign, digits, hdigits, hexponent⟩
  · have htext : q.text = signText q.sign ++ q.numeral := by rw [Quantity.text, hone, QuantitySuffix.text, List.append_nil]
    rw [htext, List.getLast?_append_of_ne_nil _ (numeral_ne_nil q)] at hc
    exact numeral_chars (List.mem_of_getLast? hc)
  · have htext : q.text = (signText q.sign ++ (q.numeral ++ (if upper then 'E' else 'e') :: signText sign)) ++ digits := by
      rw [Quantity.text, hexponent, QuantitySuffix.text]
      simp
    rw [htext, List.getLast?_append_of_ne_nil _ hdigits.1] at hc
    exact Or.inl (hdigits.2 c (List.mem_of_getLast? hc))

lemma getLast?_text (h : q.suffix.text ≠ []) : q.text.getLast? = q.suffix.text.getLast? := by
  rw [Quantity.text, ← List.append_assoc, List.getLast?_append_of_ne_nil _ h]

section Cpu

lemma cpuOfText_of_last (h : q.text.getLast? ≠ some 'm') :
    cpuOfText q.text = floatOf q.text >>= fun f => wholeNumber Binary64.roundEven (f.mulInt 1000) := if_neg h

lemma not_milli_of_last (h : ∀ c ∈ q.text.getLast?, c.isDigit = true ∨ c = '.') : q.text.getLast? ≠ some 'm' := by
  intro hlast
  rcases h 'm' hlast with hdigit | hpoint
  · exact absurd hdigit (by decide)
  · exact absurd hpoint (by decide)

lemma cpuOfText_float {x : ℚ} (hlast : q.text.getLast? ≠ some 'm') (hnonneg : 0 ≤ x) (hlt : x < 2 ^ 100)
    (hread : floatOf q.text = .ok (Binary64.nearest (q.signed x))) : ∃ v, cpuOfText q.text = .ok v := by
  obtain ⟨r, hr, hbound⟩ := nearest_signed (q := q) hnonneg hlt
  obtain ⟨p, hp⟩ := mulInt_finite (k := 1000) hbound (by norm_num)
  rw [cpuOfText_of_last hlast, hread, hr]
  exact ⟨.int (Binary64.roundEven p), by simp [bind, Except.bind, hp, wholeNumber]⟩

lemma cpuOfText_readable (hrange : q.InRange) (h : q.suffix.cpuReadable) : ∃ v, cpuOfText q.text = .ok v := by
  cases hs : q.suffix with
  | one =>
    have hone : q.suffix.multiplier = 1 := by rw [hs]; rfl
    have htext : q.text = signText q.sign ++ q.numeral := by rw [Quantity.text, hs, QuantitySuffix.text, List.append_nil]
    have hread := floatOf_number q
    rw [← htext] at hread
    exact cpuOfText_float (not_milli_of_last (last_of_digits (Or.inl hs))) (number_nonneg q)
      (number_lt_of_one_le hrange hone.ge) hread
  | milli =>
    have htext : q.text = (signText q.sign ++ q.numeral) ++ ['m'] := by rw [Quantity.text, hs, QuantitySuffix.text, List.append_assoc]
    have hlt : q.number < 2 ^ 100 := by
      refine number_lt hrange ?_
      rw [hs]
      exact zpow_le_zpow_right₀ (by norm_num) (by norm_num)
    obtain ⟨r, hr, -⟩ := nearest_signed (q := q) (number_nonneg q) hlt
    refine ⟨.int (Binary64.trunc r), ?_⟩
    rw [htext, cpuOfText, if_pos List.getLast?_concat, List.dropLast_concat, floatOf_number, hr]
    rfl
  | exponent upper sign digits hdigits =>
    refine cpuOfText_float (not_milli_of_last (last_of_digits (Or.inr ⟨_, _, _, _, hs⟩))) ?_ ?_ (floatOf_exponent hs)
    · rw [hs]
      exact mul_nonneg (number_nonneg q) (zpow_nonneg (by norm_num) _)
    · exact lt_of_le_of_lt hrange (by norm_num)
  | _ =>
    rw [hs] at h
    cases h

lemma cpuOfText_unreadable (h : q.suffix.cpuReadable = false) : cpuOfText q.text = .error .valueError := by
  have hletters : q.suffix.IsLetters ∧ q.suffix.text ≠ [] ∧ q.suffix.text.getLast? ≠ some 'm' := by
    cases hs : q.suffix with
    | nano | micro | kilo => exact ⟨trivial, by simp [QuantitySuffix.text], by simp [QuantitySuffix.text]⟩
    | decimal letter power hmem =>
      refine ⟨trivial, by simp [QuantitySuffix.text], ?_⟩
      simp only [List.mem_cons, Prod.mk.injEq, List.not_mem_nil, or_false] at hmem
      obtain ⟨rfl, -⟩ | ⟨rfl, -⟩ | ⟨rfl, -⟩ | ⟨rfl, -⟩ | ⟨rfl, -⟩ := hmem <;> simp [QuantitySuffix.text]
    | binary letter power hmem => exact ⟨trivial, by simp [QuantitySuffix.text], by simp [QuantitySuffix.text]⟩
    | one | milli | exponent =>
      rw [hs] at h
      cases h
  rw [cpuOfText_of_last (getLast?_text hletters.2.1 ▸ hletters.2.2), floatOf_letters hletters.1]
  rfl

end Cpu

section Memory

/-- A text is only cut where its last character is that of a suffix. -/
lemma memorySuffix?_none {text : List Char} (h : ∀ c ∈ text.getLast?, c ∉ ['i', 'E', 'P', 'T', 'G', 'M', 'K']) :
    memorySuffix? text = none := by
  refine List.find?_eq_none.mpr fun p hp hsuffix => ?_
  obtain ⟨before, rfl⟩ := List.isSuffixOf_iff_suffix.mp hsuffix
  simp only [memorySuffixes, List.mem_cons, List.not_mem_nil, or_false] at hp
  obtain rfl | rfl | rfl | rfl | rfl | rfl | rfl | rfl | rfl | rfl | rfl | rfl := hp <;>
    exact h _ (by rw [List.getLast?_append_of_ne_nil _ (by simp)]; rfl) (by decide)

lemma memoryOfText_float {x : ℚ} (hsuffix : memorySuffix? q.text = none) (hnonneg : 0 ≤ x) (hlt : x < 2 ^ 100)
    (hread : floatOf q.text = .ok (Binary64.nearest (q.signed x))) : ∃ v, memoryOfText q.text = .ok v := by
  obtain ⟨r, hr, -⟩ := nearest_signed (q := q) hnonneg hlt
  rw [memoryOfText, hsuffix]
  simp only [hread, hr]
  exact ⟨_, rfl⟩

lemma memoryOfText_cut {suffix : List Char} {multiplier : ℤ} (htext : q.text = (signText q.sign ++ q.numeral) ++ suffix)
    (hsuffix : memorySuffix? q.text = some (suffix, multiplier)) (hlt : q.number < 2 ^ 100)
    (hmultiplier : |(multiplier : ℚ)| ≤ 2 ^ 60) : ∃ v, memoryOfText q.text = .ok v := by
  obtain ⟨r, hr, hbound⟩ := nearest_signed (q := q) (number_nonneg q) hlt
  obtain ⟨p, hp⟩ := mulInt_finite hbound hmultiplier
  have htake : q.text.take (q.text.length - suffix.length) = signText q.sign ++ q.numeral := by
    have hlength : (signText q.sign ++ q.numeral ++ suffix).length = (signText q.sign ++ q.numeral).length + suffix.length :=
      List.length_append
    rw [htext, hlength, Nat.add_sub_cancel, List.take_left]
  rw [memoryOfText, hsuffix]
  simp only [htake, floatOf_number, hr, bind, Except.bind, hp]
  exact ⟨_, rfl⟩

lemma memorySuffix?_binary {letter : Char} {power : ℕ} {before : List Char}
    (h : (letter, power) ∈ [('K', 1), ('M', 2), ('G', 3), ('T', 4), ('P', 5), ('E', 6)]) :
    memorySuffix? (before ++ [letter, 'i']) = some ([letter, 'i'], 1024 ^ power) := by
  simp only [List.mem_cons, Prod.mk.injEq, List.not_mem_nil, or_false] at h
  obtain ⟨rfl, rfl⟩ | ⟨rfl, rfl⟩ | ⟨rfl, rfl⟩ | ⟨rfl, rfl⟩ | ⟨rfl, rfl⟩ | ⟨rfl, rfl⟩ := h <;>
    simp [memorySuffix?, memorySuffixes, List.isSuffixOf]

lemma memorySuffix?_decimal {letter : Char} {power : ℕ} {before : List Char}
    (h : (letter, power) ∈ [('M', 2), ('G', 3), ('T', 4), ('P', 5), ('E', 6)]) :
    memorySuffix? (before ++ [letter]) = some ([letter], 1000 ^ power) := by
  simp only [List.mem_cons, Prod.mk.injEq, List.not_mem_nil, or_false] at h
  obtain ⟨rfl, rfl⟩ | ⟨rfl, rfl⟩ | ⟨rfl, rfl⟩ | ⟨rfl, rfl⟩ | ⟨rfl, rfl⟩ := h <;>
    simp [memorySuffix?, memorySuffixes, List.isSuffixOf]

lemma memorySuffix?_digits (h : ∀ c ∈ q.text.getLast?, c.isDigit = true ∨ c = '.') : memorySuffix? q.text = none := by
  refine memorySuffix?_none fun c hc hmem => ?_
  simp only [List.mem_cons, List.not_mem_nil, or_false] at hmem
  rcases h c hc with hdigit | hpoint
  · obtain rfl | rfl | rfl | rfl | rfl | rfl | rfl := hmem <;> exact absurd hdigit (by decide)
  · obtain rfl | rfl | rfl | rfl | rfl | rfl | rfl := hmem <;> exact absurd hpoint (by decide)

lemma memoryOfText_readable (hrange : q.InRange) (h : q.suffix.memoryReadable) : ∃ v, memoryOfText q.text = .ok v := by
  have hcut : ∀ suffix, q.suffix.text = suffix → q.text = (signText q.sign ++ q.numeral) ++ suffix := by
    rintro suffix rfl
    rw [Quantity.text, List.append_assoc]
  cases hs : q.suffix with
  | one =>
    have hone : q.suffix.multiplier = 1 := by rw [hs]; rfl
    have hread := floatOf_number q
    rw [show signText q.sign ++ q.numeral = q.text by rw [hcut [] (by rw [hs]; rfl), List.append_nil]] at hread
    exact memoryOfText_float (memorySuffix?_digits (last_of_digits (Or.inl hs))) (number_nonneg q)
      (number_lt_of_one_le hrange hone.ge) hread
  | exponent upper sign digits hdigits =>
    refine memoryOfText_float (memorySuffix?_digits (last_of_digits (Or.inr ⟨_, _, _, _, hs⟩))) ?_ ?_ (floatOf_exponent hs)
    · rw [hs]
      exact mul_nonneg (number_nonneg q) (zpow_nonneg (by norm_num) _)
    · exact lt_of_le_of_lt hrange (by norm_num)
  | decimal letter power hmem =>
    have htext := hcut [letter] (by rw [hs]; rfl)
    refine memoryOfText_cut htext (htext ▸ memorySuffix?_decimal hmem) ?_ ?_
    · exact number_lt_of_one_le hrange (one_le_multiplier h (by simp [hs]))
    · simp only [List.mem_cons, Prod.mk.injEq, List.not_mem_nil, or_false] at hmem
      obtain ⟨-, rfl⟩ | ⟨-, rfl⟩ | ⟨-, rfl⟩ | ⟨-, rfl⟩ | ⟨-, rfl⟩ := hmem <;> norm_num
  | binary letter power hmem =>
    have htext := hcut [letter, 'i'] (by rw [hs]; rfl)
    refine memoryOfText_cut htext (htext ▸ memorySuffix?_binary hmem) ?_ ?_
    · exact number_lt_of_one_le hrange (one_le_multiplier h (by simp [hs]))
    · simp only [List.mem_cons, Prod.mk.injEq, List.not_mem_nil, or_false] at hmem
      obtain ⟨-, rfl⟩ | ⟨-, rfl⟩ | ⟨-, rfl⟩ | ⟨-, rfl⟩ | ⟨-, rfl⟩ | ⟨-, rfl⟩ := hmem <;> norm_num
  | _ =>
    rw [hs] at h
    cases h

lemma memoryOfText_unreadable (h : q.suffix.memoryReadable = false) : memoryOfText q.text = .error .valueError := by
  have hletters : q.suffix.IsLetters ∧ q.suffix.text ≠ [] ∧
      ∀ c ∈ q.suffix.text.getLast?, c ∉ ['i', 'E', 'P', 'T', 'G', 'M', 'K'] := by
    cases hs : q.suffix with
    | nano | micro | milli | kilo => exact ⟨trivial, by simp [QuantitySuffix.text], by simp [QuantitySuffix.text]⟩
    | one | decimal | binary | exponent =>
      rw [hs] at h
      cases h
  rw [memoryOfText, memorySuffix?_none (getLast?_text hletters.2.1 ▸ hletters.2.2)]
  simp only [floatOf_letters hletters.1]
  rfl

end Memory

end Readable

end PlatformGitops.DriftDetection
