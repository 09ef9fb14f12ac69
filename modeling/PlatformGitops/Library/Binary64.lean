import Mathlib.Algebra.Order.Floor.Ring
import Mathlib.Data.Int.Log
import Mathlib.Data.Rat.Floor
import Mathlib.Tactic.Linarith
import Mathlib.Tactic.NormNum
import Mathlib.Tactic.Positivity

/-! Numbers of 53 binary digits: rounding to the nearest, and reading a decimal text. -/

namespace PlatformGitops.Library

/-- A float, with both zeros as one. -/
inductive Binary64 where
  | finite (q : ℚ)
  | infinite (negative : Bool)
  | nan
deriving DecidableEq

namespace Binary64

section Rounding

/-- The nearest integer, of two the even one. -/
def roundEven (q : ℚ) : ℤ :=
  if Int.fract q < 1 / 2 then ⌊q⌋
  else if 1 / 2 < Int.fract q then ⌊q⌋ + 1
  else if ⌊q⌋ % 2 = 0 then ⌊q⌋ else ⌊q⌋ + 1

def trunc (q : ℚ) : ℤ := if 0 ≤ q then ⌊q⌋ else ⌈q⌉

/-- The exponent of the last binary digit that a float of this size has. -/
def lastPlace (q : ℚ) : ℤ := max (Int.log 2 |q| - 52) (-1074)

def nearest (q : ℚ) : Binary64 :=
  let r := roundEven (q / 2 ^ lastPlace q) * (2 : ℚ) ^ lastPlace q
  if 2 ^ 1024 ≤ |r| then .infinite (q < 0) else .finite r

/-- The product with a whole number. -/
def mulInt (k : ℤ) : Binary64 → Binary64
  | .finite q => nearest (q * k)
  | .infinite negative => if k = 0 then .nan else .infinite (if k < 0 then !negative else negative)
  | .nan => .nan

variable {q r : ℚ} {k : ℕ}

lemma abs_roundEven_sub_le (q : ℚ) : |(roundEven q : ℚ) - q| ≤ 1 := by
  have hfloor := Int.floor_add_fract q
  have hnonneg := Int.fract_nonneg q
  have hlt := Int.fract_lt_one q
  have hdown : |((⌊q⌋ : ℤ) : ℚ) - q| ≤ 1 := by
    rw [abs_le]
    constructor <;> linarith
  have hup : |((⌊q⌋ + 1 : ℤ) : ℚ) - q| ≤ 1 := by
    rw [abs_le, Int.cast_add, Int.cast_one]
    constructor <;> linarith
  unfold roundEven
  split_ifs
  · exact hdown
  · exact hup
  · exact hdown
  · exact hup

lemma lastPlace_le (h : |q| < 2 ^ k) : lastPlace q ≤ k := by
  rw [lastPlace, max_le_iff]
  refine ⟨?_, by omega⟩
  rcases eq_or_ne q 0 with rfl | hq
  · rw [abs_zero, Int.log_zero_right]
    omega
  · have hlog : Int.log 2 |q| < k := by
      refine (Int.lt_zpow_iff_log_lt (by norm_num) (abs_pos.mpr hq)).mp ?_
      exact_mod_cast h
    omega

/-- A number that is well below the largest float has a float next to it. -/
lemma nearest_finite (h : |q| < 2 ^ k) (hk : k < 1023) : ∃ r, nearest q = .finite r ∧ |r| < 2 ^ (k + 1) := by
  have hpos : (0 : ℚ) < 2 ^ lastPlace q := zpow_pos (by norm_num) _
  have hplace : (2 : ℚ) ^ lastPlace q ≤ 2 ^ k := by
    have hle := zpow_le_zpow_right₀ (by norm_num : (1 : ℚ) ≤ 2) (lastPlace_le h)
    exact_mod_cast hle
  have herror := abs_roundEven_sub_le (q / 2 ^ lastPlace q)
  have hdiff : |(roundEven (q / 2 ^ lastPlace q) : ℚ) * 2 ^ lastPlace q - q| ≤ 2 ^ lastPlace q := by
    have hfactor : (roundEven (q / 2 ^ lastPlace q) : ℚ) * 2 ^ lastPlace q - q =
        ((roundEven (q / 2 ^ lastPlace q) : ℚ) - q / 2 ^ lastPlace q) * 2 ^ lastPlace q := by
      rw [sub_mul, div_mul_cancel₀ _ hpos.ne']
    rw [hfactor, abs_mul, abs_of_pos hpos]
    calc _ ≤ 1 * (2 : ℚ) ^ lastPlace q := mul_le_mul_of_nonneg_right herror hpos.le
      _ = _ := one_mul _
  have hbound : |(roundEven (q / 2 ^ lastPlace q) : ℚ) * 2 ^ lastPlace q| < 2 ^ (k + 1) := by
    calc |(roundEven (q / 2 ^ lastPlace q) : ℚ) * 2 ^ lastPlace q|
        = |(roundEven (q / 2 ^ lastPlace q) : ℚ) * 2 ^ lastPlace q - q + q| := by rw [sub_add_cancel]
      _ ≤ |(roundEven (q / 2 ^ lastPlace q) : ℚ) * 2 ^ lastPlace q - q| + |q| := abs_add_le _ _
      _ < 2 ^ k + 2 ^ k := by linarith
      _ = 2 ^ (k + 1) := by ring
  refine ⟨_, ?_, hbound⟩
  have hlarge : (2 : ℚ) ^ (k + 1) ≤ 2 ^ 1024 := pow_le_pow_right₀ (by norm_num) (by omega)
  exact if_neg (not_le.mpr (lt_of_lt_of_le hbound hlarge))

end Rounding

section Reading

/-- The value of the digits. -/
def digitsValue (digits : List Char) : ℕ := digits.foldl (fun n c => 10 * n + (c.toNat - '0'.toNat)) 0

/-- A sign, if there is one, and what comes after it. -/
def signPart : List Char → Bool × List Char
  | '-' :: rest => (true, rest)
  | '+' :: rest => (false, rest)
  | text => (false, text)

/-- What follows the digits of a number: nothing, or an exponent. -/
def exponentPart : List Char → Option ℤ
  | [] => some 0
  | c :: rest =>
    let (negative, digits) := signPart rest
    if (c = 'e' ∨ c = 'E') ∧ digits ≠ [] ∧ digits.all Char.isDigit then
      some (if negative then -(digitsValue digits : ℤ) else digitsValue digits)
    else none

/-- The digits after a point, and what comes after them. -/
def fractionPart : List Char → List Char × List Char
  | '.' :: rest => (rest.takeWhile Char.isDigit, rest.dropWhile Char.isDigit)
  | rest => ([], rest)

def decimal? (text : List Char) : Option ℚ :=
  let whole := text.takeWhile Char.isDigit
  let (fraction, rest) := fractionPart (text.dropWhile Char.isDigit)
  if whole ++ fraction = [] then none
  else (exponentPart rest).map fun e => digitsValue (whole ++ fraction) * (10 : ℚ) ^ (e - (fraction.length : ℤ))

/-- Underscores may stand between two digits. -/
def withoutUnderscores : Option Char → List Char → Option (List Char)
  | _, [] => some []
  | last, c :: rest =>
    if c = '_' then
      if (last.any Char.isDigit && rest.head?.any Char.isDigit) = true then withoutUnderscores (some c) rest else none
    else (withoutUnderscores (some c) rest).map (c :: ·)

def special? (text : List Char) (negative : Bool) : Option Binary64 :=
  let name := text.map Char.toLower
  if name = ['i', 'n', 'f'] ∨ name = ['i', 'n', 'f', 'i', 'n', 'i', 't', 'y'] then some (.infinite negative)
  else if name = ['n', 'a', 'n'] then some .nan
  else none

/-- The float that a text without blanks around it stands for. -/
def ofText (text : List Char) : Option Binary64 := do
  let (negative, unsigned) := signPart (← withoutUnderscores none text)
  match special? unsigned negative with
  | some value => some value
  | none => (decimal? unsigned).map fun q => nearest (if negative then -q else q)

variable {whole fraction tail text : List Char}

lemma withoutUnderscores_eq {last : Option Char} (h : '_' ∉ text) : withoutUnderscores last text = some text := by
  induction text generalizing last with
  | nil => rfl
  | cons c text ih =>
    rw [List.mem_cons, not_or] at h
    rw [withoutUnderscores, if_neg (Ne.symm h.1), ih h.2]
    rfl

/-- The digits of a number, with or without a point. -/
def numeral (whole : List Char) : Option (List Char) → List Char
  | none => whole
  | some fraction => whole ++ '.' :: fraction

lemma takeWhile_digits (h : ∀ c ∈ whole, c.isDigit) (htail : ∀ c ∈ tail.head?, c.isDigit = false) :
    (whole ++ tail).takeWhile Char.isDigit = whole ∧ (whole ++ tail).dropWhile Char.isDigit = tail := by
  induction whole with
  | nil =>
    cases tail with
    | nil => exact ⟨rfl, rfl⟩
    | cons c tail => simp [htail c rfl]
  | cons c whole ih =>
    obtain ⟨hc, hwhole⟩ := List.forall_mem_cons.mp h
    simp [hc, ih hwhole]

/-- A numeral is read with what follows it, if that is not more of the numeral. -/
lemma decimal?_numeral {fraction? : Option (List Char)} (hwhole : ∀ c ∈ whole, c.isDigit)
    (hfraction : ∀ f ∈ fraction?, ∀ c ∈ f, c.isDigit) (hsome : whole ++ fraction?.getD [] ≠ [])
    (htail : ∀ c ∈ tail.head?, c.isDigit = false ∧ c ≠ '.') :
    decimal? (numeral whole fraction? ++ tail) = (exponentPart tail).map fun e =>
      digitsValue (whole ++ fraction?.getD []) * (10 : ℚ) ^ (e - ((fraction?.getD []).length : ℤ)) := by
  have hdigit : ∀ c ∈ tail.head?, c.isDigit = false := fun c hc => (htail c hc).1
  cases fraction? with
  | none =>
    obtain ⟨htake, hdrop⟩ := takeWhile_digits hwhole hdigit
    have hpart : fractionPart tail = ([], tail) := by
      cases tail with
      | nil => rfl
      | cons c tail =>
        have hpoint := (htail c rfl).2
        unfold fractionPart
        split
        · rename_i heq
          cases heq
          exact absurd rfl hpoint
        · rfl
    rw [Option.getD_none] at hsome
    rw [numeral, decimal?, htake, hdrop, hpart]
    simp only [Option.getD_none]
    rw [if_neg hsome]
  | some fraction =>
    have hpoint : ∀ c ∈ ('.' :: (fraction ++ tail)).head?, c.isDigit = false := by
      rintro c ⟨⟩
      rfl
    obtain ⟨htake, hdrop⟩ := takeWhile_digits hwhole hpoint
    obtain ⟨htake', hdrop'⟩ := takeWhile_digits (hfraction fraction rfl) hdigit
    rw [Option.getD_some] at hsome
    rw [numeral, List.append_assoc, List.cons_append, decimal?, htake, hdrop, fractionPart, htake', hdrop']
    simp only [Option.getD_some]
    rw [if_neg hsome]

end Reading

end Binary64

end PlatformGitops.Library
