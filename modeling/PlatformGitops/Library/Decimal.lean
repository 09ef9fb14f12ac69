import Mathlib.Algebra.Order.Field.Rat
import Mathlib.Data.Nat.Digits.Defs
import Mathlib.Tactic.FieldSimp
import Mathlib.Tactic.Ring

/-! Decimal numbers of the general decimal arithmetic: their rounding to a context, and their plain notation. -/

namespace PlatformGitops.Library

inductive Decimal
  | finite (negative : Bool) (coefficient : Nat) (exponent : Int)
  | infinity (negative : Bool)
  | nan (negative signaling : Bool) (payload : Nat)
deriving DecidableEq, Repr

/-- The precision, and the greatest and smallest exponent of a number with one digit before the point. -/
structure DecimalContext where
  prec : Nat
  emin : Int
  emax : Int

inductive DecimalSignal
  | invalidOperation
  | overflow
deriving DecidableEq, Repr

namespace DecimalContext

variable (context : DecimalContext)

def etiny : Int := context.emin - context.prec + 1

def etop : Int := context.emax - context.prec + 1

def standard : DecimalContext := ⟨28, -999999, 999999⟩

end DecimalContext

namespace Decimal

def digitCount (n : Nat) : Nat := (Nat.toDigits 10 n).length

/-- The quotient by a power of ten, with ties to even. -/
def halfEven (coefficient places : Nat) : Nat :=
  let quotient := coefficient / 10 ^ places
  let remainder := coefficient % 10 ^ places
  if 10 ^ places < 2 * remainder ∨ 10 ^ places = 2 * remainder ∧ quotient % 2 = 1 then quotient + 1 else quotient

section Rounding

variable (context : DecimalContext)

/-- The number rounded to the precision, unless its exponent is too large. -/
def fix (coefficient : Nat) (exponent : Int) : Except DecimalSignal (Nat × Int) :=
  if coefficient = 0 then .ok (0, min (max exponent context.etiny) context.emax)
  else
    let least := digitCount coefficient + exponent - context.prec
    if context.etop < least then .error .overflow
    else
      let least := max least context.etiny
      if exponent < least then
        let rounded := halfEven coefficient (least - exponent).toNat
        -- a coefficient of nines is rounded up to one digit more
        if digitCount rounded ≤ context.prec then .ok (rounded, least)
        else if context.etop < least + 1 then .error .overflow
        else .ok (rounded / 10, least + 1)
      else .ok (coefficient, exponent)

/-- The number without the zeros at its end, as far as its exponent may rise. -/
def stripZeros : Nat → Nat → Int → Nat × Int
  | 0, coefficient, exponent => (coefficient, exponent)
  | fuel + 1, coefficient, exponent =>
    if coefficient % 10 = 0 ∧ exponent < context.emax then stripZeros fuel (coefficient / 10) (exponent + 1)
    else (coefficient, exponent)

/-- The simplest form of the rounded number. -/
def normalize : Decimal → Except DecimalSignal Decimal
  | finite negative coefficient exponent => do
    let (coefficient, exponent) ← fix context coefficient exponent
    if coefficient = 0 then pure (finite negative 0 0)
    else
      let (coefficient, exponent) := stripZeros context (digitCount coefficient) coefficient exponent
      pure (finite negative coefficient exponent)
  | infinity negative => .ok (infinity negative)
  | nan _ true _ => .error .invalidOperation
  | nan negative false payload => .ok (nan negative false (payload % 10 ^ context.prec))

end Rounding

section Notation

def padded (width n : Nat) : List Char :=
  let digits := Nat.toDigits 10 n
  List.replicate (width - digits.length) '0' ++ digits

def plainFinite (coefficient : Nat) (exponent : Int) : List Char :=
  if 0 ≤ exponent then Nat.toDigits 10 (coefficient * 10 ^ exponent.toNat)
  else
    let places := (-exponent).toNat
    Nat.toDigits 10 (coefficient / 10 ^ places) ++ '.' :: padded places (coefficient % 10 ^ places)

def withSign (negative : Bool) (text : List Char) : List Char := if negative then '-' :: text else text

def nanText (signaling : Bool) (payload : Nat) : List Char :=
  (if signaling then ['s', 'N', 'a', 'N'] else ['N', 'a', 'N']) ++ if payload = 0 then [] else Nat.toDigits 10 payload

/-- The notation without an exponent. -/
def plain : Decimal → List Char
  | finite negative coefficient exponent => withSign negative (plainFinite coefficient exponent)
  | infinity negative => withSign negative ['I', 'n', 'f', 'i', 'n', 'i', 't', 'y']
  | nan negative signaling payload => withSign negative (nanText signaling payload)

end Notation

example : (normalize .standard (finite true 12345678901234567890123456785 (-3))).toOption.map plain =
    some "-12345678901234567890123456.78".toList := by decide +kernel

/-- Two numbers are equal: finite ones as rational numbers. -/
def Same : Decimal → Decimal → Prop
  | finite negative c e, finite negative' c' e' =>
    ((if negative then -1 else 1) * c * 10 ^ e : ℚ) = (if negative' then -1 else 1) * c' * 10 ^ e'
  | infinity negative, infinity negative' => negative = negative'
  | nan _ _ _, nan _ _ _ => True
  | _, _ => False

lemma same_refl (d : Decimal) : d.Same d := by
  cases d <;> simp [Same]

lemma same_symm {a b : Decimal} (h : a.Same b) : b.Same a := by
  cases a <;> cases b <;> first | exact h.symm | exact h

lemma same_trans {a b c : Decimal} (h : a.Same b) (h' : b.Same c) : a.Same c := by
  cases a <;> cases b <;> cases c <;> first | exact Eq.trans h h' | exact absurd h id | exact absurd h' id | trivial

/-- No other form of the same finite number has fewer digits. -/
def Reduced : Decimal → Prop
  | finite _ c e => (c = 0 ∧ e = 0) ∨ c % 10 ≠ 0
  | _ => True

section Injective

variable {m n places width c c' : Nat} {e e' : Int}

lemma toDigits_injective (h : Nat.toDigits 10 m = Nat.toDigits 10 n) : m = n := by
  have hvalue := congrArg (Nat.ofDigitChars 10 · 0) h
  simpa only [Nat.ofDigitChars_ten_toDigits] using hvalue

lemma padded_injective (h : padded width m = padded width n) : m = n := by
  have hvalue := congrArg (Nat.ofDigitChars 10 · 0) h
  simpa [padded, Nat.ofDigitChars_append, Nat.ofDigitChars_replicate_zero] using hvalue

lemma length_padded (hwidth : 0 < width) (h : n < 10 ^ width) : (padded width n).length = width := by
  have hle := (Nat.length_toDigits_le_iff (by decide : 1 < 10) hwidth).mpr h
  simp only [padded, List.length_append, List.length_replicate]
  omega

lemma isDigit_toDigits {d : Char} (h : d ∈ Nat.toDigits 10 n) : d.isDigit = true :=
  Nat.isDigit_of_mem_toDigits (by decide) (by decide) h

lemma isDigit_padded {d : Char} (h : d ∈ padded width n) : d.isDigit = true := by
  rcases List.mem_append.mp h with hzero | hdigit
  · rw [List.eq_of_mem_replicate hzero]
    rfl
  · exact isDigit_toDigits hdigit

lemma plainFinite_of_nonneg (h : 0 ≤ e) : plainFinite c e = Nat.toDigits 10 (c * 10 ^ e.toNat) := if_pos h

lemma plainFinite_of_neg (h : e < 0) :
    plainFinite c e = Nat.toDigits 10 (c / 10 ^ (-e).toNat) ++ '.' :: padded (-e).toNat (c % 10 ^ (-e).toNat) :=
  if_neg (by omega)

lemma isDigit_plainFinite {d : Char} (h : d ∈ plainFinite c e) : d.isDigit = true ∨ d = '.' := by
  by_cases he : 0 ≤ e
  · rw [plainFinite_of_nonneg he] at h
    exact Or.inl (isDigit_toDigits h)
  · rw [plainFinite_of_neg (by omega), List.mem_append, List.mem_cons] at h
    rcases h with h | h | h
    · exact Or.inl (isDigit_toDigits h)
    · exact Or.inr h
    · exact Or.inl (isDigit_padded h)

lemma point_mem_plainFinite : '.' ∈ plainFinite c e ↔ e < 0 := by
  by_cases he : 0 ≤ e
  · rw [plainFinite_of_nonneg he]
    refine iff_of_false (fun h => ?_) (by omega)
    exact absurd (isDigit_toDigits h) (by decide)
  · rw [plainFinite_of_neg (by omega)]
    exact iff_of_true (by simp) (by omega)

/-- A text before the first separator, and the text after it. -/
lemma separated_inj {α : Type} {separator : α} {a a' b b' : List α} (ha : separator ∉ a) (ha' : separator ∉ a')
    (h : a ++ separator :: b = a' ++ separator :: b') : a = a' ∧ b = b' := by
  induction a generalizing a' with
  | nil =>
    cases a' with
    | nil => exact ⟨rfl, (List.cons.inj h).2⟩
    | cons d a' => exact absurd ((List.cons.inj h).1 ▸ List.mem_cons_self) ha'
  | cons d a ih =>
    cases a' with
    | nil => exact absurd ((List.cons.inj h).1 ▸ List.mem_cons_self) ha
    | cons d' a' =>
      obtain ⟨rfl, hrest⟩ := List.cons.inj h
      obtain ⟨rfl, rfl⟩ := ih (fun hd => ha (List.mem_cons_of_mem _ hd)) (fun hd => ha' (List.mem_cons_of_mem _ hd)) hrest
      exact ⟨rfl, rfl⟩

lemma point_not_mem_toDigits : '.' ∉ Nat.toDigits 10 n := fun h => absurd (isDigit_toDigits h) (by decide)

/-- Two forms of one number that do not end in a zero are the same. -/
lemma eq_of_mul_pow (hc : c % 10 ≠ 0) (he : m ≤ n) (h : c * 10 ^ m = c' * 10 ^ n) : m = n ∧ c = c' := by
  obtain ⟨k, rfl⟩ := Nat.exists_eq_add_of_le he
  rw [Nat.pow_add, Nat.mul_comm (10 ^ m), ← Nat.mul_assoc] at h
  have hcancel : c = c' * 10 ^ k := Nat.eq_of_mul_eq_mul_right (by positivity) h
  cases k with
  | zero => exact ⟨rfl, by simpa using hcancel⟩
  | succ k =>
    rw [Nat.pow_succ, ← Nat.mul_assoc] at hcancel
    omega

lemma plainFinite_injective (hc : (c = 0 ∧ e = 0) ∨ c % 10 ≠ 0) (hc' : (c' = 0 ∧ e' = 0) ∨ c' % 10 ≠ 0)
    (h : plainFinite c e = plainFinite c' e') : c = c' ∧ e = e' := by
  have hpoint : e < 0 ↔ e' < 0 := by rw [← point_mem_plainFinite (c := c), h, point_mem_plainFinite]
  by_cases hneg : e < 0
  · rw [plainFinite_of_neg hneg, plainFinite_of_neg (hpoint.mp hneg)] at h
    obtain ⟨hint, hfraction⟩ := separated_inj point_not_mem_toDigits point_not_mem_toDigits h
    have hlength := congrArg List.length hfraction
    rw [length_padded (by omega) (Nat.mod_lt _ (by positivity)), length_padded (by omega) (Nat.mod_lt _ (by positivity))]
      at hlength
    have he : e = e' := by omega
    subst he
    refine ⟨?_, rfl⟩
    rw [← Nat.div_add_mod c (10 ^ (-e).toNat), toDigits_injective hint, padded_injective hfraction, Nat.div_add_mod]
  · rw [plainFinite_of_nonneg (by omega), plainFinite_of_nonneg (by omega)] at h
    have hvalue := toDigits_injective h
    rcases hc with ⟨rfl, rfl⟩ | hc
    · rcases hc' with ⟨rfl, rfl⟩ | hc'
      · exact ⟨rfl, rfl⟩
      · have hzero : c' * 10 ^ e'.toNat = 0 := by simpa using hvalue.symm
        rcases Nat.mul_eq_zero.mp hzero with rfl | hpow
        · simp at hc'
        · exact absurd hpow (by positivity)
    · rcases hc' with ⟨rfl, rfl⟩ | hc'
      · have hzero : c * 10 ^ e.toNat = 0 := by simpa using hvalue
        rcases Nat.mul_eq_zero.mp hzero with rfl | hpow
        · simp at hc
        · exact absurd hpow (by positivity)
      · rcases Nat.le_total e.toNat e'.toNat with hle | hle
        · obtain ⟨he, rfl⟩ := eq_of_mul_pow hc hle hvalue
          exact ⟨rfl, by omega⟩
        · obtain ⟨he, rfl⟩ := eq_of_mul_pow hc' hle hvalue.symm
          exact ⟨rfl, by omega⟩

lemma head?_plainFinite : ∃ d, (plainFinite c e).head? = some d ∧ d.isDigit = true := by
  have hdigits : ∀ n, ∃ d rest, Nat.toDigits 10 n = d :: rest ∧ d.isDigit = true := by
    intro n
    obtain ⟨d, rest, hn⟩ := List.exists_cons_of_ne_nil (Nat.toDigits_ne_nil (n := n) (b := 10))
    exact ⟨d, rest, hn, isDigit_toDigits (n := n) (hn ▸ List.mem_cons_self)⟩
  by_cases he : 0 ≤ e
  · obtain ⟨d, rest, hn, hd⟩ := hdigits (c * 10 ^ e.toNat)
    exact ⟨d, by rw [plainFinite_of_nonneg he, hn, List.head?_cons], hd⟩
  · obtain ⟨d, rest, hn, hd⟩ := hdigits (c / 10 ^ (-e).toNat)
    exact ⟨d, by rw [plainFinite_of_neg (by omega), hn, List.cons_append, List.head?_cons], hd⟩

/-- The notation without its sign. -/
def unsigned : Decimal → List Char
  | finite _ c e => plainFinite c e
  | infinity _ => ['I', 'n', 'f', 'i', 'n', 'i', 't', 'y']
  | nan _ signaling payload => nanText signaling payload

def negative : Decimal → Bool
  | finite negative _ _ => negative
  | infinity negative => negative
  | nan negative _ _ => negative

lemma plain_eq (d : Decimal) : d.plain = withSign d.negative d.unsigned := by
  cases d <;> rfl

lemma head?_unsigned (d : Decimal) : d.unsigned.head? ≠ some '-' := by
  cases d with
  | finite _ c e =>
    obtain ⟨d, hd, hdigit⟩ := head?_plainFinite (c := c) (e := e)
    rw [unsigned, hd]
    intro hminus
    rw [Option.some.inj hminus] at hdigit
    exact absurd hdigit (by decide)
  | infinity => simp [unsigned]
  | nan _ signaling payload => cases signaling <;> simp [unsigned, nanText]

lemma withSign_injective {s s' : Bool} {t t' : List Char} (ht : t.head? ≠ some '-') (ht' : t'.head? ≠ some '-')
    (h : withSign s t = withSign s' t') : s = s' ∧ t = t' := by
  cases s <;> cases s' <;> simp only [withSign, Bool.false_eq_true, if_true, if_false] at h
  · exact ⟨rfl, h⟩
  · exact absurd (h ▸ rfl) ht
  · exact absurd (h ▸ rfl) ht'
  · exact ⟨rfl, (List.cons.inj h).2⟩

lemma payload_injective {p q : Nat}
    (h : (if p = 0 then [] else Nat.toDigits 10 p) = if q = 0 then [] else Nat.toDigits 10 q) : p = q := by
  split_ifs at h with hp hq hq
  · rw [hp, hq]
  · exact absurd h.symm Nat.toDigits_ne_nil
  · exact absurd h Nat.toDigits_ne_nil
  · exact toDigits_injective h

/-- A number in its simplest form is told by its notation. -/
lemma plain_injective {a b : Decimal} (ha : a.Reduced) (hb : b.Reduced) (h : a.plain = b.plain) : a = b := by
  rw [plain_eq, plain_eq] at h
  obtain ⟨hsign, htext⟩ := withSign_injective (head?_unsigned a) (head?_unsigned b) h
  have hword : ∀ {c : Nat} {e : Int} {d : Char} {rest : List Char}, d.isDigit = false → plainFinite c e ≠ d :: rest := by
    intro c e d rest hd hfinite
    obtain ⟨d', hhead, hdigit⟩ := head?_plainFinite (c := c) (e := e)
    rw [hfinite, List.head?_cons, Option.some.injEq] at hhead
    rw [hhead, hdigit] at hd
    cases hd
  cases a with
  | finite s c e =>
    cases b with
    | finite s' c' e' =>
      rw [unsigned, unsigned] at htext
      obtain ⟨rfl, rfl⟩ := plainFinite_injective ha hb htext
      exact congrArg (finite · c e) hsign
    | infinity => exact absurd htext (hword (by decide))
    | nan _ signaling => cases signaling <;> exact absurd htext (hword (by decide))
  | infinity s =>
    cases b with
    | finite => exact absurd htext.symm (hword (by decide))
    | infinity => exact congrArg infinity hsign
    | nan _ signaling => cases signaling <;> simp [unsigned, nanText] at htext
  | nan s signaling p =>
    cases b with
    | finite => cases signaling <;> exact absurd htext.symm (hword (by decide))
    | infinity => cases signaling <;> simp [unsigned, nanText] at htext
    | nan s' signaling' p' =>
      obtain rfl : s = s' := hsign
      cases signaling <;> cases signaling' <;> simp [unsigned, nanText] at htext
      · rw [payload_injective htext]
      · rw [payload_injective htext]

end Injective

section Normal

variable {context : DecimalContext} {fuel c c' n places : Nat} {e e' : Int}

lemma digitCount_le_iff (h : 0 < places) : digitCount n ≤ places ↔ n < 10 ^ places :=
  Nat.length_toDigits_le_iff (by decide) h

lemma digitCount_pos : 0 < digitCount n := Nat.length_toDigits_pos

lemma digitCount_div (h : 10 ≤ n) : digitCount (n / 10) + 1 = digitCount n := by
  rw [digitCount, digitCount, Nat.toDigits_of_base_le (by decide) h, List.length_append, List.length_singleton]

lemma halfEven_le (hprec : 0 < context.prec) (h : digitCount c ≤ context.prec + places) :
    halfEven c places ≤ 10 ^ context.prec := by
  have hc : c < 10 ^ context.prec * 10 ^ places := by
    rw [← Nat.pow_add]
    exact (digitCount_le_iff (by omega)).mp h
  have hquotient : c / 10 ^ places < 10 ^ context.prec := Nat.div_lt_of_lt_mul (by rwa [Nat.mul_comm])
  simp only [halfEven]
  split <;> omega

/-- A rounded number is in the range of the context. -/
lemma fix_range (hprec : 0 < context.prec) (hrange : context.emin ≤ context.emax) (h : fix context c e = .ok (c', e'))
    (hc' : c' ≠ 0) : e' + digitCount c' ≤ context.emax + 1 := by
  have htop : context.etop + context.prec = context.emax + 1 := by
    unfold DecimalContext.etop
    omega
  have htiny : context.etiny ≤ context.etop := by
    unfold DecimalContext.etiny DecimalContext.etop
    omega
  unfold fix at h
  simp only at h
  split_ifs at h with hzero hlarge hround hfits hcarry
  · cases h
    exact absurd rfl hc'
  · cases h
    omega
  · cases h
    have hbound : halfEven c (max (↑(digitCount c) + e - ↑context.prec) context.etiny - e).toNat ≤ 10 ^ context.prec :=
      halfEven_le hprec (by omega)
    have hdigits : digitCount (halfEven c (max (↑(digitCount c) + e - ↑context.prec) context.etiny - e).toNat / 10) ≤
        context.prec := by
      refine (digitCount_le_iff hprec).mpr (lt_of_le_of_lt (Nat.div_le_div_right hbound) ?_)
      exact Nat.div_lt_self (by positivity) (by decide)
    omega
  · cases h
    omega

lemma stripZeros_reduced (hc : c ≠ 0) (hrange : e + digitCount c ≤ context.emax + 1) (hfuel : digitCount c ≤ fuel) :
    (stripZeros context fuel c e).1 % 10 ≠ 0 := by
  induction fuel generalizing c e with
  | zero => exact absurd (digitCount_pos (n := c)) (by omega)
  | succ fuel ih =>
    unfold stripZeros
    split
    · rename_i hstrip
      have hdiv := digitCount_div (n := c) (by omega)
      exact ih (by omega) (by omega) (by omega)
    · rename_i hstop
      intro hzero
      have hdigit : digitCount c ≤ 1 := by omega
      have hsmall := (digitCount_le_iff (by decide)).mp hdigit
      omega

lemma normalize_reduced (hprec : 0 < context.prec) (hrange : context.emin ≤ context.emax) {d d' : Decimal}
    (h : d.normalize context = .ok d') : d'.Reduced := by
  cases d with
  | finite s c e =>
    cases hfix : fix context c e with
    | error signal =>
      simp only [normalize, hfix] at h
      cases h
    | ok fixed =>
      obtain ⟨c', e'⟩ := fixed
      simp only [normalize, hfix] at h
      change (if c' = 0 then _ else _) = _ at h
      split at h
      · cases h
        exact Or.inl ⟨rfl, rfl⟩
      · rename_i hc'
        cases h
        exact Or.inr (stripZeros_reduced hc' (fix_range hprec hrange hfix hc') le_rfl)
  | infinity => cases h; trivial
  | nan _ signaling =>
    cases signaling
    · cases h; trivial
    · cases h

end Normal

end Decimal

end PlatformGitops.Library
