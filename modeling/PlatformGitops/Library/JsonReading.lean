import PlatformGitops.Library.JsonEncoding

/-! What is read can be written and read again, and the same map has the same fields. -/

namespace PlatformGitops.Library.Json

section Fields

lemma lookup_perm {fields fields' : List (String × Json)} (hn : (fields.map (·.1)).Nodup) (h : fields.Perm fields')
    (key : String) : fields.lookup key = fields'.lookup key := by
  have hn' : (fields'.map (·.1)).Nodup := (h.map _).nodup_iff.mp hn
  refine Option.ext fun v => ?_
  rw [← mem_iff_lookup hn, ← mem_iff_lookup hn', h.mem_iff]

/-- The same map has the same value at each key. -/
lemma Same.get {v w : Json} (h : Same v w) (hv : Distinct v) (key : String) : Same (v.get key) (w.get key) := by
  induction h with
  | refl v => exact .refl _
  | trans huv _ ihu ihv => exact (ihu hv).trans (ihv (huv.distinct hv))
  | item => exact .refl _
  | @value v w before after k hvw _ =>
    induction before with
    | nil =>
      simp only [Json.get, List.nil_append, List.lookup_cons]
      cases key == k
      · exact .refl _
      · exact hvw
    | cons p before ih =>
      have hrest : Distinct (.obj (before ++ (k, v) :: after)) := by
        rw [Distinct, all_obj] at hv ⊢
        refine ⟨?_, fun q hq => hv.2 q (List.mem_cons_of_mem _ hq)⟩
        have hn := hv.1
        simp only [DistinctKeys, List.cons_append, List.map_cons, List.nodup_cons] at hn
        exact hn.2
      have hget := ih hrest
      obtain ⟨k', u⟩ := p
      simp only [Json.get, List.cons_append, List.lookup_cons] at hget ⊢
      cases key == k'
      · exact hget
      · exact .refl _
  | order hperm =>
    simp only [Json.get, lookup_perm hv.self hperm]
    exact .refl _

lemma Same.asStr?_eq {v w : Json} (h : Same v w) : v.asStr? = w.asStr? := by
  induction h with
  | trans _ _ ihu ihv => exact ihu.trans ihv
  | _ => rfl

/-- Values that are the same are equal, or both lists or both maps, empty together. -/
lemma Same.cases {v w : Json} (h : Same v w) :
    v = w ∨ (∃ xs ys, v = .list xs ∧ w = .list ys ∧ (xs = [] ↔ ys = [])) ∨
      ∃ fields fields', v = .obj fields ∧ w = .obj fields' ∧ (fields = [] ↔ fields' = []) := by
  induction h with
  | refl v => exact .inl rfl
  | trans _ _ ihu ihv =>
    rcases ihu with rfl | ⟨xs, ys, rfl, rfl, hxy⟩ | ⟨xs, ys, rfl, rfl, hxy⟩
    · exact ihv
    · rcases ihv with rfl | ⟨xs', zs, hxs, rfl, hyz⟩ | ⟨xs', zs, hxs, -⟩
      · exact .inr (.inl ⟨xs, ys, rfl, rfl, hxy⟩)
      · cases hxs
        exact .inr (.inl ⟨xs, zs, rfl, rfl, hxy.trans hyz⟩)
      · cases hxs
    · rcases ihv with rfl | ⟨xs', zs, hxs, -⟩ | ⟨xs', zs, hxs, rfl, hyz⟩
      · exact .inr (.inr ⟨xs, ys, rfl, rfl, hxy⟩)
      · cases hxs
      · cases hxs
        exact .inr (.inr ⟨xs, zs, rfl, rfl, hxy.trans hyz⟩)
  | item => exact .inr (.inl ⟨_, _, rfl, rfl, by simp⟩)
  | value => exact .inr (.inr ⟨_, _, rfl, rfl, by simp⟩)
  | order hperm => exact .inr (.inr ⟨_, _, rfl, rfl, ⟨fun h => by simpa [h] using hperm, fun h => by simpa [h] using hperm⟩⟩)

lemma distinct_get {v : Json} (h : Distinct v) (key : String) : Distinct (v.get key) := by
  cases v with
  | obj fields =>
    cases hlookup : fields.lookup key with
    | none =>
      simp only [Json.get, hlookup]
      trivial
    | some u =>
      simp only [Json.get, hlookup, Option.getD_some]
      obtain ⟨l₁, l₂, rfl, -⟩ := List.lookup_eq_some_iff.mp hlookup
      rw [Distinct, all_obj] at h
      exact h.2 (key, u) (by simp)
  | _ => trivial

end Fields

section Numbers

variable {float : String → String}

lemma digitsOf_spec (s : List Char) : s = (digitsOf s).1 ++ (digitsOf s).2 ∧ ∀ c ∈ (digitsOf s).1, isNumberChar c := by
  refine ⟨(List.takeWhile_append_dropWhile).symm, fun c hc => ?_⟩
  have hdigit := List.mem_takeWhile_imp hc
  simp [isNumberChar, hdigit]

lemma ofDigitChars_lt {digits : List Char} (h : ∀ c ∈ digits, c.isDigit) :
    Nat.ofDigitChars 10 digits 0 < 10 ^ digits.length := by
  induction digits with
  | nil => simp
  | cons c digits ih =>
    obtain ⟨hc, hdigits⟩ := List.forall_mem_cons.mp h
    have hrest := ih hdigits
    have hvalue : c.toNat - '0'.toNat ≤ 9 := by
      have hrange := (Char.isDigit_iff_toNat.mp hc).2
      have hzero : '0'.toNat = 48 := rfl
      have hnine : '9'.toNat = 57 := rfl
      omega
    rw [Nat.ofDigitChars_cons, Nat.ofDigitChars_eq_ofDigitChars_zero, List.length_cons, pow_succ, Nat.mul_zero,
      Nat.zero_add]
    have hmul := Nat.mul_le_mul_left (10 ^ digits.length) hvalue
    omega

lemma integerPart?_digits {s : List Char} {out : List Char × List Char} (h : integerPart? s = some out) :
    ∀ c ∈ out.1, c.isDigit := by
  unfold integerPart? at h
  split_ifs at h with hzero hdigits
  · cases h
    simp
  · cases h
    exact fun c hc => List.mem_takeWhile_imp hc

lemma head?_eq_some_cons {s : List Char} {c : Char} (h : s.head? = some c) : s = c :: s.tail := by
  cases s with
  | nil => cases h
  | cons d s => cases h; rfl

lemma minusPart_spec (s : List Char) : s = (minusPart s).1 ++ (minusPart s).2 ∧ ∀ c ∈ (minusPart s).1, isNumberChar c := by
  unfold minusPart
  split_ifs with h
  · exact ⟨head?_eq_some_cons h, by simp; decide⟩
  · exact ⟨rfl, by simp⟩

lemma integerPart?_spec {s : List Char} {out : List Char × List Char} (h : integerPart? s = some out) :
    s = out.1 ++ out.2 ∧ ∀ c ∈ out.1, isNumberChar c := by
  unfold integerPart? at h
  split_ifs at h with hzero hdigits
  · cases h
    exact ⟨head?_eq_some_cons hzero, by simp; decide⟩
  · cases h
    exact digitsOf_spec s

lemma fractionPart_spec (s : List Char) :
    s = (fractionPart s).1 ++ (fractionPart s).2 ∧ ∀ c ∈ (fractionPart s).1, isNumberChar c := by
  obtain ⟨hdigits, hchars⟩ := digitsOf_spec s.tail
  unfold fractionPart
  split_ifs with h
  · refine ⟨?_, List.forall_mem_cons.mpr ⟨by decide, hchars⟩⟩
    rw [List.cons_append, ← hdigits]
    exact head?_eq_some_cons h.1
  · exact ⟨rfl, by simp⟩

lemma signPart_spec (s : List Char) : s = (signPart s).1 ++ (signPart s).2 ∧ ∀ c ∈ (signPart s).1, isNumberChar c := by
  unfold signPart
  split_ifs with h
  · rcases h with h | h
    · rw [head?_eq_some_cons h]
      exact ⟨rfl, by simp; decide⟩
    · rw [head?_eq_some_cons h]
      exact ⟨rfl, by simp; decide⟩
  · exact ⟨rfl, by simp⟩

lemma exponentPart_spec (s : List Char) :
    s = (exponentPart s).1 ++ (exponentPart s).2 ∧ ∀ c ∈ (exponentPart s).1, isNumberChar c := by
  obtain ⟨hsign, hsignChars⟩ := signPart_spec s.tail
  obtain ⟨hdigits, hchars⟩ := digitsOf_spec (signPart s.tail).2
  simp only [exponentPart]
  split_ifs with h
  · have hhead : ∃ c, s = c :: s.tail ∧ isNumberChar c := by
      rcases h.1 with h | h
      · exact ⟨_, head?_eq_some_cons h, by decide⟩
      · exact ⟨_, head?_eq_some_cons h, by decide⟩
    obtain ⟨c, hs, hc⟩ := hhead
    have htake : s.take 1 = [c] := by rw [hs]; rfl
    refine ⟨?_, ?_⟩
    · rw [htake, List.append_assoc, List.append_assoc, ← hdigits, ← hsign]
      exact hs
    · rw [htake]
      exact List.forall_mem_append.mpr ⟨List.forall_mem_append.mpr ⟨by simpa using hc, hsignChars⟩, hchars⟩
  · exact ⟨rfl, by simp⟩

/-- The characters of a number that is read. -/
lemma scanNumber_chars {s rest : List Char} {v : Json} (h : scanNumber float s = some (v, rest)) :
    ∃ used, s = used ++ rest ∧ ∀ c ∈ used, isNumberChar c := by
  obtain ⟨⟨digits, more⟩, hint, h⟩ := Option.bind_eq_some_iff.mp h
  obtain ⟨hminus, hminusChars⟩ := minusPart_spec s
  obtain ⟨hinteger, hintegerChars⟩ := integerPart?_spec hint
  obtain ⟨hfraction, hfractionChars⟩ := fractionPart_spec more
  obtain ⟨hexponent, hexponentChars⟩ := exponentPart_spec (fractionPart more).2
  simp only at hinteger hintegerChars h
  split at h
  · split at h
    · cases h
      refine ⟨(minusPart s).1 ++ digits, ?_, List.forall_mem_append.mpr ⟨hminusChars, hintegerChars⟩⟩
      rw [List.append_assoc, ← hinteger, ← hminus]
    · cases h
  · cases h
    refine ⟨(minusPart s).1 ++ (digits ++ ((fractionPart more).1 ++ (exponentPart (fractionPart more).2).1)), ?_, ?_⟩
    · rw [List.append_assoc, List.append_assoc, List.append_assoc, ← hexponent, ← hfraction, ← hinteger, ← hminus]
    · simp only [List.forall_mem_append]
      exact ⟨hminusChars, hintegerChars, hfractionChars, hexponentChars⟩

lemma FloatText.printable {text : String} (h : FloatText float text) : ∀ c ∈ text.toList, 32 ≤ c.toNat := by
  rcases h with h | h
  · simp only [literals, List.mem_cons, Prod.mk.injEq, List.not_mem_nil, or_false, reduceCtorEq, and_false, false_or]
      at h
    rcases h with ⟨-, h⟩ | ⟨-, h⟩ | ⟨-, h⟩ <;> cases h <;> simp
  · obtain ⟨used, hused, hchars⟩ := scanNumber_chars h
    rw [List.append_nil] at hused
    intro c hc
    have hchar := hchars c (hused ▸ hc)
    simp only [isNumberChar, List.mem_cons, List.not_mem_nil, or_false, decide_eq_true_eq] at hchar
    rcases hchar with hdigit | rfl | rfl | rfl | rfl | rfl
    · exact le_trans (by decide) (Char.isDigit_iff_toNat.mp hdigit).1
    all_goals decide

lemma natAbs_lt_of_scanNumber {s rest : List Char} {n : Int} (h : scanNumber float s = some (.int n, rest)) :
    n.natAbs < 10 ^ maxIntDigits := by
  obtain ⟨⟨digits, more⟩, hint, h⟩ := Option.bind_eq_some_iff.mp h
  have hlt := ofDigitChars_lt (integerPart?_digits hint)
  simp only at hlt h
  split at h
  · split at h
    · rename_i hlen
      cases h
      have hle : 10 ^ digits.length ≤ 10 ^ maxIntDigits := Nat.pow_le_pow_right (by decide) hlen
      split_ifs
      · simpa using lt_of_lt_of_le hlt hle
      · simpa using lt_of_lt_of_le hlt hle
    · cases h
  · cases h

/-- The text of a float that was read is read as that float. -/
def ReadsFloats (float : String → String) : Prop :=
  ∀ s text rest, scanNumber float s = some (.float text, rest) → FloatText float text

lemma loads_readable (hfloat : ReadsFloats float) {s : List Char} {v : Json} (h : loads float s = some v) :
    All (Readable float) v := by
  refine loads_all ⟨?_, fun _ => trivial, ?_, fun _ => trivial, fun _ hn => hn⟩ h
  · intro l hl
    have hmem := hl
    simp only [literals, List.mem_cons, List.not_mem_nil, or_false] at hl
    rcases hl with rfl | rfl | rfl | rfl | rfl | rfl
    · trivial
    · trivial
    · trivial
    all_goals exact .inl hmem
  · intro s v rest h
    rcases scanNumber_scalar h with ⟨n, rfl⟩ | ⟨text, rfl⟩
    · exact natAbs_lt_of_scanNumber h
    · exact hfloat s text rest h

end Numbers

end PlatformGitops.Library.Json
