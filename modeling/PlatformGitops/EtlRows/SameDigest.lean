import PlatformGitops.EtlRows.TypedRow

/-! When the digests of two typed rows are the same. -/

namespace PlatformGitops.EtlRows

open Library
open EtlWorker (ColumnMeta TableMeta)

variable {X : Externals} {a b v : PyValue} {text : List Char}

section Values

/-- The kind of column that holds the value. -/
def PyValue.kind : PyValue → Option Kind
  | none => Option.none
  | bool _ => some .boolean
  | int _ => some .integer
  | decimal _ => some .numeric
  | float _ => some .double
  | str _ => some .text
  | bytes _ => some .bytea
  | datetime _ => some .timestamptz
  | date _ => some .date
  | uuid _ => some .uuid

def Kind.stored : Kind → Kind
  | .other => .text
  | kind => kind

def OfKind (kind : Kind) (v : PyValue) : Prop := v.kind = none ∨ v.kind = some kind.stored

/-- The values are not told apart when they are hashed. -/
def Indistinct : PyValue → PyValue → Prop
  | .decimal d, .decimal d' => d.normalize .standard = d'.normalize .standard
  | .datetime t, .datetime t' => astimezone t = astimezone t'
  | v, v' => v = v'

def quoted (s : List Char) : List Char := '"' :: s.flatMap escapeChar ++ ['"']

lemma quoted_append_injective {s t r r' : List Char} (h : quoted s ++ r = quoted t ++ r') : s = t ∧ r = r' := by
  simp only [quoted, List.cons_append, List.append_assoc, List.nil_append, List.cons.injEq, true_and] at h
  let n := (s.flatMap escapeChar).length + (t.flatMap escapeChar).length + 1
  have hs : Json.scanString n (s.flatMap escapeChar ++ '"' :: r) = some (s, r) := Json.scanString_dumps (by omega)
  have ht : Json.scanString n (t.flatMap escapeChar ++ '"' :: r') = some (t, r') := Json.scanString_dumps (by omega)
  rw [h, ht] at hs
  exact ⟨(Prod.mk.inj (Option.some.inj hs)).1.symm, (Prod.mk.inj (Option.some.inj hs)).2.symm⟩

lemma quoted_injective {s t : List Char} (h : quoted s = quoted t) : s = t := by
  have happend : quoted s ++ [] = quoted t ++ [] := by rw [h]
  exact (quoted_append_injective happend).1

/-- The values that are hashed as they are, but for texts. -/
def Bare : PyValue → Bool
  | .none | .bool _ | .int _ | .float _ => true
  | _ => false

def bareText : PyValue → List Char
  | .bool true => ['t', 'r', 'u', 'e']
  | .bool false => ['f', 'a', 'l', 's', 'e']
  | .int n => (toString n).toList
  | .float (.finite text) => text.val.toList
  | .float (.infinity false) => ['I', 'n', 'f', 'i', 'n', 'i', 't', 'y']
  | .float (.infinity true) => ['-', 'I', 'n', 'f', 'i', 'n', 'i', 't', 'y']
  | .float .nan => ['N', 'a', 'N']
  | _ => ['n', 'u', 'l', 'l']

lemma valueText_unique {text' : List Char} (h : ValueText X v text) (h' : ValueText X v text') : text = text' := by
  obtain ⟨normal, spelled, hnormal, hspelled, htext⟩ := h
  obtain ⟨normal', spelled', hnormal', hspelled', htext'⟩ := h'
  cases hnormal.symm.trans hnormal'
  cases hspelled.symm.trans hspelled'
  exact Option.some.inj (htext.symm.trans htext')

lemma text_of_bare (hbare : Bare v = true) (h : ValueText X v text) : bareText v = text := by
  obtain ⟨normal, spelled, hnormal, hspelled, htext⟩ := h
  have hchars : ∀ {s : List Char}, dumpsValue X v = .ok (ofChars s) → normal = v → s = text := by
    intro s hdumps hself
    rw [hself, hdumps] at hspelled
    cases hspelled
    exact Option.some.inj ((chars?_ofChars s).symm.trans htext)
  cases v with
  | none =>
    cases hnormal
    exact hchars rfl rfl
  | bool b => cases b <;> cases hnormal <;> exact hchars rfl rfl
  | int n =>
    cases hnormal
    by_cases hprint : Printable n
    · exact hchars (s := (toString n).toList) (by rw [dumpsValue, if_pos hprint]) rfl
    · rw [dumpsValue, if_neg hprint] at hspelled
      cases hspelled
  | float f => rcases f with value | ⟨_ | _⟩ | _ <;> cases hnormal <;> exact hchars rfl rfl
  | _ => cases hbare

lemma text_of_not_bare (hbare : Bare v = false) (h : ValueText X v text) :
    ∃ s, normalizeForHash v = .ok (.str (ofChars s)) ∧ quoted s = text := by
  obtain ⟨normal, spelled, hnormal, hspelled, htext⟩ := h
  obtain ⟨t, rfl⟩ : ∃ t, normal = .str t := by
    cases v with
    | str t =>
      cases hnormal
      exact ⟨t, rfl⟩
    | decimal d =>
      simp only [normalizeForHash] at hnormal
      split at hnormal <;> cases hnormal
      exact ⟨_, rfl⟩
    | datetime t =>
      obtain ⟨utc, -, h⟩ := Fallible.bind_eq_ok.mp hnormal
      cases h
      exact ⟨_, rfl⟩
    | date d =>
      cases hnormal
      exact ⟨_, rfl⟩
    | bytes b =>
      cases hnormal
      exact ⟨_, rfl⟩
    | uuid u =>
      cases hnormal
      exact ⟨_, rfl⟩
    | _ => cases hbare
  cases hspelled
  rw [chars?_dumpsText, Option.map_eq_some_iff] at htext
  obtain ⟨s, hs, htext⟩ := htext
  exact ⟨s, by rw [hnormal, ofChars_of_chars? hs], htext⟩

lemma toString_int_injective {m n : Int} (h : (toString m).toList = (toString n).toList) : m = n := by
  have hsign : ∀ k : Int, (toString k).toList = Decimal.withSign (decide (k < 0)) (Nat.toDigits 10 k.natAbs) := by
    intro k
    rw [Json.toList_toString_int]
    by_cases hk : k < 0 <;> simp [Decimal.withSign, hk]
  have hhead : ∀ k : Nat, (Nat.toDigits 10 k).head? ≠ some '-' := by
    intro k hminus
    exact absurd (Decimal.isDigit_toDigits (List.mem_of_mem_head? hminus)) (by decide)
  rw [hsign, hsign] at h
  obtain ⟨hneg, hdigits⟩ := Decimal.withSign_injective (hhead _) (hhead _) h
  have habs := Decimal.toDigits_injective hdigits
  have hneg : m < 0 ↔ n < 0 := by simpa using hneg
  omega

lemma hexDigit_injective : ∀ m < 16, ∀ n < 16, hexDigit m = hexDigit n → m = n := by
  decide

lemma hexText_injective {b c : List UInt8} (h : hexText b = hexText c) : b = c := by
  induction b generalizing c with
  | nil => cases c <;> simp_all [hexText]
  | cons x b ih =>
    cases c with
    | nil => simp [hexText] at h
    | cons y c =>
      simp only [hexText, List.flatMap_cons, List.cons_append, List.nil_append, List.cons.injEq] at h
      obtain ⟨hhigh, hlow, hrest⟩ := h
      have hx := x.toNat_lt
      have hy := y.toNat_lt
      have hdiv := hexDigit_injective _ (by omega) _ (by omega) hhigh
      have hmod := hexDigit_injective _ (Nat.mod_lt _ (by decide)) _ (Nat.mod_lt _ (by decide)) hlow
      have hxy : x = y := UInt8.toNat_inj.mp (by omega)
      rw [hxy, ih hrest]

lemma uuidText_injective {u w : PyUuid} (h : uuidText u = uuidText w) : u = w := by
  have hgroups : ∀ ds es : List Char, ds.length = 32 → es.length = 32 →
      ds.take 8 ++ '-' :: ((ds.drop 8).take 4 ++ '-' :: ((ds.drop 12).take 4 ++ '-' ::
        ((ds.drop 16).take 4 ++ '-' :: ds.drop 20))) =
      es.take 8 ++ '-' :: ((es.drop 8).take 4 ++ '-' :: ((es.drop 12).take 4 ++ '-' ::
        ((es.drop 16).take 4 ++ '-' :: es.drop 20))) → ds = es := by
    intro ds es hds hes heq
    obtain ⟨h1, heq⟩ := List.append_inj heq (by simp [hds, hes])
    obtain ⟨h2, heq⟩ := List.append_inj (List.cons.inj heq).2 (by simp [hds, hes])
    obtain ⟨h3, heq⟩ := List.append_inj (List.cons.inj heq).2 (by simp [hds, hes])
    obtain ⟨h4, heq⟩ := List.append_inj (List.cons.inj heq).2 (by simp [hds, hes])
    have h5 := (List.cons.inj heq).2
    have hsplit : ∀ xs : List Char, xs = xs.take 8 ++ ((xs.drop 8).take 4 ++ ((xs.drop 12).take 4 ++
        ((xs.drop 16).take 4 ++ xs.drop 20))) := by
      intro xs
      have hdrop : ∀ m n, (xs.drop m).take n ++ xs.drop (m + n) = xs.drop m := by
        intro m n
        rw [← List.drop_drop, List.take_append_drop]
      rw [hdrop 16 4, hdrop 12 4, hdrop 8 4, List.take_append_drop]
    rw [hsplit ds, hsplit es, h1, h2, h3, h4, h5]
  have hdigits := hgroups _ _ (by simp [u.length_digits]) (by simp [w.length_digits]) h
  have hinj : Function.Injective fun digit : Fin 16 => hexDigit digit.val :=
    fun m n hmn => Fin.ext (hexDigit_injective m m.isLt n n.isLt hmn)
  cases u
  cases w
  congr
  exact List.map_injective_iff.mpr hinj hdigits

/-- Values of one kind with the same normal form are not told apart. -/
lemma indistinct_of_normal (hkind : a.kind = b.kind) (hbare : Bare a = false) {s : List Char} (h : normalizeForHash a = .ok (.str (ofChars s)))
    (h' : normalizeForHash b = .ok (.str (ofChars s))) : Indistinct a b := by
  have hchars : ∀ {t : List Char}, normalizeForHash a = .ok (.str (ofChars t)) → t = s := fun ht =>
    ofChars_injective (PyValue.str.inj (Except.ok.inj (ht.symm.trans h)))
  have hchars' : ∀ {t : List Char}, normalizeForHash b = .ok (.str (ofChars t)) → t = s := fun ht =>
    ofChars_injective (PyValue.str.inj (Except.ok.inj (ht.symm.trans h')))
  cases a with
  | str t =>
    cases b with
    | str t' =>
      cases h
      cases h'
      rfl
    | _ => cases hkind
  | decimal d =>
    cases b with
    | decimal d' =>
      cases hn : d.normalize .standard with
      | error e => cases e <;> simp [normalizeForHash, hn] at h
      | ok normal =>
        cases hn' : d'.normalize .standard with
        | error e => cases e <;> simp [normalizeForHash, hn'] at h'
        | ok normal' =>
          have htext := hchars (t := normal.plain) (by simp only [normalizeForHash, hn])
          have htext' := hchars' (t := normal'.plain) (by simp only [normalizeForHash, hn'])
          have hsame := Decimal.plain_injective (Decimal.normalize_reduced (by decide) (by decide) hn)
            (Decimal.normalize_reduced (by decide) (by decide) hn') (htext.trans htext'.symm)
          rw [Indistinct, hn, hn', hsame]
    | _ => cases hkind
  | datetime t =>
    cases b with
    | datetime t' =>
      obtain ⟨utc, hutc, heq⟩ := Fallible.bind_eq_ok.mp h
      obtain ⟨utc', hutc', heq'⟩ := Fallible.bind_eq_ok.mp h'
      have htext := hchars (t := Calendar.isoUtc utc) (by simp only [normalizeForHash, hutc]; rfl)
      have htext' := hchars' (t := Calendar.isoUtc utc') (by simp only [normalizeForHash, hutc']; rfl)
      rw [Indistinct, hutc, hutc', Calendar.isoUtc_injective (htext.trans htext'.symm)]
    | _ => cases hkind
  | date d =>
    cases b with
    | date d' =>
      have hday := Calendar.isoDate_injective (Nat.succ_pos _) (Nat.succ_pos _) ((hchars rfl).trans (hchars' rfl).symm)
      exact congrArg PyValue.date (congrArg PyDate.mk (Fin.ext (Nat.succ.inj hday)))
    | _ => cases hkind
  | bytes c =>
    cases b with
    | bytes c' => exact congrArg PyValue.bytes (hexText_injective ((hchars rfl).trans (hchars' rfl).symm))
    | _ => cases hkind
  | uuid u =>
    cases b with
    | uuid u' => exact congrArg PyValue.uuid (uuidText_injective ((hchars rfl).trans (hchars' rfl).symm))
    | _ => cases hkind
  | _ => cases hbare

/-- The text of a value that is not quoted starts neither as a quoted one nor, but for the missing value, as `null`. -/
lemma head_bareText (hbare : Bare v = true) {c : Char} (h : (bareText v).head? = some c) : c ≠ '"' ∧ (c = 'n' → v = .none) := by
  have hnumber : ∀ {s : String}, s.toList.all Json.isNumberChar = true → s.toList.head? = some c → c ≠ '"' ∧ c ≠ 'n' := by
    intro s hall hhead
    have hc := List.all_eq_true.mp hall c (List.mem_of_mem_head? hhead)
    constructor <;> rintro rfl <;> exact absurd hc (by decide)
  cases v with
  | none =>
    cases h
    exact ⟨by decide, fun _ => rfl⟩
  | bool b => cases b <;> cases h <;> exact ⟨by decide, fun hn => absurd hn (by decide)⟩
  | int n =>
    rw [bareText, Json.toList_toString_int] at h
    split at h
    · cases h
      exact ⟨by decide, fun hn => absurd hn (by decide)⟩
    · have hdigit := Decimal.isDigit_toDigits (List.mem_of_mem_head? h)
      constructor
      · rintro rfl
        exact absurd hdigit (by decide)
      · rintro rfl
        exact absurd hdigit (by decide)
  | float f =>
    rcases f with value | ⟨_ | _⟩ | _
    · obtain ⟨hquote, hn⟩ := hnumber value.property h
      exact ⟨hquote, fun hc => absurd hc hn⟩
    all_goals
      cases h
      exact ⟨by decide, fun hn => absurd hn (by decide)⟩
  | _ => cases hbare

lemma bareText_eq_null (hbare : Bare v = true) (h : bareText v = bareText .none) : v = .none := by
  exact (head_bareText hbare (c := 'n') (by rw [h]; rfl)).2 rfl

lemma indistinct_of_bare (hkind : a.kind = b.kind) (hbare : Bare a = true) (h : bareText a = bareText b) :
    Indistinct a b := by
  have hword : ∀ {value : {s : String // s.toList.all Json.isNumberChar = true}} {s : List Char},
      s.all Json.isNumberChar = false → value.val.toList ≠ s := by
    rintro value s hs rfl
    rw [value.property] at hs
    cases hs
  cases a with
  | none =>
    cases b with
    | none => rfl
    | _ => cases hkind
  | bool x =>
    cases b with
    | bool y => cases x <;> cases y <;> cases h <;> rfl
    | _ => cases hkind
  | int m =>
    cases b with
    | int n => exact congrArg PyValue.int (toString_int_injective h)
    | _ => cases hkind
  | float f =>
    cases b with
    | float g =>
      refine congrArg PyValue.float ?_
      rcases f with value | ⟨_ | _⟩ | _ <;> rcases g with value' | ⟨_ | _⟩ | _
      · exact congrArg PyFloat.finite (Subtype.ext (String.toList_injective h))
      all_goals
        first
        | rfl
        | exact absurd h (hword (by decide))
        | exact absurd h.symm (hword (by decide))
        | exact absurd h (by decide)
    | _ => cases hkind
  | _ => cases hbare

/-- Values of one column with the same text are not told apart. -/
lemma indistinct_of_text {kind : Kind} (ha : OfKind kind a) (hb : OfKind kind b) (hta : ValueText X a text)
    (htb : ValueText X b text) : Indistinct a b := by
  have hkinds : a.kind = b.kind ∨ a = .none ∨ b = .none := by
    have hnone : ∀ {v : PyValue}, v.kind = none → v = .none := by
      intro v hv
      cases v <;> first | rfl | cases hv
    rcases ha with ha | ha <;> rcases hb with hb | hb
    · exact Or.inr (Or.inl (hnone ha))
    · exact Or.inr (Or.inl (hnone ha))
    · exact Or.inr (Or.inr (hnone hb))
    · exact Or.inl (ha.trans hb.symm)
  cases hbare : Bare a <;> cases hbare' : Bare b
  · obtain ⟨s, hs, htext⟩ := text_of_not_bare hbare hta
    obtain ⟨s', hs', htext'⟩ := text_of_not_bare hbare' htb
    obtain rfl := quoted_injective (htext.trans htext'.symm)
    rcases hkinds with hkinds | rfl | rfl
    · exact indistinct_of_normal hkinds hbare hs hs'
    · cases hbare
    · cases hbare'
  · obtain ⟨s, hs, htext⟩ := text_of_not_bare hbare hta
    have htext' := text_of_bare hbare' htb
    exact absurd rfl (head_bareText hbare' (c := '"') (by rw [htext', ← htext]; rfl)).1
  · obtain ⟨s, hs, htext⟩ := text_of_not_bare hbare' htb
    have htext' := text_of_bare hbare hta
    exact absurd rfl (head_bareText hbare (c := '"') (by rw [htext', ← htext]; rfl)).1
  · have hsame : bareText a = bareText b := (text_of_bare hbare hta).trans (text_of_bare hbare' htb).symm
    rcases hkinds with hkinds | rfl | rfl
    · exact indistinct_of_bare hkinds hbare hsame
    · rw [bareText_eq_null hbare' hsame.symm]
      rfl
    · rw [bareText_eq_null hbare hsame]
      rfl

end Values

section Payloads

/-- The text of a value shows where it ends. -/
def Delimited (text : List Char) : Prop := (∃ s, quoted s = text) ∨ ∀ c ∈ text, c ∉ ['"', ',', '\x7d']

lemma delimited_of_text (h : ValueText X v text) : Delimited text := by
  cases hbare : Bare v with
  | false =>
    obtain ⟨s, -, htext⟩ := text_of_not_bare hbare h
    exact Or.inl ⟨s, htext⟩
  | true =>
    refine Or.inr ?_
    rw [← text_of_bare hbare h]
    have hdigit : ∀ {n : Nat} {c : Char}, c ∈ Nat.toDigits 10 n → c ∉ ['"', ',', '\x7d'] := by
      intro n c hc hmem
      have hc := Decimal.isDigit_toDigits hc
      simp only [List.mem_cons, List.not_mem_nil, or_false] at hmem
      rcases hmem with rfl | rfl | rfl <;> exact absurd hc (by decide)
    have hword : ∀ {s : List Char}, s.all (fun c => c ∉ ['"', ',', '\x7d']) = true → ∀ c ∈ s, c ∉ ['"', ',', '\x7d'] :=
      fun h c hc => of_decide_eq_true (List.all_eq_true.mp h c hc)
    cases v with
    | none => exact hword (by decide)
    | bool b => cases b <;> exact hword (by decide)
    | int n =>
      intro c hc
      rw [bareText, Json.toList_toString_int, List.mem_append] at hc
      rcases hc with hc | hc
      · split at hc
        · rw [List.mem_singleton.mp hc]
          decide
        · simp at hc
      · exact hdigit hc
    | float f =>
      rcases f with value | ⟨_ | _⟩ | _
      · intro c hc hmem
        have hnumber := List.all_eq_true.mp value.property c hc
        simp only [List.mem_cons, List.not_mem_nil, or_false] at hmem
        rcases hmem with rfl | rfl | rfl <;> exact absurd hnumber (by decide)
      all_goals exact hword (by decide)
    | _ => cases hbare

/-- What follows a value in a payload. -/
def Follows (r : List Char) : Prop := ∃ c rest, r = c :: rest ∧ c ∈ [',', '\x7d']

lemma append_injective {t t' r r' : List Char} (ht : Delimited t) (ht' : Delimited t') (hr : Follows r)
    (hr' : Follows r') (h : t ++ r = t' ++ r') : t = t' ∧ r = r' := by
  have hmixed : ∀ {s t r r' : List Char}, (∀ c ∈ t, c ∉ ['"', ',', '\x7d']) → Follows r' → quoted s ++ r ≠ t ++ r' := by
    rintro s t r r' ht ⟨c, rest, rfl, hc⟩ heq
    cases t with
    | nil =>
      obtain rfl : '"' = c := (List.cons.inj heq).1
      exact absurd hc (by decide)
    | cons d t =>
      obtain rfl : '"' = d := (List.cons.inj heq).1
      exact ht _ List.mem_cons_self List.mem_cons_self
  rcases ht with ⟨s, rfl⟩ | ht <;> rcases ht' with ⟨s', rfl⟩ | ht'
  · obtain ⟨rfl, rfl⟩ := quoted_append_injective h
    exact ⟨rfl, rfl⟩
  · exact absurd h (hmixed ht' hr')
  · exact absurd h.symm (hmixed ht hr)
  · obtain ⟨c, rest, rfl, hc⟩ := hr
    obtain ⟨c', rest', rfl, hc'⟩ := hr'
    induction t generalizing t' with
    | nil =>
      cases t' with
      | nil => exact ⟨rfl, h⟩
      | cons d t' =>
        obtain rfl : c = d := (List.cons.inj h).1
        exact absurd (List.mem_cons_of_mem _ hc) (ht' c List.mem_cons_self)
    | cons d t ih =>
      obtain ⟨hd, ht⟩ := List.forall_mem_cons.mp ht
      cases t' with
      | nil =>
        obtain rfl : d = c' := (List.cons.inj h).1
        exact absurd (List.mem_cons_of_mem _ hc') hd
      | cons d' t' =>
        obtain ⟨rfl, htail⟩ := List.cons.inj h
        obtain ⟨rfl, hrest⟩ := ih ht (List.forall_mem_cons.mp ht').2 htail
        exact ⟨rfl, hrest⟩

lemma intercalate_cons {α : Type} (separator text : List α) (texts : List (List α)) :
    separator.intercalate (text :: texts) = text ++ texts.flatMap (separator ++ ·) := by
  induction texts generalizing text with
  | nil => simp
  | cons next texts ih =>
    have hstep : separator.intercalate (text :: next :: texts) = text ++ (separator ++ separator.intercalate (next :: texts)) := by
      simp [List.intercalate]
    rw [hstep, ih, List.flatMap_cons, List.append_assoc]

def left (z : String × PyValue × PyValue) : String × PyValue := (z.1, z.2.1)

def right (z : String × PyValue × PyValue) : String × PyValue := (z.1, z.2.2)

def following (texts : List (String × List Char)) : List Char :=
  texts.flatMap (fun p => ',' :: ' ' :: fieldText p.1 p.2) ++ ['\x7d']

lemma follows_following (texts : List (String × List Char)) : Follows (following texts) := by
  cases texts with
  | nil => exact ⟨_, _, rfl, by decide⟩
  | cons p texts => exact ⟨_, _, rfl, by decide⟩

/-- A field and what follows it. -/
def fieldThen (p : String × List Char) (r : List Char) : List Char := dumpsStr p.1 ++ ':' :: ' ' :: (p.2 ++ r)

lemma following_cons (p : String × List Char) (texts : List (String × List Char)) :
    following (p :: texts) = ',' :: ' ' :: fieldThen p (following texts) := by
  simp [following, fieldText, fieldThen]

lemma payload_cons (p : String × List Char) (texts : List (String × List Char)) :
    payload (p :: texts) = '\x7b' :: fieldThen p (following texts) := by
  rw [payload, List.map_cons, intercalate_cons, following, fieldText, fieldThen, List.flatMap_map]
  simp

lemma fieldThen_injective {column : String} {t t' r r' : List Char} (ht : Delimited t) (ht' : Delimited t')
    (hr : Follows r) (hr' : Follows r') (h : fieldThen (column, t) r = fieldThen (column, t') r') : t = t' ∧ r = r' := by
  have hvalue : t ++ r = t' ++ r' := by simpa [fieldThen] using h
  exact append_injective ht ht' hr hr' hvalue

lemma following_injective {rows : List (String × PyValue × PyValue)} {texts texts' : List (String × List Char)}
    (h : List.Forall₂ (FieldText X) (rows.map left) texts) (h' : List.Forall₂ (FieldText X) (rows.map right) texts')
    (heq : following texts = following texts') : texts = texts' := by
  induction rows generalizing texts texts' with
  | nil =>
    cases h
    cases h'
    rfl
  | cons z rows ih =>
    obtain ⟨⟨column, t⟩, texts, ⟨rfl, ht⟩, htexts, rfl⟩ := List.forall₂_cons_left_iff.mp h
    obtain ⟨⟨column', t'⟩, texts', ⟨rfl, ht'⟩, htexts', rfl⟩ := List.forall₂_cons_left_iff.mp h'
    rw [following_cons, following_cons] at heq
    obtain ⟨rfl, hrest⟩ := fieldThen_injective (delimited_of_text ht) (delimited_of_text ht') (follows_following _)
      (follows_following _) (List.cons.inj (List.cons.inj heq).2).2
    rw [ih htexts htexts' hrest]
    rfl

/-- The payload shows the text of each value. -/
lemma payload_injective {rows : List (String × PyValue × PyValue)} {texts texts' : List (String × List Char)}
    (h : List.Forall₂ (FieldText X) (rows.map left) texts) (h' : List.Forall₂ (FieldText X) (rows.map right) texts')
    (heq : payload texts = payload texts') : texts = texts' := by
  cases rows with
  | nil =>
    cases h
    cases h'
    rfl
  | cons z rows =>
    obtain ⟨⟨column, t⟩, texts, ⟨rfl, ht⟩, htexts, rfl⟩ := List.forall₂_cons_left_iff.mp h
    obtain ⟨⟨column', t'⟩, texts', ⟨rfl, ht'⟩, htexts', rfl⟩ := List.forall₂_cons_left_iff.mp h'
    rw [payload_cons, payload_cons] at heq
    obtain ⟨rfl, hrest⟩ := fieldThen_injective (delimited_of_text ht) (delimited_of_text ht') (follows_following _)
      (follows_following _) (List.cons.inj heq).2
    rw [following_injective htexts htexts' hrest]
    rfl

lemma indistinct_cases (h : Indistinct a b) :
    (∃ d d', a = .decimal d ∧ b = .decimal d' ∧ d.normalize .standard = d'.normalize .standard) ∨
      (∃ t t', a = .datetime t ∧ b = .datetime t' ∧ astimezone t = astimezone t') ∨ a = b := by
  unfold Indistinct at h
  split at h
  · exact Or.inl ⟨_, _, rfl, rfl, h⟩
  · exact Or.inr (Or.inl ⟨_, _, rfl, rfl, h⟩)
  · exact Or.inr (Or.inr h)

lemma normalize_of_indistinct (h : Indistinct a b) : normalizeForHash a = normalizeForHash b := by
  rcases indistinct_cases h with ⟨d, d', rfl, rfl, hsame⟩ | ⟨t, t', rfl, rfl, hsame⟩ | rfl
  · simp only [normalizeForHash, hsame]
  · simp only [normalizeForHash, hsame]
  · rfl

lemma valueText_of_indistinct (h : Indistinct a b) (ha : ValueText X a text) : ValueText X b text := by
  obtain ⟨normal, spelled, hnormal, hspelled, htext⟩ := ha
  exact ⟨normal, spelled, (normalize_of_indistinct h).symm.trans hnormal, hspelled, htext⟩

lemma shared_text {rows : List (String × PyValue × PyValue)} {texts : List (String × List Char)}
    (h : List.Forall₂ (FieldText X) (rows.map left) texts) (h' : List.Forall₂ (FieldText X) (rows.map right) texts) :
    ∀ z ∈ rows, ∃ text, ValueText X z.2.1 text ∧ ValueText X z.2.2 text := by
  induction rows generalizing texts with
  | nil => simp
  | cons z rows ih =>
    obtain ⟨p, texts, ⟨-, ht⟩, htexts, rfl⟩ := List.forall₂_cons_left_iff.mp h
    obtain ⟨⟨-, ht'⟩, htexts'⟩ := List.forall₂_cons.mp h'
    exact List.forall_mem_cons.mpr ⟨⟨p.2, ht, ht'⟩, ih htexts htexts'⟩

lemma texts_of_indistinct {rows : List (String × PyValue × PyValue)} {texts texts' : List (String × List Char)}
    (hsame : ∀ z ∈ rows, Indistinct z.2.1 z.2.2) (h : List.Forall₂ (FieldText X) (rows.map left) texts)
    (h' : List.Forall₂ (FieldText X) (rows.map right) texts') : texts = texts' := by
  induction rows generalizing texts texts' with
  | nil =>
    cases h
    cases h'
    rfl
  | cons z rows ih =>
    obtain ⟨hz, hrows⟩ := List.forall_mem_cons.mp hsame
    obtain ⟨⟨column, t⟩, texts, ⟨rfl, ht⟩, htexts, rfl⟩ := List.forall₂_cons_left_iff.mp h
    obtain ⟨⟨column', t'⟩, texts', ⟨rfl, ht'⟩, htexts', rfl⟩ := List.forall₂_cons_left_iff.mp h'
    obtain rfl := valueText_unique (valueText_of_indistinct hz ht) ht'
    rw [ih hrows htexts htexts']
    rfl

end Payloads

section Rows

variable {raw raw' out out' : Row} {cols : List ColumnMeta} {col : ColumnMeta} {tableMeta : TableMeta}

lemma ofKind_castTo {kind : Kind} {raw : PyValue} (h : castTo X kind raw = .ok (.ok v)) : OfKind kind v := by
  refine Or.inr ?_
  cases kind with
  | text | other | integer | numeric | double =>
    obtain ⟨_, -, hv⟩ := Fallible.bind_eq_ok.mp h
    cases hv
    rfl
  | boolean =>
    cases h
    rfl
  | uuid =>
    obtain ⟨t, -, h⟩ := Fallible.bind_eq_ok.mp h
    obtain ⟨u, -, hv⟩ := Fallible.bind_eq_ok.mp h
    cases hv
    rfl
  | timestamptz =>
    cases raw with
    | datetime t =>
      cases h
      rfl
    | str t =>
      obtain ⟨u, -, hv⟩ := Fallible.bind_eq_ok.mp h
      cases hv
      rfl
    | _ => cases h
  | date =>
    obtain ⟨d, rfl⟩ := castTo_date h
    rfl
  | bytea =>
    obtain ⟨b, rfl⟩ := castTo_bytea h
    rfl

lemma ofKind_typed (h : Typed X raw col v) : OfKind (kindOf X col.pgType) v := by
  rcases castValue_of_typed h with ⟨-, rfl⟩ | ⟨-, hcast⟩
  · exact Or.inl rfl
  · exact ofKind_castTo hcast

def Comparable (z : String × PyValue × PyValue) : Prop := ∃ kind, OfKind kind z.2.1 ∧ OfKind kind z.2.2

/-- The rows have the same columns in the same order, each of values of one kind. -/
def SideBySide (row row' : Row) : Prop :=
  ∃ rows : Dict String (PyValue × PyValue), row = rows.map left ∧ row' = rows.map right ∧ ∀ z ∈ rows, Comparable z

lemma SideBySide.set {row row' : Row} {name : String} {value value' : PyValue} (h : SideBySide row row')
    (hvalue : Comparable (name, value, value')) : SideBySide (Dict.set row name value) (Dict.set row' name value') := by
  obtain ⟨rows, rfl, rfl, hrows⟩ := h
  exact ⟨Dict.set rows name (value, value'), Dict.set_map (a := (value, value')) Prod.fst,
    Dict.set_map (a := (value, value')) Prod.snd, Dict.forall_set hrows hvalue⟩

lemma columns_side_by_side {row row' : Row} (hrows : SideBySide row row')
    (h : transformColumns X raw cols row = .ok (.ok out)) (h' : transformColumns X raw' cols row' = .ok (.ok out')) :
    SideBySide out out' := by
  induction cols generalizing row row' with
  | nil =>
    cases h
    cases h'
    exact hrows
  | cons col cols ih =>
    obtain ⟨value, hvalue, hout⟩ := transformColumns_cons_eq_ok.mp h
    obtain ⟨value', hvalue', hout'⟩ := transformColumns_cons_eq_ok.mp h'
    exact ih (hrows.set ⟨_, ofKind_typed hvalue, ofKind_typed hvalue'⟩) hout hout'

lemma source_side_by_side (h : SideBySide out out') : SideBySide (withSource tableMeta out) (withSource tableMeta out') := by
  have htext : ∀ {name : String} {t : PyText}, Comparable (name, .str t, .str t) := ⟨.text, Or.inr rfl, Or.inr rfl⟩
  have hint : ∀ {name : String} {n : Int}, Comparable (name, .int n, .int n) := ⟨.integer, Or.inr rfl, Or.inr rfl⟩
  unfold withSource withYear
  cases tableMeta.sourceYear with
  | none => exact (h.set htext).set htext
  | some year => exact ((h.set htext).set hint).set htext

lemma indistinct_refl (a : PyValue) : Indistinct a a := by
  cases a <;> rfl

lemma forall_rows_iff {rows : Dict String (PyValue × PyValue)} (hunique : Dict.Unique rows) :
    (∀ z ∈ rows, Indistinct z.2.1 z.2.2) ↔
      ∀ name, Indistinct (Row.get (rows.map left) name) (Row.get (rows.map right) name) := by
  have hleft : ∀ name, Row.get (rows.map left) name = ((rows.lookup name).map Prod.fst).getD .none := fun name =>
    congrArg (Option.getD · PyValue.none) (Dict.lookup_map Prod.fst name)
  have hright : ∀ name, Row.get (rows.map right) name = ((rows.lookup name).map Prod.snd).getD .none := fun name =>
    congrArg (Option.getD · PyValue.none) (Dict.lookup_map Prod.snd name)
  constructor
  · intro h name
    rw [hleft, hright]
    cases hname : rows.lookup name with
    | none => rfl
    | some values => exact h (name, values) (hunique.mem_iff.mpr hname)
  · rintro h ⟨name, values⟩ hz
    have hname := h name
    rw [hleft, hright, hunique.mem_iff.mp hz] at hname
    exact hname

/-- The digests of two rows are the same if no column tells the rows apart. -/
lemma contentHash_eq_iff (hsha : Function.Injective X.sha256) {row row' : Row} (hrows : SideBySide row row')
    (hunique : Dict.Unique row) {hash hash' : String} (h : contentHash X row = .ok hash) (h' : contentHash X row' = .ok hash') :
    hash = hash' ↔ ∀ name, Indistinct (row.get name) (row'.get name) := by
  obtain ⟨rows, rfl, rfl, hkinds⟩ := hrows
  have hunique : Dict.Unique rows := by
    have hnames : (rows.map left).map (·.1) = rows.map (·.1) := by simp [left]
    rwa [Dict.Unique, hnames] at hunique
  rw [← forall_rows_iff hunique]
  obtain ⟨texts, htexts, rfl⟩ := contentHash_eq_ok.mp h
  obtain ⟨texts', htexts', rfl⟩ := contentHash_eq_ok.mp h'
  unfold left at htexts
  unfold right at htexts'
  rw [Json.inOrder_map] at htexts htexts'
  have hmem : ∀ z, z ∈ Json.inOrder Json.codePointLe rows ↔ z ∈ rows := fun z => mem_inOrder
  simp only [← hmem] at hkinds ⊢
  clear hmem
  generalize Json.inOrder Json.codePointLe rows = sorted at *
  constructor
  · intro heq z hz
    obtain rfl := payload_injective htexts htexts' (Text.encode_injective (hsha heq))
    obtain ⟨text, ha, hb⟩ := shared_text htexts htexts' z hz
    obtain ⟨kind, hkind, hkind'⟩ := hkinds z hz
    exact indistinct_of_text hkind hkind' ha hb
  · intro hsame
    rw [texts_of_indistinct hsame htexts htexts']

end Rows

end PlatformGitops.EtlRows
