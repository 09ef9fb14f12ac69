import PlatformGitops.EnumDrift.Parsers
import PlatformGitops.Library.Fallible

/-! Which bodies of a TypeScript declaration hold an entry that is computed, and what the literals of a body stand for
when the program runs. -/

namespace PlatformGitops.EnumDrift

open Library

section Runtime

def hexDigit? (c : Char) : Option Nat :=
  if '0' ≤ c ∧ c ≤ '9' then some (c.toNat - '0'.toNat)
  else if 'a' ≤ c ∧ c ≤ 'f' then some (c.toNat - 'a'.toNat + 10)
  else if 'A' ≤ c ∧ c ≤ 'F' then some (c.toNat - 'A'.toNat + 10)
  else none

def hexNumber? (digits : List Char) : Option Nat :=
  (digits.mapM hexDigit?).map fun ds => ds.foldl (fun n d => 16 * n + d) 0

def isDecimalDigit (c : Char) : Bool := '0' ≤ c ∧ c ≤ '9'

def lineTerminators : List Char := ['\n', '\r', Char.ofNat 0x2028, Char.ofNat 0x2029]

def singleEscape? (c : Char) : Option Char :=
  if c = 'b' then some (Char.ofNat 8)
  else if c = 't' then some '\t'
  else if c = 'n' then some '\n'
  else if c = 'v' then some (Char.ofNat 11)
  else if c = 'f' then some (Char.ofNat 12)
  else if c = 'r' then some '\r'
  else if c = 'x' ∨ c = 'u' ∨ isDecimalDigit c ∨ c ∈ lineTerminators then none
  else some c

/-- What a literal of TypeScript stands for. Surrogates that are escaped one by one are left out. -/
inductive Denotes (quote : Char) : List LiteralUnit → Text → Prop
  | nil : Denotes quote [] []
  | plain {c units value} (hbreak : c ≠ '\n' ∧ c ≠ '\r')
      (hopen : quote = backtick → c = '$' → units.head? ≠ some (.plain '\x7b')) (h : Denotes quote units value) :
      Denotes quote (.plain c :: units) (c :: value)
  | newline {units value} (hquote : quote = backtick) (h : Denotes quote units value) :
      Denotes quote (.plain '\n' :: units) ('\n' :: value)
  | carriageReturn {units value} (hquote : quote = backtick) (hnext : units.head? ≠ some (.plain '\n'))
      (h : Denotes quote units value) : Denotes quote (.plain '\r' :: units) ('\n' :: value)
  | carriageReturnNewline {units value} (hquote : quote = backtick) (h : Denotes quote units value) :
      Denotes quote (.plain '\r' :: .plain '\n' :: units) ('\n' :: value)
  | single {c d units value} (hescape : singleEscape? c = some d) (h : Denotes quote units value) :
      Denotes quote (.escape c :: units) (d :: value)
  | zero {units value} (hnext : ∀ c, units.head? = some (.plain c) → ¬isDecimalDigit c) (h : Denotes quote units value) :
      Denotes quote (.escape '0' :: units) (nul :: value)
  | continuation {c units value} (hbreak : c ∈ lineTerminators)
      (hnext : c = '\r' → units.head? ≠ some (.plain '\n')) (h : Denotes quote units value) :
      Denotes quote (.escape c :: units) value
  | continuationNewline {units value} (h : Denotes quote units value) :
      Denotes quote (.escape '\r' :: .plain '\n' :: units) value
  | hex {a b n units value} (hdigits : hexNumber? [a, b] = some n) (h : Denotes quote units value) :
      Denotes quote (.escape 'x' :: .plain a :: .plain b :: units) (Char.ofNat n :: value)
  | unicode {a b c d n units value} (hdigits : hexNumber? [a, b, c, d] = some n) (hchar : n.isValidChar)
      (h : Denotes quote units value) :
      Denotes quote (.escape 'u' :: .plain a :: .plain b :: .plain c :: .plain d :: units) (Char.ofNat n :: value)
  | codePoint {digits n units value} (hdigits : hexNumber? digits = some n) (hsome : digits ≠ []) (hchar : n.isValidChar)
      (h : Denotes quote units value) :
      Denotes quote (.escape 'u' :: .plain '\x7b' :: (digits.map .plain ++ .plain '\x7d' :: units)) (Char.ofNat n :: value)

def RuntimeValues (items : List Item) (values : List Text) : Prop :=
  List.Forall₂ (fun p value => Denotes p.1 p.2 value) (items.filterMap Item.literal?) values

end Runtime

section Computed

/-- What separates the entries, and whether a template behind a value is a call. -/
structure EntryStyle where
  separatorChar : Char
  tags : Bool
deriving DecidableEq, Repr

def tupleStyle : EntryStyle := ⟨',', true⟩

def unionStyle : EntryStyle := ⟨'|', false⟩

def Interpolates (units : List LiteralUnit) : Prop :=
  ∃ before after, units = before ++ .plain '$' :: .plain '\x7b' :: after

def Item.Interpolated : Item → Prop
  | literal quote units => quote = backtick ∧ Interpolates units
  | _ => False

def Item.IsTemplate : Item → Prop
  | literal quote _ => quote = backtick
  | _ => False

/-- The last item that is no blank is a literal. -/
def endsInLiteral (items : List Item) : Bool :=
  items.foldl (fun ends i =>
    match i with
    | .blank _ => ends
    | .separator => false
    | .literal _ _ => true) false

/-- The item behind these is computed at run time: a template with an expression in it, or one that is called. -/
def Computed (style : EntryStyle) (before : List Item) (i : Item) : Prop :=
  i.Interpolated ∨ (style.tags = true ∧ endsInLiteral before = true ∧ i.IsTemplate)

def NoneComputed (style : EntryStyle) (items : List Item) : Prop :=
  ∀ before i after, items = before ++ i :: after → ¬Computed style before i

/-- Behind these items something begins that is neither a literal nor a separator nor blank. -/
def OpensComputed (style : EntryStyle) (items : List Item) (rest : Text) : Prop :=
  (∃ c tail, rest = c :: tail ∧ c ∉ style.separatorChar :: blanks ∧ c ∉ quotes) ∨
  (∃ units tail, (∀ u ∈ units, u.Fits backtick) ∧ rest = backtick :: (unitsText units ++ '$' :: '\x7b' :: tail)) ∨
  (style.tags = true ∧ endsInLiteral items = true ∧
    ∃ units tail, (∀ u ∈ units, u.Fits backtick) ∧ rest = backtick :: (unitsText units ++ backtick :: tail))

/-- The body holds an element that is no literal of a fixed value. -/
def NonLiteral (style : EntryStyle) (body : Text) : Prop :=
  ∃ items rest, (∀ i ∈ items, i.Fits quotes) ∧ NoneComputed style items ∧
    body = itemsText style.separatorChar items ++ rest ∧ OpensComputed style items rest

def supportedEscapes : List Char := ['\\', 'n', 't', 'r', '"', '\'', backtick]

def LiteralUnit.Supported (quote : Char) : LiteralUnit → Prop
  | plain c => c ≠ nul ∧ (quote = backtick → c ≠ '\r')
  | escape c => c ∈ supportedEscapes

/-- However a body is read as entries, none is computed, and the escapes in them are supported. -/
def PlainlyWritten (style : EntryStyle) (body : Text) : Prop :=
  ∀ items : List Item, (∀ i ∈ items, i.Fits quotes) → body = itemsText style.separatorChar items →
    NoneComputed style items ∧
      ∀ runtime, RuntimeValues items runtime →
        ∀ p ∈ items.filterMap Item.literal?, ∀ u ∈ p.2, u.Supported p.1

/-- A computed entry is refused, and what is accepted is what the entries stand for. -/
def ReadsExactly (style : EntryStyle) (body : Text) (answer : Except ParseError (List Text)) : Prop :=
  (NonLiteral style body → ∃ e, answer = .error e) ∧
  ∀ values, answer = .ok values → ∀ items : List Item, (∀ i ∈ items, i.Fits quotes) →
    body = itemsText style.separatorChar items → ∀ runtime, RuntimeValues items runtime → values = runtime

end Computed

section Decoding

variable {quote c d : Char} {units : List LiteralUnit} {value : Text}

lemma Denotes.length_le (h : Denotes quote units value) : value.length ≤ units.length := by
  induction h with
  | nil => exact Nat.le_refl 0
  | plain _ _ _ ih | newline _ _ ih | carriageReturn _ _ _ ih | single _ _ ih | zero _ _ ih | continuation _ _ _ ih =>
    simp only [List.length_cons]
    omega
  | carriageReturnNewline _ _ ih | continuationNewline _ ih | hex _ _ ih | unicode _ _ _ ih =>
    simp only [List.length_cons]
    omega
  | codePoint _ _ _ _ ih =>
    simp only [List.length_cons, List.length_append]
    omega

lemma length_eq_one_of_flatMap {f : LiteralUnit → Text} (hpos : ∀ u, 1 ≤ (f u).length)
    (h : (units.flatMap f).length ≤ units.length) : ∀ u ∈ units, (f u).length = 1 := by
  induction units with
  | nil => simp
  | cons u units ih =>
    have hle : units.length ≤ (units.flatMap f).length := by
      clear h ih
      induction units with
      | nil => exact Nat.le_refl 0
      | cons u units ih =>
        have := hpos u
        simp only [List.flatMap_cons, List.length_append, List.length_cons]
        omega
    have := hpos u
    simp only [List.flatMap_cons, List.length_append, List.length_cons] at h
    exact List.forall_mem_cons.mpr ⟨by omega, ih (by omega)⟩

lemma supported_of_lookup (h : tsEscapes.lookup c = some d) : c ∈ supportedEscapes := by
  obtain ⟨before, after, heq, -⟩ := List.lookup_eq_some_iff.mp h
  have hkey : c ∈ tsEscapes.map Prod.fst := by
    rw [heq]
    simp
  exact List.mem_cons_of_mem '\\' hkey

lemma length_decoded (u : LiteralUnit) : 1 ≤ (u.decoded tsEscapes).length := by
  cases u with
  | plain c => exact Nat.le_refl 1
  | escape c =>
    rw [LiteralUnit.decoded]
    split
    · exact Nat.le_refl 1
    · cases tsEscapes.lookup c <;> simp

lemma supported_of_length (h : ((LiteralUnit.escape c).decoded tsEscapes).length = 1) : c ∈ supportedEscapes := by
  rw [LiteralUnit.decoded] at h
  split at h
  · rename_i hslash
    exact hslash ▸ List.mem_cons_self
  · cases hlookup : tsEscapes.lookup c with
    | none => simp [hlookup] at h
    | some d => exact supported_of_lookup hlookup

lemma decoded_supported (hc : c ∈ supportedEscapes) (hescape : singleEscape? c = some d) :
    (LiteralUnit.escape c).decoded tsEscapes = [d] := by
  have hall : ∀ c ∈ supportedEscapes, (singleEscape? c).map (fun d => [d]) = some ((LiteralUnit.escape c).decoded tsEscapes) := by
    simp only [supportedEscapes, List.forall_mem_cons]
    exact ⟨rfl, rfl, rfl, rfl, rfl, rfl, rfl, nofun⟩
  have hc := hall c hc
  rw [hescape] at hc
  exact (Option.some.inj hc).symm

lemma decoded_plain (hc : c ≠ nul) : (LiteralUnit.plain c).decoded tsEscapes = [c] := by
  rw [LiteralUnit.decoded, if_neg hc]

lemma zero_not_supported : '0' ∉ supportedEscapes := by decide

lemma hex_not_supported : 'x' ∉ supportedEscapes := by decide

lemma unicode_not_supported : 'u' ∉ supportedEscapes := by decide

lemma lineTerminator_not_supported (h : c ∈ lineTerminators) : c ∉ supportedEscapes := by
  have hall : ∀ c ∈ lineTerminators, c ∉ supportedEscapes := by
    simp only [lineTerminators, List.forall_mem_cons]
    exact ⟨by decide, by decide, by decide, by decide, nofun⟩
  exact hall c h

/-- What is supported is read as what it stands for. -/
lemma Denotes.decoded_eq (h : Denotes quote units value) (hsupported : ∀ u ∈ units, u.Supported quote) :
    units.flatMap (LiteralUnit.decoded tsEscapes) = value := by
  induction h with
  | nil => rfl
  | plain _ _ _ ih =>
    obtain ⟨hu, hunits⟩ := List.forall_mem_cons.mp hsupported
    rw [List.flatMap_cons, decoded_plain hu.1, ih hunits]
    rfl
  | newline _ _ ih =>
    obtain ⟨hu, hunits⟩ := List.forall_mem_cons.mp hsupported
    rw [List.flatMap_cons, decoded_plain hu.1, ih hunits]
    rfl
  | carriageReturn hquote _ _ _ | carriageReturnNewline hquote _ _ =>
    exact absurd rfl ((List.forall_mem_cons.mp hsupported).1.2 hquote)
  | single hescape _ ih =>
    obtain ⟨hu, hunits⟩ := List.forall_mem_cons.mp hsupported
    rw [List.flatMap_cons, decoded_supported hu hescape, ih hunits]
    rfl
  | zero => exact absurd (List.forall_mem_cons.mp hsupported).1 zero_not_supported
  | continuation hbreak => exact absurd (List.forall_mem_cons.mp hsupported).1 (lineTerminator_not_supported hbreak)
  | continuationNewline =>
    exact absurd (List.forall_mem_cons.mp hsupported).1 (lineTerminator_not_supported (by decide))
  | hex => exact absurd (List.forall_mem_cons.mp hsupported).1 hex_not_supported
  | unicode => exact absurd (List.forall_mem_cons.mp hsupported).1 unicode_not_supported
  | codePoint => exact absurd (List.forall_mem_cons.mp hsupported).1 unicode_not_supported

lemma Denotes.supported_of_escapes (h : Denotes quote units value)
    (heq : units.flatMap (LiteralUnit.decoded tsEscapes) = value)
    (hescapes : ∀ c, .escape c ∈ units → c ∈ supportedEscapes) : ∀ u ∈ units, u.Supported quote := by
  have hhead : ∀ {c : Char} {units : List LiteralUnit},
      (∀ d, .escape d ∈ LiteralUnit.escape c :: units → d ∈ supportedEscapes) → c ∈ supportedEscapes :=
    fun h => h _ List.mem_cons_self
  induction h with
  | nil => simp
  | @plain c units value hbreak _ _ ih =>
    have hcons : (if c = nul then '\\' else c) = c ∧ units.flatMap (LiteralUnit.decoded tsEscapes) = value := by
      simpa [LiteralUnit.decoded] using heq
    have hnul : c ≠ nul := by
      rintro rfl
      exact absurd hcons.1 (by decide)
    exact List.forall_mem_cons.mpr ⟨⟨hnul, fun _ => hbreak.2⟩,
      ih hcons.2 fun d hd => hescapes d (List.mem_cons_of_mem _ hd)⟩
  | @newline units value _ _ ih =>
    have hcons : units.flatMap (LiteralUnit.decoded tsEscapes) = value := by
      simpa [LiteralUnit.decoded, nul] using heq
    exact List.forall_mem_cons.mpr ⟨⟨by decide, fun _ => by decide⟩,
      ih hcons fun d hd => hescapes d (List.mem_cons_of_mem _ hd)⟩
  | carriageReturn => simp [LiteralUnit.decoded, nul] at heq
  | carriageReturnNewline => simp [LiteralUnit.decoded, nul] at heq
  | @single c d units value hescape _ ih =>
    have hc : c ∈ supportedEscapes := hhead hescapes
    rw [List.flatMap_cons, decoded_supported hc hescape] at heq
    exact List.forall_mem_cons.mpr ⟨hc, ih (List.cons.inj heq).2 fun d hd => hescapes d (List.mem_cons_of_mem _ hd)⟩
  | zero => exact absurd (hhead hescapes) zero_not_supported
  | continuation hbreak => exact absurd (hhead hescapes) (lineTerminator_not_supported hbreak)
  | continuationNewline => exact absurd (hhead hescapes) (lineTerminator_not_supported (by decide))
  | hex => exact absurd (hhead hescapes) hex_not_supported
  | unicode => exact absurd (hhead hescapes) unicode_not_supported
  | codePoint => exact absurd (hhead hescapes) unicode_not_supported

/-- A literal is read as what it stands for exactly if all of it is supported. -/
lemma Denotes.decoded_iff (h : Denotes quote units value) :
    units.flatMap (LiteralUnit.decoded tsEscapes) = value ↔ ∀ u ∈ units, u.Supported quote := by
  refine ⟨fun heq => h.supported_of_escapes heq fun c hc => supported_of_length ?_, h.decoded_eq⟩
  exact length_eq_one_of_flatMap length_decoded (heq ▸ h.length_le) _ hc

end Decoding

section Computed

variable {style : EntryStyle} {items : List Item} {rest body : Text} {units units' : List LiteralUnit}
  {u u' : LiteralUnit} {strategy : Strategy} {symbol : Text} {values : List Text}

lemma unitsText_cons_inj {quote : Char} {rest rest' : Text} (hu : u.Fits quote) (hu' : u'.Fits quote)
    (h : unitsText (u :: units) ++ rest = unitsText (u' :: units') ++ rest') :
    u = u' ∧ unitsText units ++ rest = unitsText units' ++ rest' := by
  simp only [unitsText, List.flatMap_cons, List.append_assoc] at h
  cases u with
  | plain c =>
    cases u' with
    | plain d =>
      obtain ⟨rfl, htail⟩ := List.cons.inj h
      exact ⟨rfl, htail⟩
    | escape d => exact absurd (List.cons.inj h).1 hu.2
  | escape c =>
    cases u' with
    | plain d => exact absurd (List.cons.inj h).1.symm hu'.2
    | escape d =>
      obtain ⟨rfl, htail⟩ := List.cons.inj (List.cons.inj h).2
      exact ⟨rfl, htail⟩

lemma units_plain_of_text {quote c : Char} {rest tail : Text} (hunits : ∀ u ∈ units, u.Fits quote) (hc : c ≠ quote)
    (hslash : c ≠ '\\') (h : unitsText units ++ quote :: rest = c :: tail) :
    ∃ after, units = .plain c :: after ∧ unitsText after ++ quote :: rest = tail := by
  cases units with
  | nil => exact absurd (List.cons.inj h).1.symm hc
  | cons u units =>
    have hu : LiteralUnit.Fits quote (.plain c) := ⟨hc, hslash⟩
    obtain ⟨rfl, htail⟩ := @unitsText_cons_inj units [] _ _ quote _ tail (hunits u List.mem_cons_self) hu h
    exact ⟨units, rfl, htail⟩

/-- What is written first in a literal are its first units. -/
lemma interpolates_of_text {quote : Char} {rest tail : Text} (hdollar : '$' ≠ quote) (hbrace : '\x7b' ≠ quote)
    (hslash : quote ≠ '\\') (hunits : ∀ u ∈ units, u.Fits quote) (hunits' : ∀ u ∈ units', u.Fits quote)
    (h : unitsText units' ++ quote :: rest = unitsText units ++ '$' :: '\x7b' :: tail) : Interpolates units' := by
  induction units generalizing units' with
  | nil =>
    obtain ⟨after, rfl, hbehind⟩ := units_plain_of_text hunits' hdollar (by decide) h
    have hafter := (List.forall_mem_cons.mp hunits').2
    obtain ⟨after, rfl, -⟩ := units_plain_of_text hafter hbrace (by decide) hbehind
    exact ⟨[], after, rfl⟩
  | cons u units ih =>
    obtain ⟨hu, hrest⟩ := List.forall_mem_cons.mp hunits
    cases units' with
    | nil =>
      cases u with
      | plain c => exact absurd (List.cons.inj h).1.symm hu.1
      | escape c => exact absurd (List.cons.inj h).1 hslash
    | cons u' units' =>
      obtain ⟨hu', hrest'⟩ := List.forall_mem_cons.mp hunits'
      obtain ⟨rfl, htail⟩ := unitsText_cons_inj hu' hu h
      obtain ⟨before, after, rfl⟩ := ih hrest hrest' htail
      exact ⟨u' :: before, after, rfl⟩

/-- Items that begin with a back-tick begin with a template. -/
lemma template_of_text {tail : Text} (hseparates : Separates quotes style.separatorChar)
    (h : ∀ i ∈ items, i.Fits quotes) (heq : itemsText style.separatorChar items = backtick :: tail) :
    ∃ units after, items = .literal backtick units :: after ∧ (∀ u ∈ units, u.Fits backtick) ∧
      unitsText units ++ backtick :: itemsText style.separatorChar after = tail := by
  have hbacktick : backtick ∈ quotes := by decide
  cases items with
  | nil => cases heq
  | cons i items =>
    obtain ⟨hi, -⟩ := List.forall_mem_cons.mp h
    rw [itemsText, List.flatMap_cons] at heq
    cases i with
    | blank c =>
      have hc : c = backtick := (List.cons.inj heq).1
      exact absurd (hc ▸ hbacktick) (hseparates.blank c hi)
    | separator =>
      have hc : style.separatorChar = backtick := (List.cons.inj heq).1
      exact absurd (hc ▸ hbacktick) hseparates.separator
    | literal quote units =>
      rw [Item.text, List.cons_append, List.append_assoc] at heq
      obtain ⟨rfl, htail⟩ := List.cons.inj heq
      exact ⟨units, items, rfl, hi.2, htail⟩

/-- A computed entry that is accepted is a template. -/
lemma computed_of_accepted (hseparates : Separates quotes style.separatorChar) (hbody : NonLiteral style body)
    (h : literalValues strategy quotes tsEscapes style.separatorChar symbol body = .ok values) :
    ∃ items : List Item, (∀ i ∈ items, i.Fits quotes) ∧ body = itemsText style.separatorChar items ∧
      ¬NoneComputed style items := by
  obtain ⟨items, rest, hitems, -, rfl, hopens⟩ := hbody
  have hresidual : ∀ c, .residual c ∈ pieces quotes 0 rest → c ∈ style.separatorChar :: blanks := by
    intro c hc
    refine residual_of_literalValues h c ?_
    rw [pieces_items hseparates hitems]
    exact List.mem_append_right _ hc
  obtain ⟨after, hafter, hrest⟩ := items_of_pieces hresidual
  refine ⟨items ++ after, fun i hi => (List.mem_append.mp hi).elim (hitems i) (hafter i), by simp [hrest], fun hnone => ?_⟩
  rcases hopens with ⟨c, tail, rfl, hc, hquote⟩ | ⟨units, tail, hunits, rfl⟩ | ⟨htags, hends, units, tail, hunits, rfl⟩
  · refine hc (hresidual c ?_)
    rw [pieces_residual hquote]
    exact List.mem_cons_self
  · obtain ⟨units', after, rfl, hunits', htext⟩ := template_of_text hseparates hafter hrest.symm
    have hinterpolates := interpolates_of_text (by decide) (by decide) (by decide) hunits hunits' htext
    exact hnone items _ after rfl (Or.inl ⟨rfl, hinterpolates⟩)
  · obtain ⟨units', after, rfl, -, -⟩ := template_of_text hseparates hafter hrest.symm
    exact hnone items _ after rfl (Or.inr ⟨htags, hends, rfl⟩)

lemma first_computed (h : ¬NoneComputed style items) :
    ∃ before i after, items = before ++ i :: after ∧ Computed style before i ∧ NoneComputed style before := by
  induction hlength : items.length using Nat.strong_induction_on generalizing items with
  | _ n ih =>
    simp only [NoneComputed, not_forall, not_not] at h
    obtain ⟨before, i, after, rfl, hcomputed⟩ := h
    by_cases hbefore : NoneComputed style before
    · exact ⟨before, i, after, rfl, hcomputed, hbefore⟩
    · obtain ⟨before', i', after', rfl, hcomputed', hbefore'⟩ :=
        ih before.length (by simp at hlength; omega) hbefore rfl
      exact ⟨before', i', after' ++ i :: after, by simp, hcomputed', hbefore'⟩

lemma nonLiteral_of_computed (h : ∀ i ∈ items, i.Fits quotes) (hcomputed : ¬NoneComputed style items) :
    NonLiteral style (itemsText style.separatorChar items) := by
  obtain ⟨before, i, after, rfl, hi, hbefore⟩ := first_computed hcomputed
  have hfits : i.Fits quotes := h i (by simp)
  refine ⟨before, i.text style.separatorChar ++ itemsText style.separatorChar after, fun j hj => h j (by simp [hj]), hbefore,
    by simp [itemsText], Or.inr ?_⟩
  cases i with
  | blank c => exact (hi.elim id fun h => h.2.2).elim
  | separator => exact (hi.elim id fun h => h.2.2).elim
  | literal quote units =>
    rcases hi with ⟨rfl, before', after', rfl⟩ | ⟨htags, hends, rfl⟩
    · refine Or.inl ⟨before', unitsText after' ++ backtick :: itemsText style.separatorChar after,
        fun u hu => hfits.2 u (by simp [hu]), ?_⟩
      simp [Item.text, LiteralUnit.text, unitsText]
    · exact Or.inr ⟨htags, hends, units, itemsText style.separatorChar after, hfits.2, by simp [Item.text]⟩

lemma itemValues_of_computed (hcomputed : ¬NoneComputed style items) : itemValues tsEscapes items ≠ [] := by
  obtain ⟨before, i, after, rfl, hi, -⟩ := first_computed hcomputed
  cases i with
  | blank c => exact (hi.elim id fun h => h.2.2).elim
  | separator => exact (hi.elim id fun h => h.2.2).elim
  | literal quote units => simp [itemValues, Item.literal?]

end Computed

section Answers

variable {style : EntryStyle} {items : List Item} {body symbol : Text} {strategy : Strategy} {runtime : List Text}

lemma tsEscapes_single : ∀ p ∈ tsEscapes, p.2 ≠ '\\' ∧ p.2 ≠ nul := by decide

lemma map_decode_iff {literals : List (Char × List LiteralUnit)}
    (h : List.Forall₂ (fun p value => Denotes p.1 p.2 value) literals runtime)
    (hfits : ∀ p ∈ literals, ∀ u ∈ p.2, u.Fits p.1) :
    literals.map (fun p => decode tsEscapes (unitsText p.2)) = runtime ↔
      ∀ p ∈ literals, ∀ u ∈ p.2, u.Supported p.1 := by
  induction h with
  | nil => simp
  | @cons p value literals runtime hp _ ih =>
    obtain ⟨hpfits, hfits⟩ := List.forall_mem_cons.mp hfits
    rw [List.map_cons, List.cons.injEq, ih hfits, decode_units tsEscapes_single hpfits, hp.decoded_iff,
      List.forall_mem_cons]

lemma literals_fit (h : ∀ i ∈ items, i.Fits quotes) : ∀ p ∈ items.filterMap Item.literal?, ∀ u ∈ p.2, u.Fits p.1 := by
  intro p hp
  obtain ⟨i, hi, hp⟩ := List.mem_filterMap.mp hp
  cases i with
  | blank c => cases hp
  | separator => cases hp
  | literal quote units =>
    cases hp
    exact (h _ hi).2

lemma readsExactly_iff (hseparates : Separates quotes style.separatorChar) :
    ReadsExactly style body (literalValues strategy quotes tsEscapes style.separatorChar symbol body) ↔
      PlainlyWritten style body := by
  constructor
  · rintro ⟨hrefuses, hexact⟩ items hitems rfl
    rw [literalValues_items hseparates hitems] at hrefuses hexact
    refine ⟨?_, fun runtime hruntime => ?_⟩
    · by_contra hcomputed
      obtain ⟨e, he⟩ := hrefuses (nonLiteral_of_computed hitems hcomputed)
      rw [if_neg (itemValues_of_computed hcomputed)] at he
      cases he
    · rw [← map_decode_iff hruntime (literals_fit hitems)]
      by_cases hnone : itemValues tsEscapes items = []
      · have hliterals : items.filterMap Item.literal? = [] := by simpa [itemValues] using hnone
        rw [RuntimeValues, hliterals, List.forall₂_nil_left_iff] at hruntime
        rw [hliterals, hruntime]
        rfl
      · exact hexact _ (if_neg hnone) items hitems rfl runtime hruntime
  · intro hplain
    refine ⟨fun hbody => ?_, fun values hvalues items hitems heq runtime hruntime => ?_⟩
    · cases hanswer : literalValues strategy quotes tsEscapes style.separatorChar symbol body with
      | error e => exact ⟨e, rfl⟩
      | ok values =>
        obtain ⟨items, hitems, heq, hcomputed⟩ := computed_of_accepted hseparates hbody hanswer
        exact absurd (hplain items hitems heq).1 hcomputed
    · subst heq
      rw [literalValues_items hseparates hitems] at hvalues
      split at hvalues
      · cases hvalues
      · cases hvalues
        exact (map_decode_iff hruntime (literals_fit hitems)).mpr ((hplain items hitems rfl).2 runtime hruntime)

/-- The body of the first declaration of a tuple. -/
def tsTupleBody (isWordChar : Char → Bool) (src symbol : Text) : Except ParseError Text := do
  let stripped ← stripComments src
  let rest ← declared (tsConstHeader isWordChar) .tsConstTuple stripped symbol
  extractBalanced '[' ']' 1 0 rest

/-- The body of the first declaration of a union. -/
def tsUnionBody (isWordChar : Char → Bool) (src symbol : Text) : Except ParseError Text := do
  let stripped ← stripComments src
  let rest ← declared (tsUnionHeader isWordChar) .tsUnionType stripped symbol
  match findTopLevelSemicolon {} 0 rest with
  | none => .error (.unterminatedDeclaration symbol)
  | some body => .ok body

variable {isWordChar : Char → Bool} {src : Text}

lemma parseTsConstTuple_of_body (h : tsTupleBody isWordChar src symbol = .ok body) :
    parseTsConstTuple isWordChar src symbol = literalValues .tsConstTuple quotes tsEscapes ',' symbol body := by
  simp only [tsTupleBody, Fallible.bind_eq_ok] at h
  obtain ⟨stripped, hstripped, rest, hrest, hbody⟩ := h
  simp only [parseTsConstTuple, hstripped, bind, Except.bind, hrest, hbody]

lemma parseTsUnionType_of_body (h : tsUnionBody isWordChar src symbol = .ok body) :
    parseTsUnionType isWordChar src symbol = literalValues .tsUnionType quotes tsEscapes '|' symbol body := by
  simp only [tsUnionBody, Fallible.bind_eq_ok] at h
  obtain ⟨stripped, hstripped, rest, hrest, hbody⟩ := h
  cases hfind : findTopLevelSemicolon {} 0 rest with
  | none => simp [hfind] at hbody
  | some found =>
    rw [hfind] at hbody
    cases hbody
    simp only [parseTsUnionType, hstripped, bind, Except.bind, hrest, hfind]

lemma blanks_not_quotes : ∀ c ∈ blanks, c ∉ quotes := by
  simp only [blanks, List.forall_mem_cons]
  exact ⟨by decide, by decide, by decide, by decide, nofun⟩

def isAsciiWordChar (c : Char) : Bool := isLetter c ∨ c = '_' ∨ isDecimalDigit c

def tupleSource : Text := "const LEVELS = ['low', \"high\"] as const;".toList

def tupleBody : Text := "'low', \"high\"".toList

def templateSource : Text := (Char.ofNat 0x60 :: "$\x7bprefix\x7d-read".toList) ++ [backtick]

end Answers

end PlatformGitops.EnumDrift
