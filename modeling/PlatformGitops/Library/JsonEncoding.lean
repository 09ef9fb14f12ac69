import PlatformGitops.Library.JsonRoundTrip
import Mathlib.Data.String.Basic

/-! The text of a value stands for the value: two values have the same text when they differ at most in the order
of their keys. -/

namespace PlatformGitops.Library.Json

/-- The same JSON value. Where a map has its keys in another order it is still the same map. -/
inductive Same : Json → Json → Prop
  | refl (v : Json) : Same v v
  | trans {u v w : Json} : Same u v → Same v w → Same u w
  | item {v w : Json} (before after : List Json) :
      Same v w → Same (.list (before ++ v :: after)) (.list (before ++ w :: after))
  | value {v w : Json} (before after : List (String × Json)) (key : String) :
      Same v w → Same (.obj (before ++ (key, v) :: after)) (.obj (before ++ (key, w) :: after))
  | order {fields fields' : List (String × Json)} : fields.Perm fields' → Same (.obj fields) (.obj fields')

namespace Same

lemma symm {v w : Json} (h : Same v w) : Same w v := by
  induction h with
  | refl v => exact .refl v
  | trans _ _ ihu ihv => exact ihv.trans ihu
  | item before after _ ih => exact .item before after ih
  | value before after key _ ih => exact .value before after key ih
  | order hperm => exact .order hperm.symm

lemma items {f : Json → Json} (before : List Json) {items : List Json} (h : ∀ v ∈ items, Same v (f v)) :
    Same (.list (before ++ items)) (.list (before ++ items.map f)) := by
  induction items generalizing before with
  | nil => exact .refl _
  | cons v items ih =>
    have hhead : Same (.list (before ++ v :: items)) (.list (before ++ f v :: items)) :=
      .item before items (h v List.mem_cons_self)
    have htail := ih (before ++ [f v]) fun w hw => h w (List.mem_cons_of_mem _ hw)
    simp only [List.append_assoc, List.singleton_append] at htail
    exact hhead.trans htail

lemma values {f : Json → Json} (before : List (String × Json)) {fields : List (String × Json)}
    (h : ∀ p ∈ fields, Same p.2 (f p.2)) :
    Same (.obj (before ++ fields)) (.obj (before ++ fields.map fun p => (p.1, f p.2))) := by
  induction fields generalizing before with
  | nil => exact .refl _
  | cons p fields ih =>
    have hhead : Same (.obj (before ++ p :: fields)) (.obj (before ++ (p.1, f p.2) :: fields)) :=
      .value before fields p.1 (h p List.mem_cons_self)
    have htail := ih (before ++ [(p.1, f p.2)]) fun q hq => h q (List.mem_cons_of_mem _ hq)
    simp only [List.append_assoc, List.singleton_append] at htail
    exact hhead.trans htail

end Same

lemma same_sortKeys (le : String → String → Bool) (v : Json) : Same v (sortKeys le v) := by
  induction v using memInduction with
  | list items ih =>
    rw [sortKeys_list]
    exact Same.items [] ih
  | obj fields ih =>
    rw [sortKeys_obj]
    have hperm := List.perm_insertionSort (fun p q : String × Json => le p.1 q.1) fields
    have hvalues := Same.values (f := sortKeys le) []
      fun p hp => ih p (hperm.mem_iff.mp hp)
    exact (Same.order hperm.symm).trans hvalues
  | _ => exact .refl _

/-- What is said of a map through its set of keys holds of the same value with its keys in another order. -/
lemma Same.all {P : Json → Prop} (hlist : ∀ items, P (.list items))
    (hobj : ∀ fields fields' : List (String × Json), (fields.map (·.1)).Perm (fields'.map (·.1)) →
      P (.obj fields) → P (.obj fields')) {v w : Json} (h : Same v w) (hv : All P v) : All P w := by
  induction h with
  | refl v => exact hv
  | trans _ _ ihu ihv => exact ihv (ihu hv)
  | item before after _ ih =>
    rw [all_list] at hv ⊢
    refine ⟨hlist _, fun u hu => ?_⟩
    rcases List.mem_append.mp hu with hu | hu
    · exact hv.2 u (List.mem_append_left _ hu)
    rcases List.mem_cons.mp hu with rfl | hu
    · exact ih (hv.2 _ (by simp))
    · exact hv.2 u (by simp [hu])
  | value before after key _ ih =>
    rw [all_obj] at hv ⊢
    refine ⟨hobj _ _ (by simp) hv.1, fun p hp => ?_⟩
    rcases List.mem_append.mp hp with hp | hp
    · exact hv.2 p (List.mem_append_left _ hp)
    rcases List.mem_cons.mp hp with rfl | hp
    · exact ih (hv.2 (key, _) (by simp))
    · exact hv.2 p (by simp [hp])
  | order hperm =>
    rw [all_obj] at hv ⊢
    exact ⟨hobj _ _ (hperm.map _) hv.1, fun p hp => hv.2 p (hperm.mem_iff.mpr hp)⟩

lemma Same.distinct {v w : Json} (h : Same v w) (hv : Distinct v) : Distinct w :=
  h.all (fun _ => trivial) (fun _ _ hperm hn => hperm.nodup_iff.mp hn) hv

/-- An order of keys: any two are comparable, and different ones in one way only. -/
structure KeyOrder (le : String → String → Bool) : Prop where
  total : ∀ a b, le a b = true ∨ le b a = true
  trans : ∀ a b c, le a b = true → le b c = true → le a c = true
  antisymm : ∀ a b, le a b = true → le b a = true → a = b

section Order

variable {le : String → String → Bool} (hle : KeyOrder le)
include hle

lemma pairwise_inOrder {α : Type} (fields : List (String × α)) :
    (inOrder le fields).Pairwise fun p q => le p.1 q.1 = true := by
  have : Std.Total fun p q : String × α => le p.1 q.1 = true := ⟨fun p q => hle.total p.1 q.1⟩
  have : IsTrans (String × α) fun p q => le p.1 q.1 = true := ⟨fun p q r => hle.trans p.1 q.1 r.1⟩
  exact List.pairwise_insertionSort _ fields

lemma inOrder_idem {α : Type} (fields : List (String × α)) : inOrder le (inOrder le fields) = inOrder le fields :=
  List.Pairwise.insertionSort_eq (pairwise_inOrder hle fields)

/-- One order for the fields of a map, whatever the order they come in. -/
lemma inOrder_perm {α : Type} {fields fields' : List (String × α)} (hn : (fields.map (·.1)).Nodup)
    (hperm : fields.Perm fields') : inOrder le fields = inOrder le fields' := by
  have hfields := List.perm_insertionSort (fun p q : String × α => le p.1 q.1) fields
  have hfields' := List.perm_insertionSort (fun p q : String × α => le p.1 q.1) fields'
  refine List.Perm.eq_of_pairwise ?_ (pairwise_inOrder hle fields) (pairwise_inOrder hle fields')
    (hfields.trans (hperm.trans hfields'.symm))
  intro p q hp hq hpq hqp
  have hkey := hle.antisymm p.1 q.1 hpq hqp
  have hp : p ∈ fields := hfields.mem_iff.mp hp
  have hq : q ∈ fields := hperm.mem_iff.mpr (hfields'.mem_iff.mp hq)
  exact List.inj_on_of_nodup_map hn hp hq hkey

lemma Same.sortKeys_eq {v w : Json} (h : Same v w) (hv : Distinct v) : sortKeys le v = sortKeys le w := by
  induction h with
  | refl v => rfl
  | trans huv _ ihu ihv => exact (ihu hv).trans (ihv (huv.distinct hv))
  | item before after _ ih =>
    rw [Distinct, all_list] at hv
    have hitem := ih (hv.2 _ (by simp))
    simp [sortKeys_list, hitem]
  | @value v w before after key _ ih =>
    rw [Distinct, all_obj] at hv
    have hvalue := ih (hv.2 (key, v) (by simp))
    rw [sortKeys_obj, sortKeys_obj, ← inOrder_map, ← inOrder_map]
    simp [hvalue]
  | order hperm =>
    rw [sortKeys_obj, sortKeys_obj, inOrder_perm hle (hv.self) hperm]

lemma dumps_sortKeys (v : Json) : dumps le (sortKeys le v) = dumps le v := by
  induction v using memInduction with
  | list items ih =>
    rw [sortKeys_list, dumps_list, dumps_list, List.map_map]
    congr 1
    exact List.map_congr_left ih
  | obj fields ih =>
    have hperm := List.perm_insertionSort (fun p q : String × Json => le p.1 q.1) fields
    rw [sortKeys_obj, dumps_obj, dumps_obj, inOrder_map, inOrder_idem hle, List.map_map]
    congr 1
    refine List.map_congr_left fun p hp => ?_
    simp only [Function.comp_def, ih p (hperm.mem_iff.mp hp)]
  | _ => rfl

/-- The text does not depend on the order of the keys. -/
lemma Same.dumps_eq {v w : Json} (h : Same v w) (hv : Distinct v) : dumps le v = dumps le w := by
  rw [← dumps_sortKeys hle v, h.sortKeys_eq hle hv, dumps_sortKeys hle w]

lemma same_iff {v w : Json} (hv : Distinct v) : Same v w ↔ sortKeys le v = sortKeys le w := by
  refine ⟨fun h => h.sortKeys_eq hle hv, fun h => ?_⟩
  have hsorted := same_sortKeys le v
  rw [h] at hsorted
  exact hsorted.trans (same_sortKeys le w).symm

/-- The keys of an object stand in increasing order. -/
def Increasing (le : String → String → Bool) : Json → Prop
  | .obj fields => fields.Pairwise fun p q => le p.1 q.1 = true ∧ p.1 ≠ q.1
  | _ => True

lemma increasing_sortKeys {v : Json} (hv : Distinct v) : All (Increasing le) (sortKeys le v) := by
  induction v using memInduction with
  | list items ih =>
    rw [Distinct, all_list] at hv
    rw [sortKeys_list, all_list]
    refine ⟨trivial, fun w hw => ?_⟩
    obtain ⟨u, hu, rfl⟩ := List.mem_map.mp hw
    exact ih u hu (hv.2 u hu)
  | obj fields ih =>
    rw [Distinct, all_obj] at hv
    have hperm := List.perm_insertionSort (fun p q : String × Json => le p.1 q.1) fields
    have hnodup : ((inOrder le fields).map (·.1)).Nodup := (hperm.map _).nodup_iff.mpr hv.1
    rw [sortKeys_obj, all_obj]
    refine ⟨?_, fun p hp => ?_⟩
    · exact ((pairwise_inOrder hle fields).and (List.pairwise_map.mp hnodup)).map _ fun _ _ h => h
    · obtain ⟨q, hq, rfl⟩ := List.mem_map.mp hp
      have hq := hperm.mem_iff.mp hq
      exact ih q hq (hv.2 q hq)
  | _ => trivial

end Order

/-- Keys by their code points. -/
def codePointLe (a b : String) : Bool := a ≤ b

lemma keyOrder_codePointLe : KeyOrder codePointLe where
  total a b := by simpa [codePointLe] using le_total a b
  trans a b c := by simpa [codePointLe] using le_trans
  antisymm a b := by simpa [codePointLe] using le_antisymm

section Maps

lemma mem_iff_lookup {fields : List (String × Json)} (hn : (fields.map (·.1)).Nodup) {key : String} {v : Json} :
    (key, v) ∈ fields ↔ fields.lookup key = some v := by
  induction fields with
  | nil => simp
  | cons p fields ih =>
    obtain ⟨k, w⟩ := p
    rw [List.map_cons, List.nodup_cons] at hn
    rw [List.mem_cons, Prod.mk.injEq, List.lookup_cons, ih hn.2]
    by_cases hk : key = k
    · subst hk
      have hnone : fields.lookup key ≠ some v := by
        intro hlookup
        exact hn.1 (List.mem_map.mpr ⟨(key, v), (ih hn.2).mpr hlookup, rfl⟩)
      simp [hnone, eq_comm]
    · have hbeq : (key == k) = false := by simpa using hk
      simp [hk, hbeq]

/-- A map lists its keys in some order. -/
lemma same_listed {fields : List (String × Json)} {names : List String} (hn : (fields.map (·.1)).Nodup)
    (hnames : names.Nodup) (hsub : ∀ p ∈ fields, p.1 ∈ names) (hall : ∀ name ∈ names, name ∈ fields.map (·.1)) :
    Same (.obj fields) (.obj (names.map fun name => (name, (Json.obj fields).get name))) := by
  refine .order ((List.perm_ext_iff_of_nodup (hn.of_map _) ?_).mpr ?_)
  · exact (List.Nodup.of_map Prod.fst (by simpa [Function.comp_def] using hnames))
  · rintro ⟨key, v⟩
    simp only [List.mem_map, Prod.mk.injEq]
    constructor
    · intro hmem
      exact ⟨key, hsub _ hmem, rfl, by simp [get, (mem_iff_lookup hn).mp hmem]⟩
    · rintro ⟨_, hname, rfl, hv⟩
      obtain ⟨⟨k, w⟩, hmem, rfl⟩ := List.mem_map.mp (hall _ hname)
      have hlookup := (mem_iff_lookup hn).mp hmem
      simp only [get, hlookup, Option.getD_some] at hv
      exact hv ▸ hmem

end Maps

section Text

variable {le : String → String → Bool}

/-- A float whose text has no control characters. -/
def PlainFloat : Json → Prop
  | .float text => ∀ c ∈ text.toList, 32 ≤ c.toNat
  | _ => True

lemma mem_intercalate {parts : List (List Char)} {c : Char} (h : c ∈ [','].intercalate parts) :
    c = ',' ∨ ∃ part ∈ parts, c ∈ part := by
  induction parts with
  | nil => simp [List.intercalate] at h
  | cons part parts ih =>
    cases parts with
    | nil => exact .inr ⟨part, by simp, by simpa [List.intercalate] using h⟩
    | cons part' parts =>
      rw [intercalate_cons_cons, List.mem_append, List.mem_cons] at h
      rcases h with h | rfl | h
      · exact .inr ⟨part, by simp, h⟩
      · exact .inl rfl
      · refine (ih h).imp_right fun ⟨part, hpart, hc⟩ => ⟨part, List.mem_cons_of_mem _ hpart, hc⟩

lemma hexDigit_printable : ∀ n < 16, 32 ≤ (hexDigit n).toNat := by
  decide

lemma escapeChar_printable {c d : Char} (h : d ∈ escapeChar c) : 32 ≤ d.toNat := by
  have hclosed : ∀ l : List Char, (∀ e ∈ l, 32 ≤ e.toNat) → d ∈ l → 32 ≤ d.toNat := fun l hl hd => hl d hd
  unfold escapeChar at h
  split at h
  · exact hclosed _ (by simp) h
  · exact hclosed _ (by simp) h
  · exact hclosed _ (by simp) h
  · exact hclosed _ (by simp) h
  · exact hclosed _ (by simp) h
  · split at h
    · exact hclosed _ (by simp) h
    split at h
    · exact hclosed _ (by simp) h
    split at h
    · rename_i hsmall
      have hhigh := hexDigit_printable (c.toNat / 16) (by omega)
      have hlow := hexDigit_printable (c.toNat % 16) (by omega)
      refine hclosed _ ?_ h
      simp only [List.forall_mem_cons, List.not_mem_nil, IsEmpty.forall_iff, implies_true, and_true]
      exact ⟨by decide, by decide, by decide, by decide, hhigh, hlow⟩
    · rename_i hlarge
      obtain rfl := List.mem_singleton.mp h
      omega

lemma dumpsStr_printable {s : String} {c : Char} (h : c ∈ dumpsStr s) : 32 ≤ c.toNat := by
  simp only [dumpsStr, List.cons_append, List.mem_cons, List.mem_append, List.mem_flatMap, List.not_mem_nil,
    or_false] at h
  rcases h with rfl | ⟨d, -, hd⟩ | rfl
  · decide
  · exact escapeChar_printable hd
  · decide

/-- A text has no control characters, so it is one line. -/
lemma dumps_printable {v : Json} (h : All PlainFloat v) : ∀ c ∈ dumps le v, 32 ≤ c.toNat := by
  induction v using memInduction with
  | null =>
    rw [dumps]
    simp
  | bool b =>
    cases b with
    | true =>
      rw [dumps]
      simp
    | false =>
      rw [dumps]
      simp
  | int n =>
    intro c hc
    rw [dumps, toList_toString_int, List.mem_append] at hc
    rcases hc with hc | hc
    · split at hc
      · obtain rfl := List.mem_singleton.mp hc
        decide
      · cases hc
    · have hdigit := Nat.isDigit_of_mem_toDigits (by decide) (by decide) hc
      exact le_trans (by decide) (Char.isDigit_iff_toNat.mp hdigit).1
  | float text => exact h.self
  | str s => exact fun c hc => dumpsStr_printable hc
  | list items ih =>
    intro c hc
    rw [all_list] at h
    rw [dumps_list, joinItems] at hc
    simp only [List.cons_append, List.mem_cons, List.mem_append, List.not_mem_nil, or_false] at hc
    rcases hc with rfl | hc | rfl
    · decide
    · rcases mem_intercalate hc with rfl | ⟨part, hpart, hc⟩
      · decide
      · obtain ⟨w, hw, rfl⟩ := List.mem_map.mp hpart
        exact ih w hw (h.2 w hw) c hc
    · decide
  | obj fields ih =>
    intro c hc
    have hperm := List.perm_insertionSort (fun p q : String × Json => le p.1 q.1) fields
    rw [all_obj] at h
    rw [dumps_obj, joinFields] at hc
    simp only [List.cons_append, List.mem_cons, List.mem_append, List.not_mem_nil, or_false] at hc
    rcases hc with rfl | hc | rfl
    · decide
    · rcases mem_intercalate hc with rfl | ⟨part, hpart, hc⟩
      · decide
      · simp only [List.map_map, List.mem_map, Function.comp_def] at hpart
        obtain ⟨p, hp, rfl⟩ := hpart
        have hp := hperm.mem_iff.mp hp
        rw [member, List.mem_append, List.mem_cons] at hc
        rcases hc with hc | rfl | hc
        · exact dumpsStr_printable hc
        · decide
        · exact ih p hp (h.2 p hp) c hc
    · decide

end Text

lemma Readable.distinctKeys {float : String → String} {v : Json} (h : Readable float v) : DistinctKeys v := by
  cases v with
  | obj fields => exact h
  | _ => trivial

/-- Two values with one text are the same value. -/
lemma same_of_dumps_eq {le : String → String → Bool} {float : String → String} {v w : Json}
    (hv : All (Readable float) v) (hw : All (Readable float) w) (h : dumps le v = dumps le w) : Same v w := by
  have hread := loads_dumps le hv
  rw [h, loads_dumps le hw] at hread
  have hsorted := same_sortKeys le v
  rw [← Option.some.inj hread] at hsorted
  exact hsorted.trans (same_sortKeys le w).symm

section Reading

variable {float : String → String} {P : Json → Prop}

/-- What holds of the scalars, the lists and the maps that the reader makes. -/
structure ReadInto (float : String → String) (P : Json → Prop) : Prop where
  literal : ∀ l ∈ literals, P l.2
  str : ∀ s, P (.str s)
  number : ∀ s v rest, scanNumber float s = some (v, rest) → P v
  list : ∀ items, P (.list items)
  obj : ∀ fields : List (String × Json), (fields.map (·.1)).Nodup → P (.obj fields)

lemma nodup_setField {fields : List (String × Json)} (p : String × Json) (hn : (fields.map (·.1)).Nodup) :
    ((setField fields p).map (·.1)).Nodup := by
  unfold setField
  split
  · have hkeys : (fields.map fun q => if q.1 = p.1 then p else q).map (·.1) = fields.map (·.1) := by
      rw [List.map_map]
      refine List.map_congr_left fun q _ => ?_
      by_cases hq : q.1 = p.1 <;> simp [hq]
    rw [hkeys]
    exact hn
  · rename_i hp
    rw [List.map_append, List.nodup_append]
    refine ⟨hn, by simp, ?_⟩
    rintro a ha b hb rfl
    simp only [List.map_cons, List.map_nil, List.mem_singleton] at hb
    exact hp (hb ▸ ha)

lemma mem_setField {fields : List (String × Json)} {p q : String × Json} (h : q ∈ setField fields p) :
    q = p ∨ q ∈ fields := by
  unfold setField at h
  split at h
  · obtain ⟨q', hq', rfl⟩ := List.mem_map.mp h
    split
    · exact .inl rfl
    · exact .inr hq'
  · rcases List.mem_append.mp h with h | h
    · exact .inr h
    · exact .inl (List.mem_singleton.mp h)

lemma nodup_foldl_setField {fields acc : List (String × Json)} (hn : (acc.map (·.1)).Nodup) :
    ((fields.foldl setField acc).map (·.1)).Nodup := by
  induction fields generalizing acc with
  | nil => exact hn
  | cons p fields ih => exact ih (nodup_setField p hn)

lemma mem_foldl_setField {fields acc : List (String × Json)} {q : String × Json}
    (h : q ∈ fields.foldl setField acc) : q ∈ acc ∨ q ∈ fields := by
  induction fields generalizing acc with
  | nil => exact .inl h
  | cons p fields ih =>
    rcases ih h with h | h
    · rcases mem_setField h with rfl | h
      · exact .inr List.mem_cons_self
      · exact .inl h
    · exact .inr (List.mem_cons_of_mem _ h)

lemma scanNumber_scalar {s rest : List Char} {v : Json} (h : scanNumber float s = some (v, rest)) :
    (∃ n, v = .int n) ∨ ∃ text, v = .float text := by
  simp only [scanNumber, Option.bind_eq_bind, Option.bind_eq_some_iff] at h
  obtain ⟨⟨digits, after⟩, -, h⟩ := h
  split at h
  · split at h
    · cases h
      exact .inl ⟨_, rfl⟩
    · cases h
  · cases h
    exact .inr ⟨_, rfl⟩

lemma scanScalar_all (hP : ReadInto float P) {s rest : List Char} {v : Json}
    (h : (scanLiteral s).or (scanNumber float s) = some (v, rest)) : All P v := by
  rcases Option.or_eq_some_iff.mp h with h | ⟨-, h⟩
  · simp only [scanLiteral, Option.map_eq_some_iff, Prod.mk.injEq] at h
    obtain ⟨l, hl, rfl, -⟩ := h
    have hmem := List.mem_of_find?_eq_some hl
    have hself := hP.literal l hmem
    simp only [literals, List.mem_cons, List.not_mem_nil, or_false] at hmem
    rcases hmem with rfl | rfl | rfl | rfl | rfl | rfl <;> exact hself
  · have hself := hP.number s v rest h
    rcases scanNumber_scalar h with ⟨n, rfl⟩ | ⟨text, rfl⟩ <;> exact hself

lemma scan_all (hP : ReadInto float P) (n : Nat) :
    (∀ s v rest, scanValue float n s = some (v, rest) → All P v) ∧
    (∀ s items rest, scanItems float n s = some (items, rest) → ∀ v ∈ items, All P v) ∧
    (∀ s fields rest, scanFields float n s = some (fields, rest) → ∀ p ∈ fields, All P p.2) := by
  induction n with
  | zero => simp [scanValue, scanItems, scanFields]
  | succ n ih =>
    obtain ⟨ihvalue, ihitems, ihfields⟩ := ih
    refine ⟨fun s v rest h => ?_, fun s items rest h => ?_, fun s fields rest h => ?_⟩
    · rw [scanValue.eq_def] at h
      dsimp only at h
      split at h
      · obtain ⟨p, -, hp⟩ := Option.map_eq_some_iff.mp h
        cases hp
        exact hP.str _
      · split at h
        · cases h
          exact all_list.mpr ⟨hP.list _, by simp⟩
        · obtain ⟨p, hscan, hp⟩ := Option.map_eq_some_iff.mp h
          cases hp
          exact all_list.mpr ⟨hP.list _, ihitems _ _ _ hscan⟩
      · split at h
        · cases h
          exact all_obj.mpr ⟨hP.obj _ (by simp), by simp⟩
        · obtain ⟨p, hscan, hp⟩ := Option.map_eq_some_iff.mp h
          cases hp
          refine all_obj.mpr ⟨hP.obj _ (nodup_foldl_setField (by simp)), fun q hq => ?_⟩
          rcases mem_foldl_setField hq with hq | hq
          · cases hq
          · exact ihfields _ _ _ hscan q hq
      · exact scanScalar_all hP h
    · simp only [scanItems, Option.bind_eq_bind, Option.bind_eq_some_iff] at h
      obtain ⟨⟨item, after⟩, hitem, h⟩ := h
      have hhead := ihvalue _ _ _ hitem
      split at h
      · cases h
        simpa using hhead
      · obtain ⟨⟨items', after'⟩, hitems, h⟩ := Option.bind_eq_some_iff.mp h
        cases h
        exact List.forall_mem_cons.mpr ⟨hhead, ihitems _ _ _ hitems⟩
      · cases h
    · simp only [scanFields, Option.bind_eq_bind, Option.bind_eq_some_iff] at h
      obtain ⟨⟨key, after⟩, -, ⟨value, after'⟩, hvalue, h⟩ := h
      have hhead := ihvalue _ _ _ hvalue
      split at h
      · cases h
        simpa using hhead
      · obtain ⟨⟨fields', after''⟩, hfields, h⟩ := Option.bind_eq_some_iff.mp h
        cases h
        exact List.forall_mem_cons.mpr ⟨hhead, ihfields _ _ _ hfields⟩
      · cases h

lemma loads_all (hP : ReadInto float P) {s : List Char} {v : Json} (h : loads float s = some v) : All P v := by
  simp only [loads, Option.bind_eq_bind, Option.bind_eq_some_iff] at h
  obtain ⟨⟨w, rest⟩, hscan, h⟩ := h
  split at h
  · cases h
    exact (scan_all hP _).1 _ _ _ hscan
  · cases h

lemma loads_distinct {s : List Char} {v : Json} (h : loads float s = some v) : Distinct v := by
  refine loads_all ⟨?_, fun _ => trivial, ?_, fun _ => trivial, fun _ hn => hn⟩ h
  · intro l hl
    simp only [literals, List.mem_cons, List.not_mem_nil, or_false] at hl
    rcases hl with rfl | rfl | rfl | rfl | rfl | rfl <;> trivial
  · intro s v rest h
    rcases scanNumber_scalar h with ⟨n, rfl⟩ | ⟨text, rfl⟩ <;> trivial

end Reading

end PlatformGitops.Library.Json
