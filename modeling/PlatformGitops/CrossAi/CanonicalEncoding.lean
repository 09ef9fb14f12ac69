import PlatformGitops.CrossAi.IntentStore.Calls
import PlatformGitops.Library.JsonEncoding

/-! The canonical bytes of a value stand for the value, and the object store accepts nothing else. -/

namespace PlatformGitops.CrossAi.CanonicalEncoding

open Library Json IntentStore

section KeyOrder

lemma unitsLe_total (a b : List Nat) : unitsLe a b = true ∨ unitsLe b a = true := by
  induction a generalizing b with
  | nil => exact .inl rfl
  | cons x a ih =>
    cases b with
    | nil => exact .inr rfl
    | cons y b =>
      rcases lt_trichotomy x y with hlt | rfl | hgt
      · exact .inl (by simp [unitsLe, hlt])
      · exact (ih b).imp (fun h => by simp [unitsLe, h]) fun h => by simp [unitsLe, h]
      · exact .inr (by simp [unitsLe, hgt])

lemma unitsLe_iff {a b : List Nat} : unitsLe a b = true ↔ a = b ∨ a < b := by
  induction a generalizing b with
  | nil => cases b <;> simp [unitsLe]
  | cons x a ih =>
    cases b with
    | nil => simp [unitsLe]
    | cons y b =>
      simp only [unitsLe, Bool.or_eq_true, decide_eq_true_eq, Bool.and_eq_true, beq_iff_eq, ih, List.cons.injEq,
        List.cons_lt_cons_iff]
      tauto

def keyLe (a b : String) : Bool := unitsLe (keySortValue a) (keySortValue b)

lemma utf16Units_cons {c d : Char} {s t : List Nat} (h : utf16Units c ++ s = utf16Units d ++ t) : c = d ∧ s = t := by
  have hc := c.valid
  have hd := d.valid
  simp only [UInt32.isValidChar, Nat.isValidChar] at hc hd
  have hcn : c.val.toNat = c.toNat := rfl
  have hdn : d.val.toNat = d.toNat := rfl
  have hinj : c.toNat = d.toNat → c = d := fun h => Char.toNat_inj.mp h
  unfold utf16Units at h
  -- a unit of a character below 0x10000 is no surrogate, and the first unit of any other is one
  split at h <;> split at h <;> simp only [List.cons_append, List.nil_append, List.cons.injEq] at h
  · exact ⟨hinj h.1, h.2⟩
  · omega
  · omega
  · exact ⟨hinj (by omega), h.2.2⟩

lemma utf16Units_ne_nil (c : Char) : utf16Units c ≠ [] := by
  unfold utf16Units
  split <;> simp

lemma keySortValue_injective {a b : String} (h : keySortValue a = keySortValue b) : a = b := by
  suffices hlist : ∀ s t : List Char, s.flatMap utf16Units = t.flatMap utf16Units → s = t from
    String.toList_inj.mp (hlist _ _ h)
  intro s
  induction s with
  | nil =>
    intro t ht
    cases t with
    | nil => rfl
    | cons d t => simp [utf16Units_ne_nil] at ht
  | cons c s ih =>
    intro t ht
    cases t with
    | nil => simp [utf16Units_ne_nil] at ht
    | cons d t =>
      obtain ⟨rfl, hrest⟩ := utf16Units_cons (by simpa using ht)
      rw [ih t hrest]

lemma keyOrder_keyLe : KeyOrder keyLe where
  total a b := unitsLe_total _ _
  trans a b c hab hbc := by
    rw [keyLe, unitsLe_iff] at hab hbc ⊢
    rcases hab with hab | hab
    · rwa [hab]
    rcases hbc with hbc | hbc
    · exact .inr (hbc ▸ hab)
    · exact .inr (List.lt_trans hab hbc)
  antisymm a b hab hba := by
    rw [keyLe, unitsLe_iff] at hab hba
    rcases hab with hab | hab
    · exact keySortValue_injective hab
    rcases hba with hba | hba
    · exact keySortValue_injective hba.symm
    · exact (List.lt_asymm hab hba).elim

end KeyOrder

section Rendering

/-- What the renderer takes: no floats, and no integer outside the interoperable range. -/
def Renderable : Json → Prop
  | .int n => n.natAbs ≤ maxSafeInteger
  | .float _ => False
  | _ => True

/-- The restricted profile: values that the renderer takes, whose maps have each key once. -/
def Profile : Json → Prop
  | .int n => n.natAbs ≤ maxSafeInteger
  | .float _ => False
  | .obj fields => (fields.map (·.1)).Nodup
  | _ => True

def InProfile (v : Json) : Prop := All Profile v

lemma renderItems_ok {items : List Json} (h : ∀ v ∈ items, ∀ path, render path v = .ok (dumps keyLe v))
    (path : String) (index : Nat) : renderItems path index items = .ok (items.map (dumps keyLe)) := by
  induction items generalizing index with
  | nil => rfl
  | cons v items ih =>
    have htail := ih (fun w hw => h w (List.mem_cons_of_mem _ hw)) (index + 1)
    rw [renderItems, h v List.mem_cons_self, htail]
    rfl

lemma renderItems_eq_ok {items : List Json} {path : String} {index : Nat} {parts : List (List Char)}
    (h : renderItems path index items = .ok parts) : ∀ v ∈ items, ∃ path part, render path v = .ok part := by
  induction items generalizing index parts with
  | nil => simp
  | cons v items ih =>
    simp only [renderItems, Fallible.bind_eq_ok, Fallible.pure_eq_ok] at h
    obtain ⟨part, hpart, parts', hparts, -⟩ := h
    exact List.forall_mem_cons.mpr ⟨⟨_, part, hpart⟩, ih hparts⟩

lemma renderFields_eq (path : String) (fields : List (String × Json)) :
    renderFields path fields = fields.map fun p => (p.1, render (path ++ "." ++ p.1) p.2) := by
  induction fields with
  | nil => rfl
  | cons p fields ih => simp [renderFields, ih]

lemma renderedObject_eq (path : String) (fields : List (String × Json)) :
    renderedObject (renderFields path fields) = (do
      let rendered ← ((inOrder keyLe fields).map fun p => (p.1, render (path ++ "." ++ p.1) p.2)).mapM
        fun p => do pure (dumpsStr p.1 ++ ':' :: (← p.2))
      pure ('\x7b' :: [','].intercalate rendered ++ ['\x7d'])) := by
  have hsort : (inOrder keyLe fields).map (fun p => (p.1, render (path ++ "." ++ p.1) p.2)) =
      (renderFields path fields).insertionSort fun p q => unitsLe (keySortValue p.1) (keySortValue q.1) := by
    rw [renderFields_eq]
    exact List.map_insertionSort _ _ _ fields fun _ _ _ _ => Iff.rfl
  rw [renderedObject, hsort]

lemma mapM_rendered {path : String} {fields : List (String × Json)}
    (h : ∀ p ∈ fields, ∀ path, render path p.2 = .ok (dumps keyLe p.2)) :
    (fields.map fun p => (p.1, render (path ++ "." ++ p.1) p.2)).mapM
        (fun p => do pure (dumpsStr p.1 ++ ':' :: (← p.2)) : String × Rendered → Rendered) =
      .ok (fields.map fun p => member (p.1, dumps keyLe p.2)) := by
  induction fields with
  | nil => rfl
  | cons p fields ih =>
    rw [List.map_cons, List.mapM_cons, h p List.mem_cons_self, ih fun q hq => h q (List.mem_cons_of_mem _ hq)]
    rfl

lemma render_ok {v : Json} (h : All Renderable v) (path : String) : render path v = .ok (dumps keyLe v) := by
  induction v using memInduction generalizing path with
  | bool b => cases b <;> rfl
  | int n => simp [render, Nat.not_lt.mpr h.self, dumps, pure, Except.pure]
  | float text => exact h.self.elim
  | list items ih =>
    rw [all_list] at h
    rw [render, renderItems_ok fun v hv path => ih v hv (h.2 v hv) path, dumps_list]
    rfl
  | obj fields ih =>
    rw [all_obj] at h
    have hperm := List.perm_insertionSort (fun p q : String × Json => keyLe p.1 q.1) fields
    have hmembers : ∀ p ∈ inOrder keyLe fields, ∀ path, render path p.2 = .ok (dumps keyLe p.2) :=
      fun p hp path => ih p (hperm.mem_iff.mp hp) (h.2 p (hperm.mem_iff.mp hp)) path
    rw [render, renderedObject_eq, mapM_rendered hmembers, dumps_obj, joinFields, List.map_map]
    rfl
  | _ => rfl

lemma renderable_of_render {v : Json} {path : String} {s : List Char} (h : render path v = .ok s) :
    All Renderable v := by
  induction v using memInduction generalizing path s with
  | int n =>
    by_contra hbig
    simp only [All, Renderable, Nat.not_le] at hbig
    simp [render, hbig] at h
  | float text => simp [render] at h
  | list items ih =>
    simp only [render, Fallible.bind_eq_ok] at h
    obtain ⟨parts, hparts, -⟩ := h
    refine all_list.mpr ⟨trivial, fun v hv => ?_⟩
    obtain ⟨path', part, hpart⟩ := renderItems_eq_ok hparts v hv
    exact ih v hv hpart
  | obj fields ih =>
    rw [render, renderedObject_eq, Fallible.bind_eq_ok] at h
    obtain ⟨rendered, hrendered, -⟩ := h
    have hperm := List.perm_insertionSort (fun p q : String × Json => keyLe p.1 q.1) fields
    refine all_obj.mpr ⟨trivial, fun p hp => ?_⟩
    obtain ⟨text, -, htext⟩ := (Fallible.mapM_eq_ok hrendered).1 _
      (List.mem_map_of_mem (hperm.mem_iff.mpr hp))
    obtain ⟨part, hpart, -⟩ := Fallible.bind_eq_ok.mp htext
    exact ih p hp hpart
  | _ => trivial

lemma Renderable.profile {v : Json} (h : Renderable v) (hd : DistinctKeys v) : Profile v := by
  cases v with
  | obj fields => exact hd
  | _ => exact h

lemma Profile.renderable {v : Json} (h : Profile v) : Renderable v := by
  cases v with
  | obj fields => trivial
  | _ => exact h

lemma Profile.readable {float : String → String} {v : Json} (h : Profile v) : Readable float v := by
  cases v with
  | int n =>
    have hbound : maxSafeInteger < 10 ^ maxIntDigits :=
      lt_of_lt_of_le (by decide : maxSafeInteger < 10 ^ 16) (Nat.pow_le_pow_right (by decide) (by decide))
    exact lt_of_le_of_lt h hbound
  | float text => exact h.elim
  | obj fields => exact h
  | _ => trivial

lemma InProfile.distinct {v : Json} (h : InProfile v) : Distinct v :=
  h.imp fun _ hw => (@Profile.readable id _ hw).distinctKeys

lemma InProfile.same {v w : Json} (h : InProfile v) (hsame : Same v w) : InProfile w :=
  hsame.all (fun _ => trivial) (fun _ _ hperm hn => hperm.nodup_iff.mp hn) h

lemma canonicalBytes_ok {v : Json} (h : InProfile v) :
    canonicalBytes v = .ok ((dumps keyLe v).flatMap String.utf8EncodeChar) := by
  rw [canonicalBytes, render_ok (h.imp fun _ => Profile.renderable)]
  rfl

lemma canonicalBytes_eq_ok {v : Json} {raw : List UInt8} (h : canonicalBytes v = .ok raw) :
    All Renderable v ∧ raw = (dumps keyLe v).flatMap String.utf8EncodeChar := by
  simp only [canonicalBytes, Fallible.bind_eq_ok, Fallible.pure_eq_ok] at h
  obtain ⟨s, hs, rfl⟩ := h
  have hall := renderable_of_render hs
  rw [render_ok hall] at hs
  obtain rfl := Except.ok.inj hs
  exact ⟨hall, rfl⟩

end Rendering

/-- The JSON decoder of the language's library reads UTF-8 text. A NUL or a byte order mark would make it guess another
encoding. -/
def DecodesText (X : Externals) (float : String → String) : Prop :=
  ∀ s : List Char, Char.ofNat 0 ∉ s → s.head? ≠ some (Char.ofNat 0xFEFF) →
    X.jsonLoads (s.flatMap String.utf8EncodeChar) = Json.loads float s

/-- A digest is written as 64 lowercase hexadecimal digits. -/
def HexDigests (X : Externals) : Prop := ∀ bytes, isSha256Digest ("sha256:" ++ X.sha256 bytes)

/-- The keys of an object are listed in the order of their UTF-16 code units. -/
def KeysIncreasing : Json → Prop
  | .obj fields => fields.Pairwise fun p q => keySortValue p.1 < keySortValue q.1
  | _ => True

section Faithful

variable {X : Externals} {float : String → String}

lemma Renderable.plainFloat {v : Json} (h : Renderable v) : PlainFloat v := by
  cases v with
  | float text => exact h.elim
  | _ => trivial

lemma jsonLoads_dumps (hX : DecodesText X float) {v : Json} (h : InProfile v) :
    X.jsonLoads ((dumps keyLe v).flatMap String.utf8EncodeChar) = some (sortKeys keyLe v) := by
  have hreadable : All (Readable float) v := h.imp fun _ => Profile.readable
  obtain ⟨c, more, hc, -, -, -, hascii⟩ := dumps_head keyLe hreadable
  rw [hX _ ?_ ?_, loads_dumps keyLe hreadable]
  · intro hnul
    exact absurd (dumps_printable (h.imp fun _ hw => hw.renderable.plainFloat) _ hnul) (by decide)
  · rw [hc]
    intro hbom
    obtain rfl := Option.some.inj hbom
    exact absurd hascii (by decide)

lemma Increasing.keys {v : Json} (h : Increasing keyLe v) : KeysIncreasing v := by
  cases v with
  | obj fields =>
    refine List.Pairwise.imp ?_ h
    rintro p q ⟨hle, hne⟩
    rcases unitsLe_iff.mp hle with heq | hlt
    · exact (hne (keySortValue_injective heq)).elim
    · exact hlt
  | _ => trivial

/-- Equal bytes come from the same value only. -/
lemma canonicalBytes_same {v v' : Json} {raw : List UInt8} (hv : InProfile v) (hv' : InProfile v')
    (h : canonicalBytes v = .ok raw) : canonicalBytes v' = .ok raw ↔ Same v' v := by
  rw [canonicalBytes_ok hv, Except.ok.injEq] at h
  rw [canonicalBytes_ok hv', Except.ok.injEq, ← h]
  constructor
  · intro hbytes
    have hencode : (dumps keyLe v').utf8Encode = (dumps keyLe v).utf8Encode := congrArg List.toByteArray hbytes
    have hdecode := congrArg ByteArray.utf8Decode? hencode
    rw [List.utf8Decode?_utf8Encode, List.utf8Decode?_utf8Encode, Option.some.injEq] at hdecode
    have htext := congrArg Array.toList hdecode
    exact same_of_dumps_eq (hv'.imp fun _ => @Profile.readable id _) (hv.imp fun _ => Profile.readable) htext
  · intro hsame
    rw [hsame.dumps_eq keyOrder_keyLe hv'.distinct]

lemma asObj?_isSome_same {v w : Json} (h : Same v w) : v.asObj?.isSome = w.asObj?.isSome := by
  induction h with
  | trans _ _ ihu ihv => exact ihu.trans ihv
  | _ => rfl

lemma sha256Digest_eq {v : Json} {raw : List UInt8} (h : canonicalBytes v = .ok raw) :
    sha256Digest X v = .ok ("sha256:" ++ X.sha256 raw) := by
  rw [sha256Digest, h]
  rfl

lemma getJson_eq_ok {cas : Cas} {digest : String} {v : Json} :
    getJson X cas digest = .ok v ↔ isSha256Digest digest ∧ ∃ raw, cas.lookup digest = some raw ∧
      raw.length ≤ 4 * 1024 * 1024 ∧ X.jsonLoads raw = some v ∧ v.asObj?.isSome ∧ canonicalBytes v = .ok raw ∧
      sha256Digest X v = .ok digest := by
  simp only [getJson, hex, Fallible.bind_eq_ok, rejectIf_eq_ok, not_not, expect_eq_ok, Fallible.pure_eq_ok, gt_iff_lt,
    Nat.not_lt, Option.isNone_iff_eq_none]
  constructor
  · rintro ⟨_, hhex, raw, hraw, _, hsize, w, hw, _, hobj, bytes, hbytes, _, rfl, actual, hactual, _, rfl, rfl⟩
    exact ⟨hhex, bytes, hraw, hsize, hw, Option.isSome_iff_ne_none.mpr hobj, hbytes, hactual⟩
  · rintro ⟨hhex, raw, hraw, hsize, hv, hobj, hbytes, hdigest⟩
    exact ⟨(), hhex, raw, hraw, (), hsize, v, hv, (), Option.isSome_iff_ne_none.mp hobj, raw, hbytes, (), rfl, digest,
      hdigest, (), rfl, rfl⟩

/-- An object is stored under its digest: the bytes are its canonical encoding. -/
def Names (X : Externals) (digest : String) (raw : List UInt8) (v : Json) : Prop :=
  InProfile v ∧ v.asObj?.isSome ∧ canonicalBytes v = .ok raw ∧ sha256Digest X v = .ok digest

/-- A decoded object that is rendered to the bytes it was decoded from is in the profile. -/
lemma inProfile_of_loads (hX : DecodesText X float) {v : Json} {raw : List UInt8} (hloads : X.jsonLoads raw = some v)
    (hobj : v.asObj?.isSome) (hbytes : canonicalBytes v = .ok raw) : InProfile v := by
  obtain ⟨hrenderable, rfl⟩ := canonicalBytes_eq_ok hbytes
  have hhead : (dumps keyLe v).head? = some '\x7b' := by
    cases v with
    | obj fields =>
      rw [dumps_obj]
      rfl
    | _ => simp [asObj?] at hobj
  rw [hX] at hloads
  · exact (hrenderable.and (loads_distinct hloads)).imp fun _ h => h.1.profile h.2
  · intro hnul
    exact absurd (dumps_printable (hrenderable.imp fun _ => Renderable.plainFloat) _ hnul) (by decide)
  · rw [hhead]
    decide

lemma getJson_accepts (hX : DecodesText X float) (hhex : HexDigests X) {cas : Cas} {digest : String}
    {raw : List UInt8} (hraw : cas.lookup digest = some raw) :
    (∃ v, getJson X cas digest = .ok v) ↔ raw.length ≤ 4 * 1024 * 1024 ∧ ∃ v, Names X digest raw v := by
  constructor
  · rintro ⟨v, hv⟩
    obtain ⟨-, raw', hraw', hsize, hloads, hobj, hbytes, hdigest⟩ := getJson_eq_ok.mp hv
    obtain rfl := Option.some.inj (hraw.symm.trans hraw')
    exact ⟨hsize, v, inProfile_of_loads hX hloads hobj hbytes, hobj, hbytes, hdigest⟩
  · rintro ⟨hsize, v, hprofile, hobj, hbytes, hdigest⟩
    have hloads := jsonLoads_dumps hX hprofile
    have hok := canonicalBytes_ok hprofile
    rw [hbytes, Except.ok.injEq] at hok
    rw [← hok] at hloads
    have hsame := same_sortKeys keyLe v
    have hprofile' : InProfile (sortKeys keyLe v) := hprofile.same hsame
    have hbytes' := (canonicalBytes_same hprofile hprofile' hbytes).mpr hsame.symm
    rw [sha256Digest_eq hbytes, Except.ok.injEq] at hdigest
    refine ⟨sortKeys keyLe v, getJson_eq_ok.mpr ⟨hdigest ▸ hhex raw, raw, hraw, hsize, hloads, ?_, hbytes', ?_⟩⟩
    · rw [← asObj?_isSome_same hsame]
      exact hobj
    · rw [sha256Digest_eq hbytes', hdigest]

/-- The canonical bytes of a value are decoded to the same value, whose keys they list in order, and belong to it
alone; and the object store accepts the canonical bytes of an object under its digest, up to the size limit, and no
other bytes. -/
theorem canonicalBytes_faithful (hX : DecodesText X float) (hhex : HexDigests X) :
    (∀ v, InProfile v → ∃ raw w, canonicalBytes v = .ok raw ∧ X.jsonLoads raw = some w ∧ Same w v ∧
      All KeysIncreasing w ∧ ∀ v', InProfile v' → (canonicalBytes v' = .ok raw ↔ Same v' v)) ∧
    ∀ (cas : Cas) digest raw, cas.lookup digest = some raw →
      ((∃ v, getJson X cas digest = .ok v) ↔ raw.length ≤ 4 * 1024 * 1024 ∧ ∃ v, Names X digest raw v) := by
  refine ⟨fun v hv => ?_, fun cas digest raw hraw => getJson_accepts hX hhex hraw⟩
  have hbytes := canonicalBytes_ok hv
  refine ⟨_, sortKeys keyLe v, hbytes, jsonLoads_dumps hX hv, (same_sortKeys keyLe v).symm, ?_, fun v' hv' => ?_⟩
  · exact (increasing_sortKeys keyOrder_keyLe hv.distinct).imp fun _ => Increasing.keys
  · exact canonicalBytes_same hv hv' hbytes

end Faithful

namespace Sample

/-- Its first key is after its second one by code points, and before it by code units. -/
def nested : Json :=
  .obj [("\uE000", .list [.str "a\n\"", .null, .int (-2)]), (String.singleton (Char.ofNat 0x10000), .int 1)]

def nestedText : List Char :=
  "\x7b\"".toList ++ Char.ofNat 0x10000 :: "\":1,\"\uE000\":[\"a\\n\\\"\",null,-2]\x7d".toList

def nestedSha256 : String := "725870a39b1e6e603100891d658e6a70b6104ba3a469053f13b55d52c7086416"

/-- The decoder for UTF-8 text, and a stand-in for the digest function that is right about one text. -/
noncomputable def decoding : Externals where
  sha256 bytes :=
    if bytes = nestedText.flatMap String.utf8EncodeChar then nestedSha256 else IntentStore.Sample.checksum bytes
  fromisoformat _ := none
  b64decode _ := none
  jsonLoads raw := raw.toByteArray.utf8Decode?.bind fun s => Json.loads id s.toList
  ed25519Verify _ _ _ := false
  schemaValid _ _ := false

lemma decodes_text : DecodesText decoding id := by
  intro s _ _
  have hdecode : (s.flatMap String.utf8EncodeChar).toByteArray.utf8Decode? = some s.toArray :=
    List.utf8Decode?_utf8Encode
  simp [decoding, hdecode]

lemma hexDigit_mem : ∀ n < 16, hexDigit n ∈ "0123456789abcdef".toList := by
  decide

lemma isSha256Digest_checksum (bytes : List UInt8) : isSha256Digest ("sha256:" ++ IntentStore.Sample.checksum bytes) := by
  simp only [isSha256Digest, IntentStore.Sample.checksum, String.toList_append, String.toList_ofList]
  refine ⟨List.prefix_append _ _, by simp, fun c hc => ?_⟩
  rw [List.drop_left' (by decide)] at hc
  obtain ⟨i, -, rfl⟩ := List.mem_map.mp hc
  exact hexDigit_mem _ (Nat.mod_lt _ (by decide))

lemma hex_digests : HexDigests decoding := by
  intro bytes
  simp only [decoding]
  split
  · decide
  · exact isSha256Digest_checksum bytes

lemma nested_inProfile : InProfile nested := by
  simp only [InProfile, nested, All, AllFields, AllItems, Profile]
  decide

lemma nested_bytes : canonicalBytes nested = .ok (nestedText.flatMap String.utf8EncodeChar) := by
  decide

lemma nested_digest : sha256Digest decoding nested = .ok ("sha256:" ++ nestedSha256) := by
  rw [sha256Digest_eq nested_bytes]
  simp only [decoding, if_true]

theorem canonicalBytes_faithful_nested :
    (∃ w, decoding.jsonLoads (nestedText.flatMap String.utf8EncodeChar) = some w ∧ Same w nested ∧
      All KeysIncreasing w) ∧
    ∃ v, getJson decoding [("sha256:" ++ nestedSha256, nestedText.flatMap String.utf8EncodeChar)]
      ("sha256:" ++ nestedSha256) = .ok v := by
  obtain ⟨hfaithful, haccepts⟩ := canonicalBytes_faithful decodes_text hex_digests
  obtain ⟨raw, w, hraw, hw, hsame, hkeys, -⟩ := hfaithful nested nested_inProfile
  obtain rfl := Except.ok.inj (nested_bytes.symm.trans hraw)
  refine ⟨⟨w, hw, hsame, hkeys⟩, (haccepts _ _ _ List.lookup_cons_self).mpr ⟨by decide, nested, ?_⟩⟩
  exact ⟨nested_inProfile, rfl, nested_bytes, nested_digest⟩

def padded (n : Nat) : Json := .obj [("a", .str (String.ofList (List.replicate n 'a')))]

def paddedBytes (n : Nat) : List UInt8 := (dumps keyLe (padded n)).flatMap String.utf8EncodeChar

lemma length_le_flatMap {α : Type} {f : Char → List α} (hf : ∀ c, 1 ≤ (f c).length) (s : List Char) :
    s.length ≤ (s.flatMap f).length := by
  induction s with
  | nil => exact Nat.zero_le _
  | cons c s ih =>
    have hc := hf c
    simp only [List.flatMap_cons, List.length_append, List.length_cons]
    omega

lemma length_paddedBytes (n : Nat) : n < (paddedBytes n).length := by
  have hbytes : (dumps keyLe (padded n)).length ≤ (paddedBytes n).length :=
    length_le_flatMap (fun c => by rw [String.length_utf8EncodeChar]; exact c.utf8Size_pos) _
  have hescaped := length_le_flatMap length_escapeChar (List.replicate n 'a')
  have htext : dumps keyLe (padded n) =
      "\x7b\"a\":\"".toList ++ ((List.replicate n 'a').flatMap escapeChar ++ ['"', '\x7d']) := by
    simp [padded, dumps, dumpsFields, joinFields, member, dumpsStr, List.intercalate, escapeChar]
  rw [htext] at hbytes
  simp only [List.length_append, List.length_replicate, List.length_cons] at hbytes hescaped
  omega

lemma padded_inProfile (n : Nat) : InProfile (padded n) := by
  simp [InProfile, padded, All, AllFields, Profile]

lemma padded_rejected {X : Externals} {n : Nat} (hn : 4 * 1024 * 1024 ≤ n) :
    Names X ("sha256:" ++ X.sha256 (paddedBytes n)) (paddedBytes n) (padded n) ∧
    ¬ ∃ v, getJson X [("sha256:" ++ X.sha256 (paddedBytes n), paddedBytes n)]
      ("sha256:" ++ X.sha256 (paddedBytes n)) = .ok v := by
  have hbytes := canonicalBytes_ok (padded_inProfile n)
  refine ⟨⟨padded_inProfile n, rfl, hbytes, sha256Digest_eq hbytes⟩, ?_⟩
  rintro ⟨v, hv⟩
  obtain ⟨-, raw, hraw, hsize, -⟩ := getJson_eq_ok.mp hv
  rw [List.lookup_cons_self, Option.some.injEq] at hraw
  have hlength := length_paddedBytes n
  rw [hraw] at hlength
  omega

/-- The canonical encoding of an object that is stored under its digest, and that is not accepted. -/
theorem oversized_object_rejected :
    Names decoding ("sha256:" ++ decoding.sha256 (paddedBytes (4 * 1024 * 1024))) (paddedBytes (4 * 1024 * 1024))
      (padded (4 * 1024 * 1024)) ∧
    ¬ ∃ v, getJson decoding
      [("sha256:" ++ decoding.sha256 (paddedBytes (4 * 1024 * 1024)), paddedBytes (4 * 1024 * 1024))]
      ("sha256:" ++ decoding.sha256 (paddedBytes (4 * 1024 * 1024))) = .ok v :=
  padded_rejected le_rfl

end Sample

end PlatformGitops.CrossAi.CanonicalEncoding
