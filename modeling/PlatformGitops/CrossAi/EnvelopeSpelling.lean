import PlatformGitops.CrossAi.CanonicalEncoding
import PlatformGitops.CrossAi.Evidence
import PlatformGitops.Library.Base64
import Mathlib.Data.List.Forall2

/-! The digest of a signed envelope is taken over its Base64 texts, and its signatures over what they decode to. -/

namespace PlatformGitops.CrossAi.EnvelopeSpelling

open Library Json Dsse CanonicalEncoding

/-- No two canonical encodings have one digest. -/
def CollisionFree (X : Externals) : Prop :=
  ∀ v w a b, canonicalBytes v = .ok a → canonicalBytes w = .ok b → X.sha256 a = X.sha256 b → a = b

/-- The decoder rejects characters outside the alphabet and wrong padding. -/
def DecodesBase64 (X : Externals) : Prop := ∀ s, X.b64decode s = Base64.decode s.toList

/-- The key a signature names, and its bytes. -/
def signer? (X : Externals) (entry : Json) : Option (String × List UInt8) := do
  let keyId ← (entry.get "keyid").asStr?
  let sig ← (entry.get "sig").asStr?
  let bytes ← X.b64decode sig
  some (keyId, bytes)

def signers? (X : Externals) (envelope : Json) : Option (List (String × List UInt8)) :=
  (envelope.get "signatures").asList?.bind (·.mapM (signer? X))

def unusedBitsOf (value : Json) : Nat := Base64.unusedBits ((value.asStr?.getD "").toList)

@[simp] lemma unusedBitsOf_str (s : String) : unusedBitsOf (.str s) = Base64.unusedBits s.toList := rfl

/-- The bits that the decoder does not look at: those of the payload, and those of each signature. -/
def unusedBits (envelope : Json) : Nat × List Nat :=
  (unusedBitsOf (envelope.get "payload"),
    ((envelope.get "signatures").asList?.getD []).map fun entry => unusedBitsOf (entry.get "sig"))

/-- An envelope with these texts, its keys in order. -/
def spelled (payloadType payload : String) (signatures : List (String × String)) : Json :=
  .obj [("payload", .str payload), ("payloadType", .str payloadType),
    ("signatures", .list (signatures.map fun s => .obj [("keyid", .str s.1), ("sig", .str s.2)]))]

lemma sortKeys_spelled (payloadType payload : String) (signatures : List (String × String)) :
    sortKeys keyLe (spelled payloadType payload signatures) = spelled payloadType payload signatures := by
  have horder : ∀ a b c : Json, inOrder keyLe [("payload", a), ("payloadType", b), ("signatures", c)] =
      [("payload", a), ("payloadType", b), ("signatures", c)] := by
    intro a b c
    exact List.Pairwise.insertionSort_eq (by simp; decide)
  have hentry : ∀ a b : Json, inOrder keyLe [("keyid", a), ("sig", b)] = [("keyid", a), ("sig", b)] := by
    intro a b
    exact List.Pairwise.insertionSort_eq (by simp; decide)
  have hstr : ∀ s, sortKeys keyLe (.str s) = .str s := fun s => by simp [sortKeys]
  simp only [spelled, sortKeys_obj, sortKeys_list, horder, hentry, hstr, List.map_cons, List.map_nil, List.map_map,
    Function.comp_def]

lemma spelled_injective {payloadType payload payload' : String} {signatures signatures' : List (String × String)}
    (hd : Distinct (spelled payloadType payload signatures))
    (h : Same (spelled payloadType payload signatures) (spelled payloadType payload' signatures')) :
    payload = payload' ∧ signatures = signatures' := by
  have hsort := h.sortKeys_eq keyOrder_keyLe hd
  rw [sortKeys_spelled, sortKeys_spelled] at hsort
  simp only [spelled, Json.obj.injEq, List.cons.injEq, Prod.mk.injEq, Json.str.injEq, Json.list.injEq, true_and,
    and_true] at hsort
  refine ⟨hsort.1, List.map_injective_iff.mpr ?_ hsort.2⟩
  rintro ⟨k, s⟩ ⟨k', s'⟩ heq
  simpa using heq

/-- The texts of a signature. -/
def textsOf (entry : Json) : String × String :=
  ((entry.get "keyid").asStr?.getD "", (entry.get "sig").asStr?.getD "")

section

variable {X : Externals}

lemma strictB64_str {value : Json} {field : String} {bytes : List UInt8} (h : strictB64 X value field = .ok bytes) :
    ∃ s, value = .str s ∧ X.b64decode s = some bytes := by
  cases value with
  | str s => exact ⟨s, rfl, by simpa [strictB64] using h⟩
  | _ => simp [strictB64] at h

lemma same_of_hasFields {value : Json} {names : List String} (hd : Distinct value) (hnames : names.Nodup)
    (h : hasFields value names) : Same value (.obj (names.map fun name => (name, value.get name))) := by
  obtain ⟨fields, hfields, hsub, hall⟩ := h
  cases value with
  | obj fields' =>
    obtain rfl : fields' = fields := by simpa [asObj?] using hfields
    exact same_listed hd.self hnames hsub hall
  | _ => simp [asObj?] at hfields

/-- A signature that the loop accepted. -/
structure Signed (X : Externals) (entry : Json) : Prop where
  fields : hasFields entry ["keyid", "sig"]
  keyid : entry.get "keyid" = .str (textsOf entry).1
  sig : entry.get "sig" = .str (textsOf entry).2
  signer : ∃ s, signer? X entry = some s

lemma verifySignature_signed {keys : List (String × List UInt8)} {message : List UInt8} {seen seen' : List String}
    {entry : Json × Nat} (h : verifySignature X keys message seen entry = .ok seen') :
    ∃ id, seen' = seen ++ [id] ∧ Signed X entry.1 := by
  simp only [verifySignature, Fallible.bind_eq_ok, rejectIf_eq_ok, not_not, expect_eq_ok, Fallible.pure_eq_ok] at h
  obtain ⟨_, hfields, id, hid, _, -, _, -, signature, hsignature, -, -, -, -, rfl⟩ := h
  obtain ⟨sig, hsig, hbytes⟩ := strictB64_str hsignature
  have hkeyid := asStr?_eq_some hid
  refine ⟨id, rfl, ⟨hfields, by simp [textsOf, hkeyid, asStr?], by simp [textsOf, hsig, asStr?], (id, signature),
    ?_⟩⟩
  simp [signer?, hkeyid, hsig, asStr?, hbytes]

/-- What an accepted envelope is made of. -/
structure Spells (X : Externals) (envelope : Json) (payloadType : String) (payloadBytes : List UInt8)
    (payload : String) (entries : List Json) : Prop where
  fields : hasFields envelope ["payload", "payloadType", "signatures"]
  hasType : envelope.get "payloadType" = .str payloadType
  hasPayload : envelope.get "payload" = .str payload
  bytes : X.b64decode payload = some payloadBytes
  signatures : envelope.get "signatures" = .list entries
  signed : ∀ entry ∈ entries, Signed X entry

lemma verifyJsonEnvelope_spells {envelope : Json} {payloadType : String} {keys : List (String × List UInt8)}
    {ids : List String} {one : Bool} {verified : VerifiedEnvelope}
    (h : verifyJsonEnvelope X envelope payloadType keys ids one = .ok verified) :
    (∃ payload entries, Spells X envelope payloadType verified.payloadBytes payload entries) ∧
      sha256Digest X envelope = .ok verified.envelopeDigest := by
  simp only [verifyJsonEnvelope, Fallible.bind_eq_ok, rejectIf_eq_ok, not_not, expect_eq_ok, Fallible.pure_eq_ok] at h
  obtain ⟨-, -, _, hfields, _, htype, bytes, hbytes, -, -, -, -, -, -, -, -, entries, hentries, -, -, -, -, message, -,
    seen, hseen, -, -, digest, hdigest, rfl⟩ := h
  obtain ⟨payload, hpayload, hdecode⟩ := strictB64_str hbytes
  refine ⟨⟨payload, entries, ⟨?_, asStr?_eq_some htype, hpayload, hdecode, asList?_eq_some hentries, ?_⟩⟩, hdigest⟩
  · obtain ⟨fields, hobj, hsub, hall⟩ := hfields
    refine ⟨fields, hobj, fun f hf => ?_, fun n hn => hall n ?_⟩
    · have := hsub f hf
      simp only [List.mem_cons, List.not_mem_nil, or_false] at this ⊢
      tauto
    · simp only [List.mem_cons, List.not_mem_nil, or_false] at hn ⊢
      tauto
  · intro entry hentry
    obtain ⟨-, ys, -, hsigned⟩ := Fallible.foldlM_snoc (R := fun e _ => Signed X e.1 ∧ True) (P := fun _ => True)
      (fun acc e acc' _ hstep =>
        (verifySignature_signed hstep).imp fun _ h => ⟨h.1, ⟨h.2, trivial⟩, trivial⟩) trivial hseen
    rw [← List.zipIdx_map_fst 0 entries] at hentry
    obtain ⟨e, he, rfl⟩ := List.mem_map.mp hentry
    exact ((List.forall₂_and_left _ _).mp hsigned).1 e he

lemma Signed.same {entry : Json} (h : Signed X entry) (hd : Distinct entry) :
    Same entry (.obj [("keyid", .str (textsOf entry).1), ("sig", .str (textsOf entry).2)]) := by
  have hsame := same_of_hasFields hd (by decide) h.fields
  simpa [h.keyid, h.sig] using hsame

lemma Spells.same {envelope : Json} {payloadType payload : String} {bytes : List UInt8} {entries : List Json}
    (h : Spells X envelope payloadType bytes payload entries) (hd : Distinct envelope) :
    Same envelope (spelled payloadType payload (entries.map textsOf)) := by
  have hsame := same_of_hasFields hd (by decide) h.fields
  simp only [List.map_cons, List.map_nil, h.hasType, h.hasPayload, h.signatures] at hsame
  have hdistinct := hsame.distinct hd
  rw [Distinct, all_obj] at hdistinct
  have hentries := (all_list.mp (hdistinct.2 ("signatures", .list entries) (by simp))).2
  have hitems := Same.items (f := fun entry =>
    .obj [("keyid", .str (textsOf entry).1), ("sig", .str (textsOf entry).2)]) []
    fun entry hentry => (h.signed entry hentry).same (hentries entry hentry)
  refine hsame.trans ?_
  rw [spelled, List.map_map]
  exact Same.value [("payload", .str payload), ("payloadType", .str payloadType)] [] "signatures" hitems

lemma mapM_signer? {entries : List Json} (h : ∀ entry ∈ entries, Signed X entry) :
    ∃ ss, entries.mapM (signer? X) = some ss := by
  induction entries with
  | nil => exact ⟨[], rfl⟩
  | cons entry entries ih =>
    obtain ⟨s, hs⟩ := (h entry List.mem_cons_self).signer
    obtain ⟨ss, hss⟩ := ih fun e he => h e (List.mem_cons_of_mem _ he)
    exact ⟨s :: ss, by simp [List.mapM_cons, hs, hss]⟩

lemma Signed.signer?_eq {entry : Json} (h : Signed X entry) {s : String × List UInt8} (hs : signer? X entry = some s) :
    s.1 = (textsOf entry).1 ∧ X.b64decode (textsOf entry).2 = some s.2 := by
  simp only [signer?, h.keyid, h.sig, asStr?, Option.bind_eq_bind, Option.bind_some, Option.bind_eq_some_iff] at hs
  obtain ⟨bytes, hbytes, heq⟩ := hs
  obtain rfl := Option.some.inj heq
  exact ⟨rfl, hbytes⟩

lemma text_eq (hX : DecodesBase64 X) {s t : String} {bytes : List UInt8} (hs : X.b64decode s = some bytes)
    (ht : X.b64decode t = some bytes) (h : Base64.unusedBits s.toList = Base64.unusedBits t.toList) : s = t := by
  rw [hX] at hs ht
  exact String.toList_inj.mp
    (Base64.eq_of_unusedBits (Base64.decodes_of_decode hs) (Base64.decodes_of_decode ht) h)

lemma textsOf_eq (hX : DecodesBase64 X) {entries entries' : List Json} (h : ∀ entry ∈ entries, Signed X entry)
    (h' : ∀ entry ∈ entries', Signed X entry) {ss : List (String × List UInt8)}
    (hss : entries.mapM (signer? X) = some ss) (hss' : entries'.mapM (signer? X) = some ss)
    (hbits : entries.map (fun e => unusedBitsOf (e.get "sig")) = entries'.map fun e => unusedBitsOf (e.get "sig")) :
    entries.map textsOf = entries'.map textsOf := by
  induction entries generalizing entries' ss with
  | nil =>
    cases entries' with
    | nil => rfl
    | cons entry' entries' => simp at hbits
  | cons entry entries ih =>
    cases entries' with
    | nil => simp at hbits
    | cons entry' entries' =>
      simp only [List.mapM_cons, Option.bind_eq_bind, Option.bind_eq_some_iff, Option.pure_def, Option.some.injEq]
        at hss hss'
      obtain ⟨s, hs, ss, hss, rfl⟩ := hss
      obtain ⟨s', hs', ss', hss', heq⟩ := hss'
      obtain ⟨rfl, rfl⟩ := List.cons.inj heq
      have hsigned := h entry List.mem_cons_self
      have hsigned' := h' entry' List.mem_cons_self
      obtain ⟨hkey, hsig⟩ := hsigned.signer?_eq hs
      obtain ⟨hkey', hsig'⟩ := hsigned'.signer?_eq hs'
      simp only [List.map_cons, List.cons.injEq, hsigned.sig, hsigned'.sig, unusedBitsOf_str]
        at hbits
      have htext := text_eq hX hsig hsig' hbits.1
      rw [List.map_cons, List.map_cons, Prod.ext (hkey.symm.trans hkey') htext,
        ih (fun e he => h e (List.mem_cons_of_mem _ he)) (fun e he => h' e (List.mem_cons_of_mem _ he)) hss hss' hbits.2]

end

section Digest

variable {X : Externals} {envelope envelope' : Json}

lemma inProfile_of_digest {digest : String} (hd : Distinct envelope) (h : sha256Digest X envelope = .ok digest) :
    InProfile envelope ∧ ∃ raw, canonicalBytes envelope = .ok raw ∧ digest = "sha256:" ++ X.sha256 raw := by
  simp only [sha256Digest, Fallible.bind_eq_ok, Fallible.pure_eq_ok] at h
  obtain ⟨raw, hraw, rfl⟩ := h
  have hrenderable := (canonicalBytes_eq_ok hraw).1
  exact ⟨(hrenderable.and hd).imp fun _ h => h.1.profile h.2, raw, hraw, rfl⟩

lemma digest_eq_iff_same (hsha : CollisionFree X) {digest digest' : String} (hd : Distinct envelope)
    (hd' : Distinct envelope') (h : sha256Digest X envelope = .ok digest) (h' : sha256Digest X envelope' = .ok digest') :
    digest = digest' ↔ Same envelope envelope' := by
  obtain ⟨hprofile, raw, hraw, rfl⟩ := inProfile_of_digest hd h
  obtain ⟨hprofile', raw', hraw', rfl⟩ := inProfile_of_digest hd' h'
  rw [← canonicalBytes_same hprofile' hprofile hraw', hraw, Except.ok.injEq, String.append_right_inj]
  exact ⟨fun heq => hsha _ _ _ _ hraw hraw' heq, fun heq => by rw [heq]⟩

/-- Two accepted envelopes with the same payload bytes and the same signatures have one digest if and only if they
agree in the bits that the decoder does not look at. -/
theorem envelopeDigest_eq_iff (hX : DecodesBase64 X) (hsha : CollisionFree X) {payloadType : String}
    {keys : List (String × List UInt8)} {ids ids' : List String} {one one' : Bool} {verified verified' : VerifiedEnvelope}
    (hd : Distinct envelope) (hd' : Distinct envelope')
    (h : verifyJsonEnvelope X envelope payloadType keys ids one = .ok verified)
    (h' : verifyJsonEnvelope X envelope' payloadType keys ids' one' = .ok verified')
    (hpayload : verified.payloadBytes = verified'.payloadBytes) (hsigners : signers? X envelope = signers? X envelope') :
    verified.envelopeDigest = verified'.envelopeDigest ↔ unusedBits envelope = unusedBits envelope' := by
  obtain ⟨⟨payload, entries, hspells⟩, hdigest⟩ := verifyJsonEnvelope_spells h
  obtain ⟨⟨payload', entries', hspells'⟩, hdigest'⟩ := verifyJsonEnvelope_spells h'
  have hsame := hspells.same hd
  have hsame' := hspells'.same hd'
  rw [digest_eq_iff_same hsha hd hd' hdigest hdigest']
  simp only [signers?, hspells.signatures, hspells'.signatures, asList?, Option.bind_some] at hsigners
  simp only [unusedBits, hspells.signatures, hspells'.signatures, hspells.hasPayload, hspells'.hasPayload, asList?,
    Option.getD_some, unusedBitsOf_str, Prod.mk.injEq]
  constructor
  · intro henvelope
    obtain ⟨rfl, htexts⟩ := spelled_injective (hsame.distinct hd) (hsame.symm.trans (henvelope.trans hsame'))
    refine ⟨rfl, ?_⟩
    have hmap := congrArg (List.map fun s : String × String => Base64.unusedBits s.2.toList) htexts
    simpa [textsOf, unusedBitsOf, Function.comp_def] using hmap
  · rintro ⟨hbits, hbits'⟩
    obtain ⟨ss, hss⟩ := mapM_signer? hspells.signed
    have htexts := textsOf_eq hX hspells.signed hspells'.signed hss (hsigners ▸ hss) hbits'
    have hbytes := hspells.bytes
    rw [hpayload] at hbytes
    obtain rfl := text_eq hX hbytes hspells'.bytes hbits
    rw [htexts] at hsame
    exact hsame.trans hsame'.symm

end Digest

namespace Sample

def publicKey : List UInt8 :=
  [3, 161, 7, 191, 243, 206, 16, 190, 29, 112, 221, 24, 231, 75, 192, 153, 103, 228, 214, 48, 155, 165, 13, 95, 29, 220,
    134, 100, 18, 85, 49, 184]

def signature : List UInt8 :=
  [214, 41, 206, 116, 142, 83, 161, 61, 85, 146, 164, 106, 160, 170, 20, 221, 137, 21, 121, 132, 211, 190, 125, 177, 157,
    53, 223, 123, 43, 205, 161, 220, 182, 190, 167, 223, 174, 98, 199, 54, 238, 18, 120, 31, 121, 196, 157, 10, 163, 111,
    26, 50, 38, 106, 125, 127, 127, 99, 192, 157, 37, 156, 185, 14]

def message : List UInt8 := utf8 "DSSEv1 1 t 7 \x7b\"a\":1\x7d"

/-- An envelope whose signature ends in the given character. -/
def envelopeWith (last : Char) : Json :=
  spelled "t" "eyJhIjoxfQ==" [("k",
    String.ofList ("1inOdI5ToT1VkqRqoKoU3YkVeYTTvn2xnTXfeyvNody2vqffrmLHNu4SeB95xJ0Ko28aMiZqfX9/Y8CdJZy5D".toList ++
      [last, '=', '=']))]

def bytesWith (last : Char) : List UInt8 :=
  (dumps keyLe (envelopeWith last)).flatMap String.utf8EncodeChar

def sha256 (bytes : List UInt8) : String :=
  if bytes = bytesWith 'g' then "88413dd13ef64eb6540294076aa4e391516780efe5b7a46d10db6d804e48a350"
  else if bytes = bytesWith 'h' then "20a82b78fd96b5a7a174b30232e74fe884e3d864c315b6ef547ad57b4ab8baeb"
  else String.ofList ('x' :: bytes.map Char.ofUInt8)

/-- The library functions, each of them right about the two envelopes. -/
def verifying : Externals where
  sha256 := sha256
  fromisoformat _ := none
  b64decode s := Base64.decode s.toList
  jsonLoads bytes := Json.loads id (bytes.map Char.ofUInt8)
  ed25519Verify key sig text := key = publicKey ∧ sig = signature ∧ text = message
  schemaValid _ _ := false

lemma ofUInt8_injective : Function.Injective Char.ofUInt8 := by
  intro a b h
  exact UInt8.toUInt32_inj.mp (congrArg Char.val h)

lemma collisionFree : CollisionFree verifying := by
  intro v w a b _ _ h
  have hplain : ∀ (c : List UInt8) (t : String), t.toList.head? ≠ some 'x' →
      String.ofList ('x' :: c.map Char.ofUInt8) ≠ t := by
    rintro c t ht rfl
    exact ht (by simp)
  simp only [verifying, sha256] at h
  split_ifs at h
  · exact ‹a = bytesWith 'g'›.trans ‹b = bytesWith 'g'›.symm
  · exact absurd h (by decide)
  · exact (hplain b _ (by decide) h.symm).elim
  · exact absurd h (by decide)
  · exact ‹a = bytesWith 'h'›.trans ‹b = bytesWith 'h'›.symm
  · exact (hplain b _ (by decide) h.symm).elim
  · exact (hplain a _ (by decide) h).elim
  · exact (hplain a _ (by decide) h).elim
  · have hmap := (List.cons.inj (String.ofList_injective h)).2
    exact List.map_injective_iff.mpr ofUInt8_injective hmap

def verdict (last : Char) : Except Failure VerifiedEnvelope :=
  verifyJsonEnvelope verifying (envelopeWith last) "t" [("k", publicKey)] [] true

lemma verdict_first : (verdict 'g').toOption.map (fun v => (v.payloadBytes, v.envelopeDigest)) =
    some (utf8 "\x7b\"a\":1\x7d", "sha256:88413dd13ef64eb6540294076aa4e391516780efe5b7a46d10db6d804e48a350") := by
  decide +kernel

lemma verdict_second : (verdict 'h').toOption.map (fun v => (v.payloadBytes, v.envelopeDigest)) =
    some (utf8 "\x7b\"a\":1\x7d", "sha256:20a82b78fd96b5a7a174b30232e74fe884e3d864c315b6ef547ad57b4ab8baeb") := by
  decide +kernel

lemma verdict_ok {last : Char} {bytes : List UInt8} {digest : String}
    (h : (verdict last).toOption.map (fun v => (v.payloadBytes, v.envelopeDigest)) = some (bytes, digest)) :
    ∃ v, verdict last = .ok v ∧ v.payloadBytes = bytes ∧ v.envelopeDigest = digest := by
  obtain ⟨v, hv, heq⟩ := Option.map_eq_some_iff.mp h
  exact ⟨v, Fallible.toOption_eq_some hv, congrArg Prod.fst heq, congrArg Prod.snd heq⟩

lemma signers_eq : signers? verifying (envelopeWith 'g') = signers? verifying (envelopeWith 'h') := by
  decide +kernel

lemma distinct_envelopeWith (last : Char) : Distinct (envelopeWith last) := by
  simp [Distinct, envelopeWith, spelled, All, AllFields, AllItems, DistinctKeys]

/-- One signature, accepted under two digests. -/
theorem respelled_signature_digests :
    ∃ v v', verdict 'g' = .ok v ∧ verdict 'h' = .ok v' ∧ v.payloadBytes = v'.payloadBytes ∧
      signers? verifying (envelopeWith 'g') = signers? verifying (envelopeWith 'h') ∧
      v.envelopeDigest ≠ v'.envelopeDigest := by
  obtain ⟨v, hv, hbytes, hdigest⟩ := verdict_ok verdict_first
  obtain ⟨v', hv', hbytes', hdigest'⟩ := verdict_ok verdict_second
  exact ⟨v, v', hv, hv', hbytes.trans hbytes'.symm, signers_eq, by rw [hdigest, hdigest']; decide⟩

theorem envelopeDigest_eq_iff_respelled :
    ∃ v v', verdict 'g' = .ok v ∧ verdict 'h' = .ok v' ∧
      (v.envelopeDigest = v'.envelopeDigest ↔ unusedBits (envelopeWith 'g') = unusedBits (envelopeWith 'h')) := by
  obtain ⟨v, hv, hbytes, -⟩ := verdict_ok verdict_first
  obtain ⟨v', hv', hbytes', -⟩ := verdict_ok verdict_second
  exact ⟨v, v', hv, hv', envelopeDigest_eq_iff (fun _ => rfl) collisionFree (distinct_envelopeWith 'g')
    (distinct_envelopeWith 'h') hv hv' (hbytes.trans hbytes'.symm) signers_eq⟩

end Sample

end PlatformGitops.CrossAi.EnvelopeSpelling
