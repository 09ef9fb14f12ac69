import PlatformGitops.CrossAi.EvidenceOrder
import PlatformGitops.CrossAi.Reconciler
import PlatformGitops.Library.SortedForm
import PlatformGitops.Library.Decimal
import PlatformGitops.Library.TextFile

/-! What is signed of an envelope and what is digested of the critical jobs of a run: from either text one reads back
what it was made of. -/

namespace PlatformGitops.CrossAi

open Library

section Framing

variable {s t : String} {c c' rest rest' : List UInt8}

lemma utf8_injective (h : utf8 s = utf8 t) : s = t := String.toList_inj.mp (Text.encode_injective h)

lemma utf8_append (s t : String) : utf8 (s ++ t) = utf8 s ++ utf8 t := by
  simp [utf8]

lemma space_not_mem_utf8EncodeChar {d : Char} (hd : d.isDigit = true) : (32 : UInt8) ∉ String.utf8EncodeChar d := by
  simp only [Char.isDigit, Bool.and_eq_true, decide_eq_true_eq] at hd
  have hlow : 48 ≤ d.val.toNat := UInt32.le_iff_toNat_le.mp hd.1
  have hhigh : d.val.toNat ≤ 57 := UInt32.le_iff_toNat_le.mp hd.2
  have hthirtytwo : (32 : UInt8).toNat = 32 := rfl
  intro hmem
  rw [String.utf8EncodeChar, if_pos (by omega), List.mem_singleton] at hmem
  have hnat := congrArg UInt8.toNat hmem
  rw [UInt8.toNat_ofNat_of_lt' (by show _ < 256; omega), hthirtytwo] at hnat
  omega

lemma space_not_mem_toString (n : Nat) : (32 : UInt8) ∉ utf8 (toString n) := by
  intro hmem
  obtain ⟨d, hd, hbyte⟩ := List.mem_flatMap.mp hmem
  rw [Nat.toString_eq_repr, Nat.toList_repr] at hd
  exact space_not_mem_utf8EncodeChar (Decimal.isDigit_toDigits hd) hbyte

lemma toString_injective {m n : Nat} (h : utf8 (toString m) = utf8 (toString n)) : m = n := by
  have hdigits := congrArg String.toList (utf8_injective h)
  rw [Nat.toString_eq_repr, Nat.toString_eq_repr, Nat.toList_repr, Nat.toList_repr] at hdigits
  exact Decimal.toDigits_injective hdigits

/-- A content behind its length. -/
def framed (content rest : List UInt8) : List UInt8 := utf8 (toString content.length) ++ 32 :: (content ++ rest)

/-- The length ends at the first space, and the content where the length says, whatever stands in it. -/
lemma framed_injective (h : framed c rest = framed c' rest') : c = c' ∧ rest = rest' := by
  obtain ⟨hlength, hrest⟩ := Decimal.separated_inj (space_not_mem_toString _) (space_not_mem_toString _) h
  exact List.append_inj hrest (toString_injective hlength)

end Framing

namespace Dsse

def AsciiType (payloadType : String) : Prop := payloadType ≠ "" ∧ payloadType.toList.all (·.toNat ≤ 0x7F)

lemma pae_eq {payloadType : String} (h : AsciiType payloadType) (payload : List UInt8) :
    pae payloadType payload = .ok (utf8 "DSSEv1 " ++ framed (utf8 payloadType) (32 :: framed payload [])) := by
  have hspace : utf8 " " = [32] := by decide
  have hascii : payloadType.toList.any (0x7F < ·.toNat) = false := by
    rw [List.any_eq_false]
    intro c hc
    simpa using List.all_eq_true.mp h.2 c hc
  rw [pae, Fallible.bind_eq_ok]
  refine ⟨(), rejectIf_eq_ok.mpr (by simp [h.1, hascii]), ?_⟩
  simp [hspace, framed]

theorem pae_injective {t₁ t₂ : String} {p₁ p₂ : List UInt8} (h₁ : AsciiType t₁) (h₂ : AsciiType t₂)
    (h : pae t₁ p₁ = pae t₂ p₂) : t₁ = t₂ ∧ p₁ = p₂ := by
  rw [pae_eq h₁, pae_eq h₂] at h
  have hframes := List.append_cancel_left (Except.ok.inj h)
  obtain ⟨htype, hrest⟩ := framed_injective hframes
  obtain ⟨hpayload, -⟩ := framed_injective (List.cons.inj hrest).2
  exact ⟨utf8_injective htype, hpayload⟩

theorem pae_injective_ascii : "a 1 b" = "a 1 b" ∧ utf8 "1 x 2" = utf8 "1 x 2" :=
  pae_injective ⟨by decide, by decide⟩ ⟨by decide, by decide⟩ rfl

end Dsse

namespace Reconciler

variable {runAttempt runAttempt' : Int} {requireSuccess requireSuccess' : Bool} {job job' step : Json}
  {jobs jobs' : List Json} {j : CriticalJob} {s : CriticalStep} {projection : Json}

/-- The value that is digested. -/
def criticalProjection (jobs : List Json) (runAttempt : Int) (requireSuccess : Bool) : Except Failure Json := do
  let projection ← jobs.foldlM (criticalJob runAttempt requireSuccess) []
  pure (.obj [("domain", .str "acik.cross-ai-critical-jobs.v1"),
    ("jobs", .list ((projection.insertionSort fun j k => j.name ≤ k.name).map CriticalJob.json))])

lemma criticalJobsDigest_eq (X : Externals) : criticalJobsDigest X jobs runAttempt requireSuccess =
    criticalProjection jobs runAttempt requireSuccess >>= sha256Digest X := by
  simp only [criticalJobsDigest, criticalProjection, bind_assoc, pure_bind]

section Reading

lemma criticalStep_agreeing (acc : List CriticalStep) (step : Json) (acc' : List CriticalStep) :
    criticalStep requireSuccess acc step = .ok acc' ↔
      ∃ s, criticalStep requireSuccess [] step = .ok [s] ∧ (∀ earlier ∈ acc, earlier.number ≠ s.number) ∧
        acc' = acc ++ [s] := by
  simp only [criticalStep, Fallible.bind_eq_ok, Fallible.pure_eq_ok, rejectIf_eq_ok, expect_eq_ok, not_or, not_not]
  constructor
  · rintro ⟨_, hobj, number, hnumber, name, hname, conclusion, hconclusion, _, ⟨hpos, hfresh, hok⟩, _, hsuccess, rfl⟩
    exact ⟨⟨number, name, conclusion⟩, ⟨(), hobj, number, hnumber, name, hname, conclusion, hconclusion, (),
      ⟨hpos, by simp, hok⟩, (), hsuccess, rfl⟩, fun e he heq => hfresh (List.mem_map.mpr ⟨e, he, heq⟩), rfl⟩
  · rintro ⟨s, ⟨_, hobj, number, hnumber, name, hname, conclusion, hconclusion, _, ⟨hpos, -, hok⟩, _, hsuccess, hs⟩,
      hfresh, rfl⟩
    obtain rfl := (List.cons.inj hs).1
    refine ⟨(), hobj, number, hnumber, name, hname, conclusion, hconclusion, (), ⟨hpos, fun hmem => ?_, hok⟩, (),
      hsuccess, rfl⟩
    obtain ⟨e, he, heq⟩ := List.mem_map.mp hmem
    exact hfresh e he heq

lemma criticalJob_agreeing (acc : List CriticalJob) (job : Json) (acc' : List CriticalJob) :
    criticalJob runAttempt requireSuccess acc job = .ok acc' ↔
      ∃ j, criticalJob runAttempt requireSuccess [] job = .ok [j] ∧ (∀ earlier ∈ acc, earlier.name ≠ j.name) ∧
        acc' = acc ++ [j] := by
  simp only [criticalJob, Fallible.bind_eq_ok, Fallible.pure_eq_ok, rejectIf_eq_ok, expect_eq_ok, not_or, not_not]
  constructor
  · rintro ⟨name, hname, conclusion, hconclusion, _, ⟨hsome, hfresh, hok⟩, _, hsuccess, stepsValue, hvalue, _,
      hnonempty, steps, hsteps, rfl⟩
    exact ⟨⟨name, conclusion, _⟩, ⟨name, hname, conclusion, hconclusion, (), ⟨hsome, by simp, hok⟩, (), hsuccess,
      stepsValue, hvalue, (), hnonempty, steps, hsteps, rfl⟩,
      fun e he heq => hfresh (List.mem_map.mpr ⟨e, he, heq⟩), rfl⟩
  · rintro ⟨j, ⟨name, hname, conclusion, hconclusion, _, ⟨hsome, -, hok⟩, _, hsuccess, stepsValue, hvalue, _,
      hnonempty, steps, hsteps, hj⟩, hfresh, rfl⟩
    obtain rfl := (List.cons.inj hj).1
    refine ⟨name, hname, conclusion, hconclusion, (), ⟨hsome, fun hmem => ?_, hok⟩, (), hsuccess, stepsValue, hvalue,
      (), hnonempty, steps, hsteps, rfl⟩
    obtain ⟨e, he, heq⟩ := List.mem_map.mp hmem
    exact hfresh e he heq

lemma step_read (h : criticalStep requireSuccess [] step = .ok [s]) :
    step.get "number" = .int s.number ∧ step.get "name" = .str s.name ∧ step.get "conclusion" = .str s.conclusion ∧
      (requireSuccess = true → s.conclusion = "success") := by
  simp only [criticalStep, Fallible.bind_eq_ok, Fallible.pure_eq_ok, rejectIf_eq_ok, expect_eq_ok, not_or, not_not,
    not_and] at h
  obtain ⟨_, -, number, hnumber, name, hname, conclusion, hconclusion, _, -, _, hsuccess, hs⟩ := h
  obtain rfl := (List.cons.inj hs).1
  exact ⟨Json.asStrictInt?_eq_some hnumber, Json.asStr?_eq_some hname, Json.asStr?_eq_some hconclusion, hsuccess⟩

lemma job_read (h : criticalJob runAttempt requireSuccess [] job = .ok [j]) :
    job.get "name" = .str j.name ∧ job.get "conclusion" = .str j.conclusion ∧
      (requireSuccess = true → j.conclusion = "success") ∧
      ∃ values steps, job.get "steps" = .list values ∧ values.foldlM (criticalStep requireSuccess) [] = .ok steps ∧
        j.steps = steps.insertionSort fun s t => s.number ≤ t.number := by
  simp only [criticalJob, Fallible.bind_eq_ok, Fallible.pure_eq_ok, rejectIf_eq_ok, expect_eq_ok, not_or, not_not,
    not_and] at h
  obtain ⟨name, hname, conclusion, hconclusion, _, -, _, hsuccess, values, hvalues, _, -, steps, hsteps, hj⟩ := h
  obtain rfl := (List.cons.inj hj).1
  exact ⟨Json.asStr?_eq_some hname, Json.asStr?_eq_some hconclusion, hsuccess, values, steps,
    Json.asList?_eq_some hvalues, hsteps, rfl⟩

end Reading

section Order

/-- Another spelling of a job: its steps may stand in another order, and the rest is the same. -/
def StepsReordered (job job' : Json) : Prop :=
  (∀ key, key ≠ "steps" → job'.get key = job.get key) ∧
    ∃ steps steps', job.get "steps" = .list steps ∧ job'.get "steps" = .list steps' ∧ steps'.Perm steps

lemma criticalJob_reordered (h : StepsReordered job job') (hjob : criticalJob runAttempt requireSuccess [] job = .ok [j]) :
    criticalJob runAttempt requireSuccess [] job' = .ok [j] := by
  obtain ⟨hrest, steps, steps', hsteps, hsteps', hperm⟩ := h
  simp only [criticalJob, Fallible.bind_eq_ok, Fallible.pure_eq_ok, rejectIf_eq_ok, expect_eq_ok, hsteps, hsteps',
    hrest "name" (by decide), hrest "conclusion" (by decide), hrest "run_attempt" (by decide),
    hrest "status" (by decide), Json.asList?, Option.some.injEq] at hjob ⊢
  obtain ⟨name, hname, conclusion, hconclusion, _, hok, _, hsuccess, _, rfl, _, hnonempty, read, hread, hj⟩ := hjob
  obtain ⟨read', hperm', hread'⟩ := Fallible.foldlM_agreeing_perm Ne.symm criticalStep_agreeing hperm hread
  obtain ⟨_, rfl, -, hdistinct, -⟩ := (Fallible.foldlM_agreeing criticalStep_agreeing).mp hread
  have hsort := Contract.insertionSort_eq_of_perm CriticalStep.number hperm'
    (List.pairwise_map.mpr hdistinct)
  have hnonempty' : ¬ steps'.isEmpty = true := by
    rw [List.isEmpty_iff] at hnonempty ⊢
    rintro rfl
    exact hnonempty (List.nil_perm.mp hperm)
  exact ⟨name, hname, conclusion, hconclusion, (), hok, (), hsuccess, steps', rfl, (), hnonempty', read', hread',
    by rw [hsort, hj]⟩

lemma criticalProjection_reordered (h : Rearranged StepsReordered jobs jobs')
    (hjobs : criticalProjection jobs runAttempt requireSuccess = .ok projection) :
    criticalProjection jobs' runAttempt requireSuccess = .ok projection := by
  obtain ⟨mid, hmid, hperm⟩ := h
  simp only [criticalProjection, Fallible.bind_eq_ok, Fallible.pure_eq_ok] at hjobs ⊢
  obtain ⟨read, hread, rfl⟩ := hjobs
  obtain ⟨_, rfl, hpairs, hdistinct, -⟩ := (Fallible.foldlM_agreeing criticalJob_agreeing).mp hread
  have hpairs' := forall₂_comp (List.Forall₂.flip (R := flip StepsReordered) hmid) hpairs
    fun _ _ _ h hjob => criticalJob_reordered h hjob
  have hmidread : mid.foldlM (criticalJob runAttempt requireSuccess) [] = .ok ([] ++ _) :=
    (Fallible.foldlM_agreeing criticalJob_agreeing).mpr ⟨_, rfl, hpairs', hdistinct, by simp⟩
  obtain ⟨read', hperm', hread'⟩ := Fallible.foldlM_agreeing_perm Ne.symm criticalJob_agreeing hperm.symm hmidread
  have hsort := Contract.insertionSort_eq_of_perm CriticalJob.name hperm' (List.pairwise_map.mpr hdistinct)
  exact ⟨read', hread', by rw [hsort]; rfl⟩

def SameStep (step step' : Json) : Prop := ∀ key ∈ ["number", "name", "conclusion"], step.get key = step'.get key

def SameJob (job job' : Json) : Prop :=
  (∀ key ∈ ["name", "conclusion"], job.get key = job'.get key) ∧
    ∃ steps steps', job.get "steps" = .list steps ∧ job'.get "steps" = .list steps' ∧ Rearranged SameStep steps steps'

lemma sameStep_of_read {step' : Json} (h : criticalStep requireSuccess [] step = .ok [s])
    (h' : criticalStep requireSuccess' [] step' = .ok [s]) : SameStep step step' := by
  obtain ⟨hnumber, hname, hconclusion, -⟩ := step_read h
  obtain ⟨hnumber', hname', hconclusion', -⟩ := step_read h'
  simp [SameStep, *]

lemma sameJob_of_read (h : criticalJob runAttempt requireSuccess [] job = .ok [j])
    (h' : criticalJob runAttempt' requireSuccess' [] job' = .ok [j]) : SameJob job job' := by
  obtain ⟨hname, hconclusion, -, values, steps, hvalues, hsteps, hsort⟩ := job_read h
  obtain ⟨hname', hconclusion', -, values', steps', hvalues', hsteps', hsort'⟩ := job_read h'
  refine ⟨by simp [*], values, values', hvalues, hvalues', ?_⟩
  obtain ⟨_, rfl, hpairs, -⟩ := (Fallible.foldlM_agreeing criticalStep_agreeing).mp hsteps
  obtain ⟨_, rfl, hpairs', -⟩ := (Fallible.foldlM_agreeing criticalStep_agreeing).mp hsteps'
  have hperm : List.Perm _ _ := (List.perm_insertionSort _ _).symm.trans
    ((hsort.symm.trans hsort') ▸ List.perm_insertionSort (fun s t : CriticalStep => s.number ≤ t.number) _)
  exact Rearranged.of_read hpairs hpairs' hperm.symm fun _ _ _ h h' => sameStep_of_read h h'

lemma CriticalStep.json_injective : Function.Injective CriticalStep.json := by
  intro s t h
  cases s
  cases t
  simpa [CriticalStep.json] using h

lemma CriticalJob.json_injective : Function.Injective CriticalJob.json := by
  intro j k h
  cases j
  cases k
  simpa [CriticalJob.json, (List.map_injective_iff.mpr CriticalStep.json_injective).eq_iff] using h

lemma sameJobs_of_projection (h : criticalProjection jobs runAttempt requireSuccess = .ok projection)
    (h' : criticalProjection jobs' runAttempt' requireSuccess' = .ok projection) : Rearranged SameJob jobs jobs' := by
  simp only [criticalProjection, Fallible.bind_eq_ok, Fallible.pure_eq_ok] at h h'
  obtain ⟨read, hread, rfl⟩ := h
  obtain ⟨read', hread', heq⟩ := h'
  obtain ⟨_, rfl, hpairs, -⟩ := (Fallible.foldlM_agreeing criticalJob_agreeing).mp hread
  obtain ⟨_, rfl, hpairs', -⟩ := (Fallible.foldlM_agreeing criticalJob_agreeing).mp hread'
  have hsorted := CriticalJob.json_injective.list_map (by simpa using heq)
  have hperm : List.Perm _ _ := (List.perm_insertionSort _ _).symm.trans
    (hsorted.symm ▸ List.perm_insertionSort (fun j k : CriticalJob => j.name ≤ k.name) _)
  exact Rearranged.of_read hpairs hpairs' hperm.symm fun _ _ _ h h' => sameJob_of_read h h'

end Order

/-- The conclusion of a job and those of all its steps. -/
def Succeeded (job : Json) : Prop :=
  job.get "conclusion" = .str "success" ∧ ∃ steps, job.get "steps" = .list steps ∧
    ∀ step ∈ steps, step.get "conclusion" = .str "success"

lemma succeeded_of_read (h : criticalJob runAttempt true [] job = .ok [j]) : Succeeded job := by
  obtain ⟨-, hconclusion, hsuccess, values, steps, hvalues, hsteps, -⟩ := job_read h
  obtain ⟨_, rfl, hpairs, -⟩ := (Fallible.foldlM_agreeing criticalStep_agreeing).mp hsteps
  refine ⟨hsuccess rfl ▸ hconclusion, values, hvalues, forall_mem_of_forall₂ hpairs fun step s hs => ?_⟩
  obtain ⟨-, -, hconclusion, hsuccess⟩ := step_read hs
  exact hsuccess rfl ▸ hconclusion

theorem critical_jobs_canonical (X : Externals)
    (h : criticalProjection jobs runAttempt requireSuccess = .ok projection) :
    (∀ jobs', Rearranged StepsReordered jobs jobs' →
      criticalProjection jobs' runAttempt requireSuccess = .ok projection ∧
        criticalJobsDigest X jobs' runAttempt requireSuccess = criticalJobsDigest X jobs runAttempt requireSuccess) ∧
      (∀ jobs' runAttempt' requireSuccess',
        criticalProjection jobs' runAttempt' requireSuccess' = .ok projection → Rearranged SameJob jobs jobs') ∧
      (requireSuccess = true → ∀ job ∈ jobs, Succeeded job) := by
  refine ⟨fun jobs' hjobs' => ?_, fun jobs' _ _ h' => sameJobs_of_projection h h', ?_⟩
  · have hprojection := criticalProjection_reordered hjobs' h
    exact ⟨hprojection, by rw [criticalJobsDigest_eq, criticalJobsDigest_eq, h, hprojection]⟩
  · rintro rfl
    simp only [criticalProjection, Fallible.bind_eq_ok, Fallible.pure_eq_ok] at h
    obtain ⟨read, hread, -⟩ := h
    obtain ⟨_, rfl, hpairs, -⟩ := (Fallible.foldlM_agreeing criticalJob_agreeing).mp hread
    exact forall_mem_of_forall₂ hpairs fun _ _ hj => succeeded_of_read hj

namespace Sample

def succeededStep (number : Int) (name : String) : Json :=
  .obj [("number", .int number), ("name", .str name), ("status", .str "completed"), ("conclusion", .str "success")]

def succeededJob (name : String) (steps : List Json) : Json :=
  .obj [("name", .str name), ("run_attempt", .int 1), ("status", .str "completed"), ("conclusion", .str "success"),
    ("steps", .list steps)]

def twoSteps : List Json := [succeededStep 1 "checkout", succeededStep 2 "apply"]

def keptJob (name : String) : CriticalJob :=
  ⟨name, "success", [⟨1, "checkout", "success"⟩, ⟨2, "apply", "success"⟩]⟩

def keptJobs : Json :=
  .obj [("domain", .str "acik.cross-ai-critical-jobs.v1"),
    ("jobs", .list (["apply", "verify"].map fun name => (keptJob name).json))]

end Sample

theorem critical_jobs_canonical_reordered :
    criticalProjection [Sample.succeededJob "apply" Sample.twoSteps, Sample.succeededJob "verify" Sample.twoSteps.reverse]
        1 true = .ok Sample.keptJobs ∧
      Succeeded (Sample.succeededJob "verify" Sample.twoSteps) := by
  have hread : criticalProjection [Sample.succeededJob "verify" Sample.twoSteps,
      Sample.succeededJob "apply" Sample.twoSteps] 1 true = .ok Sample.keptJobs := by rfl
  have hcanonical := critical_jobs_canonical IntentStore.Sample.externals hread
  have hreordered : ∀ name steps', steps'.Perm Sample.twoSteps → StepsReordered (Sample.succeededJob name Sample.twoSteps)
      (Sample.succeededJob name steps') := by
    intro name steps' hperm
    refine ⟨fun key hkey => ?_, Sample.twoSteps, steps', rfl, rfl, hperm⟩
    simp only [Sample.succeededJob, Json.get, List.lookup_cons, List.lookup_nil, beq_eq_false_iff_ne.mpr hkey]
  refine ⟨(hcanonical.1 _ ⟨_, .cons (hreordered _ _ (List.reverse_perm _)) (.cons (hreordered _ _ .rfl) .nil),
    List.Perm.swap _ _ _⟩).1, hcanonical.2.2 rfl _ List.mem_cons_self⟩

end Reconciler

end PlatformGitops.CrossAi
