import PlatformGitops.Coordination.Replay
import PlatformGitops.Library.Dict
import PlatformGitops.Library.SlidingWindow
import Mathlib.Algebra.Order.Ring.Rat
import Mathlib.Data.List.Dedup
import Mathlib.Data.List.Sort
import Mathlib.Data.String.Basic
import Mathlib.Tactic.Linarith

/-! Paging the operators of a group of alerts: text messages are capped for each hour. -/

namespace PlatformGitops.AlertBridge

open Library
open Coordination (strip)
open Library.SlidingWindow (within recent expire Tracks Spaced)

structure Alert where
  labels : Dict String String

def Alert.label (name default : String) (a : Alert) : String := (a.labels.get? name).getD default

structure Payload where
  alerts : List Alert
  status : Option String

/-- The variables of the process, with the reader of whole numbers. -/
structure Environment where
  environ : Dict String String
  readInt : String → Option Int

section Configuration

variable (env : Environment)

def Environment.get (name default : String) : String := (env.environ.get? name).getD default

def envList (name default : String) : List String :=
  ((((env.get name default).toList.splitOn ',').map strip).filter (· ≠ [])).map String.ofList

structure Channels where
  sms : Bool
  email : Bool

def allSet (names : List String) : Bool := names.all fun name => env.get name "" ≠ ""

def notifyChannelsConfigured : Channels where
  sms := allSet env ["JETSMS_USERNAME", "JETSMS_PASSWORD", "JETSMS_ORIGINATOR"] ∧ envList env "ALERT_SMS_TO" "" ≠ []
  email := allSet env ["GRAPH_TENANT_ID", "GRAPH_CLIENT_ID", "GRAPH_CLIENT_SECRET"] ∧
    envList env "ALERT_EMAIL_TO" "" ≠ [] ∧ env.get "GRAPH_SENDER_MAILBOX" "" ≠ ""

def smsCap : Option Int := env.readInt (env.get "ALERT_SMS_MAX_PER_HOUR" "12")

/-- The cap as a number of groups. -/
def smsMaxPerHour : Nat := (smsCap env).elim 0 Int.toNat

end Configuration

section Texts

def severityRank : Dict String Nat := [("critical", 3), ("warning", 2), ("info", 1)]

def rank (severity : String) : Nat := (severityRank.get? severity).getD 0

def groupSeverity (alerts : List Alert) : String :=
  alerts.foldl (fun best a =>
    let severity := (a.label "severity" "warning").toLower
    if rank best < rank severity then severity else best) "info"

def trAscii : Dict Char Char :=
  [('ç', 'c'), ('ğ', 'g'), ('ı', 'i'), ('ö', 'o'), ('ş', 's'), ('ü', 'u'),
    ('Ç', 'C'), ('Ğ', 'G'), ('İ', 'I'), ('Ö', 'O'), ('Ş', 'S'), ('Ü', 'U')]

def asciiChar (c : Char) : Char :=
  let c := (trAscii.get? c).getD c
  if c.toNat < 128 then c else '?'

def smsHead (status severity : String) : String :=
  if status = "resolved" then "COZULDU"
  else if severity = "critical" then "KRITIK" else if severity = "warning" then "UYARI" else "BILGI"

/-- Each name once, where it came first. -/
def firstSeen (names : List String) : List String :=
  names.foldl (fun seen name => if name ∈ seen then seen else seen ++ [name]) []

def clusters (alerts : List Alert) : List String :=
  ((alerts.map (·.label "cluster" "")).dedup.filter (· ≠ "")).insertionSort (· ≤ ·)

def truncated (text : List Char) : List Char := if text.length ≤ 160 then text else text.take 157 ++ ['.', '.', '.']

def buildSmsText (status : String) (alerts : List Alert) (severity : String) : String :=
  let names := firstSeen (alerts.map (·.label "alertname" "?"))
  let platform := String.intercalate "/" (clusters alerts)
  let text := "[" ++ smsHead status severity ++ "] " ++ (if platform = "" then "platform" else platform) ++ " " ++
    toString alerts.length ++ " alarm: " ++ String.intercalate ", " names
  String.ofList (truncated (text.toList.map asciiChar))

end Texts

section Calls

/-- A group that is notified, the time it reads, and what the two senders answer. -/
structure Call where
  payload : Payload
  now : ℚ
  sendSms : String → String → Bool
  sendEmail : List String → Bool

structure PagerState where
  smsSentAt : List ℚ
  notifySent : Dict String Nat
  notifyFail : Dict String Nat
  smsRatelimited : Nat

def PagerState.initial : PagerState := ⟨[], [], [], 0⟩

structure SentCounts where
  sms : Nat
  email : Nat

def notifyInc (bucket : Dict String Nat) (channel : String) : Dict String Nat :=
  bucket.set channel ((bucket.get? channel).getD 0 + 1)

def PagerState.count (s : PagerState) (channel : String) (sent : Bool) : PagerState :=
  if sent then { s with notifySent := notifyInc s.notifySent channel }
  else { s with notifyFail := notifyInc s.notifyFail channel }

def hour : ℚ := 3600

inductive SmsDecision where
  | noPage
  | send
  | rateLimited
deriving DecidableEq

variable (env : Environment)

def realAlerts (payload : Payload) : List Alert := payload.alerts.filter fun a => a.label "is_synthetic" "" ≠ "true"

def crisisAlerts (payload : Payload) : List Alert := (realAlerts payload).filter fun a => a.label "page" "" = "sms"

/-- A page is only thought of for a crisis; `none` where the cap is not a number. -/
def smsDecision (s : PagerState) (call : Call) : Option SmsDecision :=
  if (notifyChannelsConfigured env).sms ∧ crisisAlerts call.payload ≠ [] then
    (smsCap env).map fun cap =>
      if ((expire hour call.now s.smsSentAt).length : Int) < cap then .send else .rateLimited
  else some .noPage

def sendAll (call : Call) (text : String) (s : PagerState) : PagerState × Nat :=
  (envList env "ALERT_SMS_TO" "").foldl (fun acc phone =>
    let sent := call.sendSms phone text
    (acc.1.count "sms" sent, if sent then acc.2 + 1 else acc.2)) (s, 0)

def notifySms (s : PagerState) (call : Call) : Option (PagerState × Nat) :=
  (smsDecision env s call).map fun decision =>
    match decision with
    | .noPage => (s, 0)
    | .send =>
      let status := call.payload.status.getD "firing"
      let sent := sendAll env call (buildSmsText status (crisisAlerts call.payload) "critical")
        { s with smsSentAt := expire hour call.now s.smsSentAt }
      ({ sent.1 with smsSentAt := sent.1.smsSentAt ++ [call.now] }, sent.2)
    | .rateLimited =>
      ({ s with smsSentAt := expire hour call.now s.smsSentAt, smsRatelimited := s.smsRatelimited + 1 }, 0)

def notifyEmail (s : PagerState) (call : Call) : PagerState × Nat :=
  if (notifyChannelsConfigured env).email ∧
      groupSeverity (realAlerts call.payload) ∈ envList env "ALERT_EMAIL_SEVERITIES" "critical" then
    let sent := call.sendEmail (envList env "ALERT_EMAIL_TO" "")
    (s.count "email" sent, if sent then 1 else 0)
  else (s, 0)

/-- `none` where the cap cannot be read, which is before anything has changed. -/
def notifyGroup (s : PagerState) (call : Call) : Option (PagerState × SentCounts) :=
  if realAlerts call.payload = [] then some (s, ⟨0, 0⟩)
  else do
    let (s, sms) ← notifySms env s call
    let (s, email) := notifyEmail env s call
    pure (s, ⟨sms, email⟩)

def afterCall (s : PagerState) (call : Call) : PagerState := (notifyGroup env s call).elim s Prod.fst

def afterCalls (calls : List Call) : PagerState := calls.foldl (afterCall env) .initial

/-- The time at which the call goes through the recipients of a text message, where it does. -/
def smsTime (s : PagerState) (call : Call) : List ℚ := if smsDecision env s call = some .send then [call.now] else []

/-- The times at which a run's groups send their text messages. -/
def smsTimes (calls : List Call) : List ℚ :=
  (calls.foldl (fun run call => (afterCall env run.1 call, run.2 ++ smsTime env run.1 call)) (PagerState.initial, [])).2

end Calls

section Cap

variable {env : Environment} {s : PagerState} {call : Call} {calls : List Call} {now later : ℚ} {log : List ℚ}

lemma count_smsSentAt (s : PagerState) (channel : String) (sent : Bool) : (s.count channel sent).smsSentAt = s.smsSentAt := by
  cases sent <;> rfl

lemma sendAll_smsSentAt (text : String) (s : PagerState) : (sendAll env call text s).1.smsSentAt = s.smsSentAt := by
  have hfold : ∀ (phones : List String) (acc : PagerState × Nat),
      (phones.foldl (fun acc phone =>
        let sent := call.sendSms phone text
        (acc.1.count "sms" sent, if sent then acc.2 + 1 else acc.2)) acc).1.smsSentAt = acc.1.smsSentAt := by
    intro phones
    induction phones with
    | nil => exact fun acc => rfl
    | cons phone phones ih =>
      intro acc
      rw [List.foldl_cons, ih]
      exact count_smsSentAt _ _ _
  exact hfold _ _

lemma notifyEmail_smsSentAt (s : PagerState) : (notifyEmail env s call).1.smsSentAt = s.smsSentAt := by
  unfold notifyEmail
  split
  · exact count_smsSentAt _ _ _
  · rfl

lemma crisisAlerts_of_none (h : realAlerts call.payload = []) : crisisAlerts call.payload = [] := by
  rw [crisisAlerts, h, List.filter_nil]

/-- What a call makes of the times that are kept. -/
lemma afterCall_smsSentAt (env : Environment) (s : PagerState) (call : Call) :
    (afterCall env s call).smsSentAt =
      match smsDecision env s call with
      | some .send => expire hour call.now s.smsSentAt ++ [call.now]
      | some .rateLimited => expire hour call.now s.smsSentAt
      | _ => s.smsSentAt := by
  rw [afterCall, notifyGroup]
  split_ifs with hnone
  · have hdecision : smsDecision env s call = some .noPage := by
      rw [smsDecision, if_neg]
      exact fun h => h.2 (crisisAlerts_of_none hnone)
    rw [hdecision]
    rfl
  · rw [notifySms]
    cases hdecision : smsDecision env s call with
    | none => rfl
    | some decision =>
      cases decision with
      | noPage => exact notifyEmail_smsSentAt s
      | send =>
        refine (notifyEmail_smsSentAt _).trans ?_
        exact congrArg (· ++ [call.now]) (sendAll_smsSentAt _ _)
      | rateLimited => exact notifyEmail_smsSentAt _

/-- The kept times against all the times of a run that has come to some moment. -/
structure Paced (env : Environment) (now : ℚ) (s : PagerState) (log : List ℚ) : Prop where
  tracks : Tracks hour now log s.smsSentAt
  sorted : log.Pairwise (· ≤ ·)
  past : ∀ t ∈ log, t ≤ now
  spaced : Spaced hour (smsMaxPerHour env) log
  capped : s.smsSentAt.length ≤ smsMaxPerHour env

lemma paced_initial : Paced env now .initial [] :=
  ⟨⟨[], rfl, by simp⟩, .nil, by simp, SlidingWindow.spaced_nil, Nat.zero_le _⟩

lemma Paced.mono (h : Paced env now s log) (hle : now ≤ later) : Paced env later s log :=
  ⟨h.tracks.mono hle, h.sorted, fun t ht => (h.past t ht).trans hle, h.spaced, h.capped⟩

lemma smsDecision_send (h : smsDecision env s call = some .send) :
    (expire hour call.now s.smsSentAt).length < smsMaxPerHour env := by
  unfold smsDecision at h
  split at h
  · rw [smsMaxPerHour]
    cases hcap : smsCap env with
    | none =>
      rw [hcap] at h
      cases h
    | some cap =>
      rw [hcap, Option.map_some, Option.some.injEq] at h
      split at h
      · rename_i hlt
        simp only [Option.elim]
        omega
      · cases h
  · cases h

lemma smsDecision_rateLimited (h : smsDecision env s call = some .rateLimited) :
    smsMaxPerHour env ≤ (expire hour call.now s.smsSentAt).length := by
  unfold smsDecision at h
  split at h
  · rw [smsMaxPerHour]
    cases hcap : smsCap env with
    | none =>
      rw [hcap] at h
      cases h
    | some cap =>
      rw [hcap, Option.map_some, Option.some.injEq] at h
      split at h
      · cases h
      · rename_i hlt
        simp only [Option.elim]
        omega
  · cases h

lemma Paced.expire_eq (h : Paced env now s log) (hle : now ≤ call.now) :
    expire hour call.now s.smsSentAt = recent hour call.now log :=
  (h.tracks.mono hle).expire_eq h.sorted

lemma Paced.step (h : Paced env now s log) (hle : now ≤ call.now) :
    Paced env call.now (afterCall env s call) (log ++ smsTime env s call) := by
  have hlater := h.mono hle
  have hexpired : (expire hour call.now s.smsSentAt).length ≤ smsMaxPerHour env :=
    (List.dropWhile_sublist _).length_le.trans h.capped
  have hkept := afterCall_smsSentAt env s call
  unfold smsTime
  cases hdecision : smsDecision env s call with
  | none =>
    rw [hdecision] at hkept
    rw [if_neg (by simp), List.append_nil]
    exact ⟨hkept ▸ hlater.tracks, hlater.sorted, hlater.past, hlater.spaced, hkept ▸ hlater.capped⟩
  | some decision =>
    rw [hdecision] at hkept
    cases decision with
    | noPage =>
      rw [if_neg (by simp), List.append_nil]
      exact ⟨hkept ▸ hlater.tracks, hlater.sorted, hlater.past, hlater.spaced, hkept ▸ hlater.capped⟩
    | rateLimited =>
      rw [if_neg (by simp), List.append_nil]
      exact ⟨hkept ▸ hlater.tracks.expire, hlater.sorted, hlater.past, hlater.spaced, hkept ▸ hexpired⟩
    | send =>
      have hfew := smsDecision_send hdecision
      rw [if_pos rfl]
      refine ⟨hkept ▸ hlater.tracks.expire.concat, ?_, ?_, ?_, ?_⟩
      · refine List.pairwise_append.mpr ⟨hlater.sorted, List.pairwise_singleton _ _, fun t ht u hu => ?_⟩
        exact List.mem_singleton.mp hu ▸ hlater.past t ht
      · intro t ht
        rcases List.mem_append.mp ht with ht | ht
        · exact hlater.past t ht
        · exact (List.mem_singleton.mp ht).le
      · exact hlater.spaced.concat (h.expire_eq hle ▸ hfew)
      · rw [hkept, List.length_append, List.length_singleton]
        omega

lemma foldl_run (calls : List Call) (run : PagerState × List ℚ) :
    (calls.foldl (fun run call => (afterCall env run.1 call, run.2 ++ smsTime env run.1 call)) run).1 =
      calls.foldl (afterCall env) run.1 := by
  induction calls generalizing run with
  | nil => rfl
  | cons call calls ih => rw [List.foldl_cons, List.foldl_cons, ih]

lemma smsTimes_concat (calls : List Call) (call : Call) :
    smsTimes env (calls ++ [call]) = smsTimes env calls ++ smsTime env (afterCalls env calls) call := by
  rw [smsTimes, List.foldl_append, List.foldl_cons, List.foldl_nil, foldl_run]
  rfl

lemma afterCalls_concat (calls : List Call) (call : Call) :
    afterCalls env (calls ++ [call]) = afterCall env (afterCalls env calls) call := by
  rw [afterCalls, List.foldl_append]
  rfl

/-- Every run whose clock does not go back is paced. -/
lemma paced_run (hclock : calls.Pairwise (·.now ≤ ·.now)) (hpast : ∀ c ∈ calls, c.now ≤ now) :
    Paced env now (afterCalls env calls) (smsTimes env calls) := by
  induction calls using List.reverseRecOn generalizing now with
  | nil => exact paced_initial
  | append_singleton calls call ih =>
    obtain ⟨hbefore, -, hlast⟩ := List.pairwise_append.mp hclock
    have hstart := ih hbefore fun c hc => hlast c hc call (by simp)
    rw [smsTimes_concat, afterCalls_concat]
    exact (hstart.step le_rfl).mono (hpast call (by simp))

lemma exists_last (calls : List Call) : ∃ last, ∀ c ∈ calls, c.now ≤ last := by
  induction calls with
  | nil => exact ⟨0, by simp⟩
  | cons call calls ih =>
    obtain ⟨last, hlast⟩ := ih
    refine ⟨max call.now last, List.forall_mem_cons.mpr ⟨le_max_left _ _, fun c hc => ?_⟩⟩
    exact (hlast c hc).trans (le_max_right _ _)

lemma Paced.recent_eq (h : Paced env now s log) : recent hour now log = within (now - hour) hour log := by
  refine List.filter_congr fun t ht => ?_
  have hpast := h.past t ht
  rw [decide_eq_decide, sub_add_cancel]
  constructor
  · intro hrecent
    exact ⟨by linarith, hpast⟩
  · rintro ⟨hafter, -⟩
    linarith

/-- Never more groups than the cap send text messages within an hour, and one is held back only where that many did. -/
theorem sms_cap_slides (env : Environment) (calls : List Call) (hclock : calls.Pairwise (·.now ≤ ·.now)) :
    (∀ a, (within a hour (smsTimes env calls)).length ≤ smsMaxPerHour env) ∧
      (afterCalls env calls).smsSentAt.length ≤ smsMaxPerHour env ∧
      ∀ before call after, calls = before ++ call :: after →
        smsDecision env (afterCalls env before) call = some .rateLimited →
          smsMaxPerHour env ≤ (within (call.now - hour) hour (smsTimes env before)).length := by
  obtain ⟨last, hlast⟩ : ∃ last, ∀ c ∈ calls, c.now ≤ last := exists_last calls
  have hrun : Paced env last (afterCalls env calls) (smsTimes env calls) := paced_run hclock hlast
  refine ⟨fun a => hrun.spaced.within_le hrun.sorted a, hrun.capped, ?_⟩
  rintro before call after rfl hlimited
  obtain ⟨hbefore, -, hcross⟩ := List.pairwise_append.mp hclock
  have hstart : Paced env call.now (afterCalls env before) (smsTimes env before) :=
    paced_run hbefore fun c hc => hcross c hc call List.mem_cons_self
  have hmany := smsDecision_rateLimited hlimited
  rw [hstart.expire_eq le_rfl] at hmany
  rwa [hstart.recent_eq] at hmany

def pagedEnvironment : Environment where
  environ := [("JETSMS_USERNAME", "user"), ("JETSMS_PASSWORD", "secret"), ("JETSMS_ORIGINATOR", "PLATFORM"),
    ("ALERT_SMS_TO", "+905550000000"), ("ALERT_SMS_MAX_PER_HOUR", "1")]
  readInt := String.toInt?

def crisisCall (now : ℚ) : Call where
  payload := ⟨[⟨[("alertname", "ClusterDown"), ("severity", "critical"), ("page", "sms")]⟩], none⟩
  now := now
  sendSms := fun _ _ => true
  sendEmail := fun _ => true

/-- Two crises a minute apart. -/
theorem sms_cap_slides_minute :
    let calls := [crisisCall 0, crisisCall 60]
    calls.Pairwise (·.now ≤ ·.now) ∧
      (∀ a, (within a hour (smsTimes pagedEnvironment calls)).length ≤ smsMaxPerHour pagedEnvironment) ∧
        (afterCalls pagedEnvironment calls).smsSentAt.length ≤ smsMaxPerHour pagedEnvironment ∧
        ∀ before call after, calls = before ++ call :: after →
          smsDecision pagedEnvironment (afterCalls pagedEnvironment before) call = some .rateLimited →
            smsMaxPerHour pagedEnvironment ≤
              (within (call.now - hour) hour (smsTimes pagedEnvironment before)).length := by
  have hclock : [crisisCall 0, crisisCall 60].Pairwise (·.now ≤ ·.now) := by simp [crisisCall]
  exact ⟨hclock, sms_cap_slides pagedEnvironment _ hclock⟩

end Cap

end PlatformGitops.AlertBridge
