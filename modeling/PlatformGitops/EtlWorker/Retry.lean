import PlatformGitops.EtlWorker.Transform
import Mathlib

/-! The classes of errors, and how many rejected rows each mode of a run bears. -/

namespace PlatformGitops.EtlWorker

open Library

inductive RetryClass
  | transient
  | noRetry
  | critical
deriving DecidableEq, Repr

def transientSqlstates : List String :=
  ["40001", "40P01", "08000", "08003", "08006", "08001", "08004", "08007", "57P03", "57014", "55006", "55P03"]

def noRetrySqlstates : List String :=
  ["23502", "23503", "23505", "23514", "22001", "22003", "22007", "22008", "22P02", "22P03", "22P05", "22023", "22025",
    "22026"]

def criticalSqlstates : List String :=
  ["53100", "53200", "53300", "53400", "54000", "54001", "54011", "54023", "42P01", "42703", "42P07", "42501", "28000",
    "28P01", "3D000", "3F000", "58030", "58P01", "58P02", "XX000", "XX001", "XX002"]

def sqlstateOf (e : PgError) : Option String := (e.sqlstate.filter (· ≠ "")).or (e.diagSqlstate.filter (· ≠ ""))

def classifySqlstate (sqlstate : String) : RetryClass :=
  if sqlstate ∈ criticalSqlstates then .critical
  else if sqlstate ∈ transientSqlstates then .transient
  else if sqlstate ∈ noRetrySqlstates then .noRetry
  else
    let cls := String.ofList (sqlstate.toList.take 2)
    if cls ∈ ["08", "57", "55"] then .transient
    else if cls ∈ ["22", "23"] then .noRetry
    else if cls ∈ ["53", "54", "58", "XX", "3D", "3F", "28", "42"] then .critical
    else .noRetry

def contains (s part : String) : Bool := decide (part.toList <:+: s.toList)

def classifyError (e : PgError) : RetryClass :=
  match sqlstateOf e with
  | some sqlstate => classifySqlstate sqlstate
  | none =>
    match e.kind with
    | .operational => .transient
    | .integrity => .noRetry
    | .data => .noRetry
    | .programming => .critical
    | .internal => .critical
    | .other =>
      let name := lower e.typeName
      if contains name "timeout" || contains name "connection" then .transient else .noRetry

def cliToDbMode : List (String × String) :=
  [("initial", "initial"), ("final-delta", "final_delta"), ("final_delta", "final_delta"),
    ("reconcile-only", "reconcile_only"), ("reconcile_only", "reconcile_only"), ("dry-run", "dry_run"),
    ("dry_run", "dry_run")]

/-- The mode as the database spells it. -/
def normalizeMode (mode : String) : Except PyError String :=
  Fallible.expect (cliToDbMode.lookup mode) (.other ("unknown mode '" ++ mode ++ "'; expected one of ['dry-run', " ++
    "'dry_run', 'final-delta', 'final_delta', 'initial', 'reconcile-only', 'reconcile_only']"))

/-- The spelling of the database is a fixed point. -/
lemma normalizeMode_idem {mode db : String} (h : normalizeMode mode = .ok db) : normalizeMode db = .ok db := by
  have hall : ∀ p ∈ cliToDbMode, cliToDbMode.lookup p.2 = some p.2 := by decide
  rw [normalizeMode, Fallible.expect_eq_ok] at h ⊢
  obtain ⟨before, after, hsplit, -⟩ := List.lookup_eq_some_iff.mp h
  exact hall (mode, db) (hsplit ▸ by simp)

/-- A float: a finite one is a rational number. -/
inductive PyFloat
  | finite (q : ℚ)
  | infinity (negative : Bool)
  | nan
deriving DecidableEq

/-- The float nearest to a quotient of two counts, and of two that are equally near the even one. -/
def quotient (a b : Nat) : ℚ :=
  if a = 0 then 0
  else
    let guess : Int := a.log2 - b.log2
    let exponent := if a * 2 ^ (-guess).toNat < b * 2 ^ guess.toNat then guess - 1 else guess
    let shift := 52 - exponent
    let n := a * 2 ^ shift.toNat
    let d := b * 2 ^ (-shift).toNat
    let floor := n / d
    let near := if d < 2 * (n % d) ∨ d = 2 * (n % d) ∧ floor % 2 = 1 then floor + 1 else floor
    (near : ℚ) * 2 ^ (-shift).toNat / 2 ^ shift.toNat

def exceeds (q : ℚ) : PyFloat → Bool
  | .finite bound => decide (bound < q)
  | .infinity negative => negative
  | .nan => false

structure ThresholdPolicy where
  mode : String
  maxRejectRatio : PyFloat

def ThresholdPolicy.shouldAbort (policy : ThresholdPolicy) (rejected processed : Nat) : Except PyError Bool := do
  let dbMode ← normalizeMode policy.mode
  if dbMode = "dry_run" then pure false
  -- not one row may be missing after the last delta, whatever the ratio
  else if dbMode = "final_delta" then pure (decide (0 < rejected))
  else if processed = 0 then pure false
  else pure (exceeds (quotient rejected processed) policy.maxRejectRatio)

example : (quotient 3 10, quotient 1 3) = (5404319552844595 / 18014398509481984, 6004799503160661 / 18014398509481984) := by
  decide +kernel

lemma shouldAbort_final {policy : ThresholdPolicy} (h : normalizeMode policy.mode = .ok "final_delta")
    {rejected processed : Nat} : policy.shouldAbort rejected processed = .ok (decide (0 < rejected)) := by
  rw [ThresholdPolicy.shouldAbort, h]
  rfl

lemma shouldAbort_dryRun {policy : ThresholdPolicy} (h : normalizeMode policy.mode = .ok "dry_run")
    {rejected processed : Nat} : policy.shouldAbort rejected processed = .ok false := by
  rw [ThresholdPolicy.shouldAbort, h]
  rfl

end PlatformGitops.EtlWorker
