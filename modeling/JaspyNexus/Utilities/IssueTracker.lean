import Mathlib
import JaspyNexus.Utilities.Issues

/-! # The issue tracker

`IssueTracker` of `utilities/issues.rs`: since when each issue has been there. A
scan folds its derivation into the tracker (`reconcile`), and forgets an issue that
it lacks once that was last seen longer ago than the grace period. `reconcile_seen`
and `reconcile_tracked` say all of what a scan does. -/

namespace JaspyNexus.Utilities.Issues
open JaspyNexus.Lib

/-- `u64::saturating_sub`. -/
def saturatingSub (a b : UInt64) : UInt64 := if a ≤ b then 0 else a - b

theorem saturatingSub_le (a b : UInt64) : saturatingSub a b ≤ a := by
  unfold saturatingSub
  split
  · exact UInt64.le_iff_toNat_le.mpr (Nat.zero_le _)
  · next h =>
    have hlt : b ≤ a := by
      rw [UInt64.le_iff_toNat_le] at h ⊢
      omega
    rw [UInt64.le_iff_toNat_le, UInt64.toNat_sub_of_le _ _ hlt]
    omega

structure Occurrence where
  firstSeen : UInt64
  lastSeen : UInt64
  deriving DecidableEq

structure IssueTracker where
  seen : PMap String Occurrence
  graceMs : UInt64

structure TrackedIssue where
  issue : DerivedIssue
  firstSeen : UInt64
  lastSeen : UInt64
  deriving DecidableEq

namespace IssueTracker

def new (graceMs : UInt64) : IssueTracker := ⟨PMap.empty, graceMs⟩

/-- One issue of the derivation: its occurrence is there or starts now. -/
def stamp (now : UInt64) (acc : PMap String Occurrence × List TrackedIssue) (issue : DerivedIssue) :
    PMap String Occurrence × List TrackedIssue :=
  let occ := { acc.1.getD issue.issueKey ⟨now, now⟩ with lastSeen := now }
  (acc.1.insert issue.issueKey occ, acc.2 ++ [⟨issue, occ.firstSeen, occ.lastSeen⟩])

/-- `reconcile`: the tracker after a scan, and the issues with their timestamps. -/
def reconcile (t : IssueTracker) (now : UInt64) (derived : List DerivedIssue) :
    IssueTracker × List TrackedIssue :=
  let stamped := derived.foldl (stamp now) (t.seen, [])
  let currentKeys := derived.map DerivedIssue.issueKey
  let cutoff := saturatingSub now t.graceMs
  ({ t with
      seen := fun key => (stamped.1 key).filter fun occ =>
        currentKeys.contains key || decide (cutoff ≤ occ.lastSeen) },
    stamped.2)

/-- `first_seen_of`. -/
def firstSeenOf (t : IssueTracker) (key : String) : Option UInt64 :=
  (t.seen key).map Occurrence.firstSeen

/-- `known_keys`. -/
def knownKeys (t : IssueTracker) (key : String) : Bool := (t.seen key).isSome

/-- `seed`: only a key that is not tracked. -/
def seed (t : IssueTracker) (key : String) (firstSeen now : UInt64) : IssueTracker :=
  match t.seen key with
  | some _ => t
  | none => { t with seen := t.seen.insert key ⟨firstSeen, now⟩ }

/-! ## What a scan does -/

/-- When the key's occurrence started, if it is there at `now`. -/
def onset (t : IssueTracker) (now : UInt64) (key : String) : UInt64 := (t.firstSeenOf key).getD now

variable (t : IssueTracker) (now : UInt64) (derived : List DerivedIssue)

theorem stamped_eq : derived.foldl (stamp now) (t.seen, []) =
    (fun key => if key ∈ derived.map DerivedIssue.issueKey then some ⟨t.onset now key, now⟩
      else t.seen key,
      derived.map fun issue => ⟨issue, t.onset now issue.issueKey, now⟩) := by
  induction derived using List.reverseRecOn with
  | nil => simp
  | append_singleton derived issue ih =>
    -- an earlier issue of the same key has the same onset
    have honset : (PMap.getD (fun key => if key ∈ derived.map DerivedIssue.issueKey then
          some ⟨t.onset now key, now⟩ else t.seen key) issue.issueKey ⟨now, now⟩).firstSeen =
        t.onset now issue.issueKey := by
      by_cases hmem : issue.issueKey ∈ derived.map DerivedIssue.issueKey
      · simp only [PMap.getD, if_pos hmem, Option.getD_some]
      · simp only [PMap.getD, if_neg hmem, onset, firstSeenOf]
        cases t.seen issue.issueKey <;> rfl
    rw [List.foldl_append, ih, List.foldl_cons, List.foldl_nil, stamp]
    simp only [honset, List.map_append, List.map_singleton]
    refine Prod.ext (funext fun key => ?_) rfl
    dsimp only
    rw [PMap.insert_apply]
    by_cases hkey : key = issue.issueKey
    · subst hkey
      simp
    · simp [hkey]

/-- **A scan** makes the derived issues present, and forgets the others that it has not
seen since the cutoff. -/
theorem reconcile_seen (key : String) : (t.reconcile now derived).1.seen key =
    if key ∈ derived.map DerivedIssue.issueKey then some ⟨t.onset now key, now⟩
    else (t.seen key).filter fun occ => saturatingSub now t.graceMs ≤ occ.lastSeen := by
  simp only [reconcile, stamped_eq]
  by_cases hkey : key ∈ derived.map DerivedIssue.issueKey
  · simp only [if_pos hkey, Option.filter_some, List.contains_iff_mem.mpr hkey, Bool.true_or, if_true]
  · have hcontains : (derived.map DerivedIssue.issueKey).contains key = false := by
      rwa [← Bool.not_eq_true, List.contains_iff_mem]
    simp only [if_neg hkey, hcontains, Bool.false_or]

/-- It reports every derived issue with its onset. -/
theorem reconcile_tracked : (t.reconcile now derived).2 =
    derived.map fun issue => ⟨issue, t.onset now issue.issueKey, now⟩ := by
  simp only [reconcile, stamped_eq]

@[simp] theorem reconcile_graceMs : (t.reconcile now derived).1.graceMs = t.graceMs := rfl

@[simp] theorem seed_graceMs (key : String) (firstSeen : UInt64) :
    (t.seed key firstSeen now).graceMs = t.graceMs := by
  unfold seed
  split <;> rfl

theorem seed_seen (key other : String) (firstSeen : UInt64) :
    (t.seed key firstSeen now).seen other =
      if other = key then some ((t.seen key).getD ⟨firstSeen, now⟩) else t.seen other := by
  unfold seed
  split
  · next occ h =>
    by_cases heq : other = key
    · subst heq; simp [h]
    · simp [heq]
  · next h =>
    dsimp only
    rw [PMap.insert_apply, h, Option.getD_none]

end IssueTracker
end JaspyNexus.Utilities.Issues
