import Mathlib
import JaspyNexus.Lib.Log
import JaspyNexus.Routes.Issues

/-! # What the steps on the issues log

Every step logs one event, and the events tell how the tracker changed. -/

namespace JaspyNexus.Routes.Issues
open JaspyNexus.Lib JaspyNexus.Models JaspyNexus.Utilities.Issues

/-- The event that a step logs. -/
def IssueCall.event : {β : Type} → IssueCall β → Answer → IssueStore → Event
  | _, .reconcile now derived, _, s => .tracker (s.tracker.reconcile now derived).1.knownKeys
  | _, .reconcileFirstSeenOf now derived _, _, s =>
    .tracker (s.tracker.reconcile now derived).1.knownKeys
  | _, .freshIssues, e, s => (s.freshIssues e.time).elim .other fun cached => .hit cached.source
  | _, .invalidateIssuesCache config changedAt, _, _ => .invalidated config changedAt
  | _, .upsertAck ack boundAt, e, _ => if e.writeError.isSome then .other else .acked ack boundAt
  | _, .deleteAck key deleter, e, _ => if e.writeError.isSome then .other else deleter.event key
  | _, .answerChange config changedAt, _, _ => .answered config changedAt
  | _, .answerRead source startedAt, _, _ => .derived source startedAt
  | _, _, _, _ => .other

variable {β : Type} (c : IssueCall β) (e : Answer) (s : IssueStore)

theorem exec_log : (IssueCall.exec β c e s).1.log = s.log ++ [c.event e s] := by
  cases c <;> simp only [IssueCall.exec, IssueCall.event] <;>
    first
    | rfl
    | (split <;> simp_all [IssueStore.logged])

theorem exec_later : s.log <+: (IssueCall.exec β c e s).1.log := ⟨_, (exec_log c e s).symm⟩

theorem event_freshIssues : IssueCall.freshIssues.event e s = .other ∨
    ∃ cached, s.freshIssues e.time = some cached ∧ IssueCall.freshIssues.event e s = .hit cached.source := by
  simp only [IssueCall.event]
  cases s.freshIssues e.time with
  | none => exact .inl rfl
  | some cached => exact .inr ⟨cached, rfl, rfl⟩

theorem event_upsertAck (ack : IssueAck) (boundAt : Nat) :
    (IssueCall.upsertAck ack boundAt).event e s = .other ∨
    (IssueCall.upsertAck ack boundAt).event e s = .acked ack boundAt := by
  simp only [IssueCall.event]
  cases e.writeError with
  | none => exact .inr rfl
  | some error => exact .inl rfl

theorem event_deleteAck (key : String) (deleter : Deleter) :
    (IssueCall.deleteAck key deleter).event e s = .other ∨
    (IssueCall.deleteAck key deleter).event e s = deleter.event key := by
  simp only [IssueCall.event]
  cases e.writeError with
  | none => exact .inr rfl
  | some error => exact .inl rfl

theorem later_refl (s : IssueStore) : s.log <+: s.log := List.prefix_rfl

theorem later_trans {s t u : IssueStore} (h : s.log <+: t.log) (h' : t.log <+: u.log) : s.log <+: u.log :=
  h.trans h'

/-- An event about the tracker tells what it knows, and no other changes it. -/
theorem exec_tracker : c.event e s = .tracker (IssueCall.exec β c e s).1.tracker.knownKeys ∨
    (IssueCall.exec β c e s).1.tracker = s.tracker ∧ ∀ known, c.event e s ≠ .tracker known := by
  cases c with
  | reconcile now derived => exact .inl rfl
  | reconcileFirstSeenOf now derived key => exact .inl rfl
  | freshIssues =>
    refine .inr ⟨rfl, fun known => ?_⟩
    rcases event_freshIssues e s with hother | ⟨cached, -, hhit⟩
    · simp [hother]
    · simp [hhit]
  | upsertAck ack boundAt =>
    refine .inr ⟨?_, fun known => ?_⟩
    · simp only [IssueCall.exec]
      cases e.writeError <;> rfl
    · rcases event_upsertAck e s ack boundAt with hevent | hevent <;> simp [hevent]
  | deleteAck key deleter =>
    refine .inr ⟨?_, fun known => ?_⟩
    · simp only [IssueCall.exec]
      cases e.writeError <;> rfl
    · rcases event_deleteAck e s key deleter with hevent | hevent
      · simp [hevent]
      · cases deleter <;> simp [hevent, Deleter.event]
  | setSuppressed | upsertExpectedRoot | deleteExpectedRoot =>
    refine .inr ⟨?_, fun known hevent => by cases hevent⟩
    simp only [IssueCall.exec]
    cases e.writeError <;> rfl
  | _ => exact .inr ⟨rfl, fun known hevent => by cases hevent⟩

end JaspyNexus.Routes.Issues
