import Mathlib

/-! # Fair schedules

A schedule without end gives every turn to someone. What a turn is certain to bring about,
and no other turn takes back, comes about in a schedule that gives that turn again and
again. -/

namespace JaspyNexus.Lib.Fair

universe u v
variable {σ : Type u} {α : Type v}

/-- The state after the first `n` turns. -/
def after (step : σ → α → σ) (s : σ) (schedule : ℕ → α) (n : ℕ) : σ :=
  ((List.range n).map schedule).foldl step s

/-- Turns of a kind come again and again. -/
def Again (schedule : ℕ → α) (turn : α → Prop) : Prop := ∀ n, ∃ m ≥ n, turn (schedule m)

variable {step : σ → α → σ} {s : σ} {schedule : ℕ → α}

theorem after_succ (step : σ → α → σ) (s : σ) (schedule : ℕ → α) (n : ℕ) :
    after step s schedule (n + 1) = step (after step s schedule n) (schedule n) := by
  rw [after, List.range_succ, List.map_append, List.foldl_append]
  rfl

/-- What holds until something happens makes it happen, once a turn comes that brings it
about. -/
theorem leads (held : σ → Prop) (happens : σ → α → Prop) (turn : α → Prop)
    (hkeep : ∀ s a, held s → held (step s a) ∨ happens s a)
    (hturn : ∀ s a, held s → turn a → happens s a) (hagain : Again schedule turn) {n : ℕ}
    (h : held (after step s schedule n)) : ∃ m ≥ n, happens (after step s schedule m) (schedule m) := by
  by_contra hnever
  push Not at hnever
  have hheld : ∀ d, held (after step s schedule (n + d)) := by
    intro d
    induction d with
    | zero => exact h
    | succ d ih =>
      rw [← Nat.add_assoc, after_succ]
      exact (hkeep _ (schedule (n + d)) ih).resolve_right (hnever (n + d) (Nat.le_add_right n d))
  obtain ⟨m, hm, ht⟩ := hagain n
  obtain ⟨d, rfl⟩ := Nat.exists_eq_add_of_le hm
  exact hnever (n + d) hm (hturn _ _ (hheld d) ht)

/-- **A run gets to its end** when a turn either changes nothing or brings it nearer, and
there is one that does until the end. -/
theorem ends (measure : σ → ℕ) (ended : σ → Prop)
    (hnearer : ∀ s a, step s a = s ∨ measure (step s a) < measure s)
    (hopen : ∀ s, ¬ended s → ∃ a, measure (step s a) < measure s)
    (hagain : ∀ a, Again schedule (· = a)) : ∃ n, ended (after step s schedule n) := by
  suffices ∀ size n, measure (after step s schedule n) = size → ∃ m, ended (after step s schedule m) from
    this _ 0 rfl
  intro size
  induction size using Nat.strong_induction_on with
  | _ size ih =>
    intro n hsize
    by_cases hended : ended (after step s schedule n)
    · exact ⟨n, hended⟩
    -- the state stays as it is until a turn brings it nearer
    obtain ⟨a, ha⟩ := hopen _ hended
    have hkeep : ∀ s' b, s' = after step s schedule n → step s' b = after step s schedule n ∨
        measure (step s' b) < measure (after step s schedule n) := fun s' b hs =>
      hs ▸ hnearer s' b
    have hturn : ∀ s' b, s' = after step s schedule n → b = a →
        measure (step s' b) < measure (after step s schedule n) := fun s' b hs hb => by
      rw [hs, hb]
      exact ha
    obtain ⟨m, -, hm⟩ := leads (· = after step s schedule n)
      (fun s' b => measure (step s' b) < measure (after step s schedule n)) (· = a) hkeep hturn (hagain a) rfl
    rw [← after_succ step, hsize] at hm
    exact ih _ hm (m + 1) rfl

end JaspyNexus.Lib.Fair
