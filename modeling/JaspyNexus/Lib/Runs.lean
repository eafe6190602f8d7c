import Mathlib

/-! # Runs of a step function

A run is a list of actions folded over a state. `Allowed` says that every action
of a run meets a condition in the state it is taken in; an invariant that such
actions keep holds in every state of the run (`run_inv`). -/

namespace JaspyNexus.Lib.Runs

universe u v
variable {σ : Type u} {α : Type v}

/-- Every action meets `ok` in the state it is taken in. -/
def Allowed (step : σ → α → σ) (ok : σ → α → Prop) : σ → List α → Prop
  | _, [] => True
  | s, a :: rest => ok s a ∧ Allowed step ok (step s a) rest

variable {step : σ → α → σ} {ok : σ → α → Prop}

theorem Allowed.append {s : σ} {as bs : List α} :
    Allowed step ok s (as ++ bs) ↔ Allowed step ok s as ∧ Allowed step ok (as.foldl step s) bs := by
  induction as generalizing s with
  | nil => simp [Allowed]
  | cons a as ih => simp [Allowed, ih, and_assoc]

/-- A condition on the actions alone. -/
theorem allowed_of_actions {p : α → Prop} {s : σ} {as : List α} :
    Allowed step (fun _ a => p a) s as ↔ ∀ a ∈ as, p a := by
  induction as generalizing s with
  | nil => simp [Allowed]
  | cons a as ih => simp [Allowed, ih]

variable (inv : σ → Prop)

/-- What every allowed step keeps holds at the end of every allowed run. -/
theorem run_inv (hstep : ∀ s a, inv s → ok s a → inv (step s a)) {as : List α} {s : σ}
    (h : inv s) (hok : Allowed step ok s as) : inv (as.foldl step s) := by
  induction as generalizing s with
  | nil => exact h
  | cons a as ih => exact ih (hstep s a h hok.1) hok.2

/-- The same in every state the run passes through. -/
theorem run_inv_throughout (hstep : ∀ s a, inv s → ok s a → inv (step s a)) {as pre : List α} {s : σ}
    (h : inv s) (hok : Allowed step ok s as) (hpre : pre <+: as) : inv (pre.foldl step s) := by
  obtain ⟨post, rfl⟩ := hpre
  exact run_inv inv hstep h (Allowed.append.mp hok).1

/-- What an allowed action meets where the invariant holds, every action of an allowed run meets. -/
theorem Allowed.imp {ok' : σ → α → Prop} (hstep : ∀ s a, inv s → ok s a → inv (step s a))
    (himp : ∀ s a, inv s → ok s a → ok' s a) {as : List α} {s : σ} (h : inv s)
    (hok : Allowed step ok s as) : Allowed step ok' s as := by
  induction as generalizing s with
  | nil => trivial
  | cons a as ih => exact ⟨himp s a h hok.1, ih (hstep s a h hok.1) hok.2⟩

/-- Where a step keeps the invariant exactly when it is allowed, a run is allowed
exactly when the invariant holds throughout. -/
theorem allowed_iff (wf : σ → Prop) (hwf : ∀ s a, wf s → wf (step s a))
    (hstep : ∀ s a, wf s → inv s → (inv (step s a) ↔ ok s a)) {as : List α} {s : σ}
    (hs : wf s) (h : inv s) :
    Allowed step ok s as ↔ ∀ pre, pre <+: as → inv (pre.foldl step s) := by
  constructor
  · intro hok pre hpre
    exact (run_inv_throughout (fun s => wf s ∧ inv s)
      (fun s a hs hok => ⟨hwf s a hs.1, (hstep s a hs.1 hs.2).mpr hok⟩) ⟨hs, h⟩ hok hpre).2
  · intro hall
    induction as generalizing s with
    | nil => trivial
    | cons a as ih =>
      have hnext : inv (step s a) := hall [a] (List.prefix_append [a] as)
      refine ⟨(hstep s a hs h).mp hnext, ih (hwf s a hs) hnext fun pre hpre => ?_⟩
      exact hall (a :: pre) (List.prefix_cons_inj a |>.mpr hpre)

/-- What every step keeps, any run keeps. -/
theorem foldl_inv (hstep : ∀ s a, inv s → inv (step s a)) (as : List α) {s : σ} (h : inv s) :
    inv (as.foldl step s) := by
  induction as generalizing s with
  | nil => exact h
  | cons a as ih => exact ih (hstep s a h)

/-- What every step that goes through keeps, any run that goes through keeps. -/
theorem foldlM_inv {step : σ → α → Option σ} (hstep : ∀ s a s', inv s → step s a = some s' → inv s')
    {as : List α} {s s' : σ} (h : inv s) (hrun : as.foldlM step s = some s') : inv s' := by
  induction as generalizing s with
  | nil =>
    obtain rfl : s = s' := by simpa using hrun
    exact h
  | cons a as ih =>
    rw [List.foldlM_cons] at hrun
    obtain ⟨next, hnext, hrest⟩ := Option.bind_eq_some_iff.mp hrun
    exact ih (hstep s a next h hnext) hrest

end JaspyNexus.Lib.Runs
