import Mathlib

/-! # Paths of a protocol

A protocol is a relation between states, labelled by what is seen of a step. A path reads
a list of labels. What holds between two labels of a path follows from where the path has
to leave a set of states (`Path.exit`). -/

namespace JaspyNexus.Lib

universe u v
variable {σ : Type u} {ι : Type v}

inductive Path (step : σ → ι → σ → Prop) : σ → List ι → σ → Prop
  | nil (s : σ) : Path step s [] s
  | cons {s t u : σ} {a : ι} {as : List ι} : step s a t → Path step t as u → Path step s (a :: as) u

namespace Path
variable {step : σ → ι → σ → Prop} {s t u : σ} {a : ι} {as bs : List ι}

theorem single (h : step s a t) : Path step s [a] t := .cons h (.nil t)

theorem append (h : Path step s as t) (h' : Path step t bs u) : Path step s (as ++ bs) u := by
  induction h with
  | nil => exact h'
  | cons hstep _ ih => exact .cons hstep (ih h')

theorem of_append (h : Path step s (as ++ bs) u) : ∃ t, Path step s as t ∧ Path step t bs u := by
  induction as generalizing s with
  | nil => exact ⟨s, .nil s, h⟩
  | cons a as ih =>
    cases h with
    | cons hstep hrest =>
      obtain ⟨t, hfirst, hlast⟩ := ih hrest
      exact ⟨t, .cons hstep hfirst, hlast⟩

theorem of_cons (h : Path step s (a :: as) u) : ∃ t, step s a t ∧ Path step t as u := by
  cases h with
  | cons hstep hrest => exact ⟨_, hstep, hrest⟩

/-- A path that ends outside of a set it starts in leaves it by some step. -/
theorem exit (p : σ → Prop) (h : Path step s as t) (hs : p s) (ht : ¬p t) :
    ∃ xs a ys m m', as = xs ++ a :: ys ∧ p m ∧ ¬p m' ∧ step m a m' ∧ Path step m' ys t := by
  induction h with
  | nil s => exact absurd hs ht
  | @cons s next t a as hstep hrest ih =>
    by_cases hnext : p next
    · obtain ⟨xs, b, ys, m, m', rfl, hm⟩ := ih hnext ht
      exact ⟨a :: xs, b, ys, m, m', rfl, hm⟩
    · exact ⟨[], a, as, s, next, rfl, hs, hnext, hstep, hrest⟩

end Path
end JaspyNexus.Lib
