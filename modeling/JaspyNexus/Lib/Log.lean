import Mathlib

/-! # Logs

A list that only grows at its end. The place of an entry is its time. -/

namespace JaspyNexus.Lib.Log

universe u
variable {α : Type u} {log log' : List α} {a b : α} {i : Nat}

theorem get_concat_iff : (log ++ [a])[i]? = some b ↔ log[i]? = some b ∨ i = log.length ∧ a = b := by
  rw [List.getElem?_append]
  split
  · next h => exact ⟨.inl, fun h' => h'.resolve_right fun ⟨hi, _⟩ => by omega⟩
  · next h =>
    rw [List.getElem?_singleton]
    have hnone : log[i]? = none := List.getElem?_eq_none (by omega)
    have hi : i - log.length = 0 ↔ i = log.length := by omega
    simp [hnone, hi]

theorem lt_length (h : log[i]? = some a) : i < log.length := (List.getElem?_eq_some_iff.mp h).1

/-- What was logged stays. -/
theorem get_later (hpre : log <+: log') (h : log[i]? = some a) : log'[i]? = some a := by
  obtain ⟨rest, rfl⟩ := hpre
  rw [List.getElem?_append_left (lt_length h), h]

/-- And nothing is logged before it later. -/
theorem get_earlier (hpre : log <+: log') (hi : i < log.length) (h : log'[i]? = some a) :
    log[i]? = some a := by
  obtain ⟨rest, rfl⟩ := hpre
  rwa [List.getElem?_append_left hi] at h

/-- What stands after an entry of a log that ends in `a`: nothing, or all up to `a`. -/
theorem concat_eq_append_cons {before after : List α} (h : log ++ [a] = before ++ b :: after) :
    (after = [] ∧ a = b) ∨ ∃ rest, after = rest ++ [a] ∧ log = before ++ b :: rest := by
  rcases List.eq_nil_or_concat after with rfl | ⟨rest, last, rfl⟩
  · obtain ⟨-, hlast⟩ := List.append_inj' h rfl
    exact .inl ⟨rfl, List.singleton_inj.mp hlast⟩
  · rw [List.concat_eq_append, ← List.cons_append, ← List.append_assoc] at h
    obtain ⟨hlog, hlast⟩ := List.append_inj' h rfl
    refine .inr ⟨rest, ?_, hlog⟩
    rw [List.concat_eq_append, hlast]

/-! ## What came since -/

/-- Every entry that is `p` has one that is `q` at its place or after it. -/
def Followed (p q : α → Prop) : List α → Prop
  | [] => True
  | a :: rest => (p a → ∃ b ∈ a :: rest, q b) ∧ Followed p q rest

section
variable {p q : α → Prop}

instance instDecidableFollowed [DecidablePred p] [DecidablePred q] :
    (log : List α) → Decidable (Followed p q log)
  | [] => .isTrue trivial
  | a :: rest =>
    have := instDecidableFollowed rest
    inferInstanceAs (Decidable ((p a → ∃ b ∈ a :: rest, q b) ∧ Followed p q rest))

theorem followed_iff : Followed p q log ↔
    ∀ before a after, log = before ++ a :: after → p a → ∃ b ∈ a :: after, q b := by
  induction log with
  | nil => exact iff_of_true trivial fun before a after h => by simp at h
  | cons c rest ih =>
    refine ⟨fun h before a after heq hp => ?_, fun h => ⟨h [] c rest rfl, ih.mpr fun before a after heq => ?_⟩⟩
    · cases before with
      | nil =>
        obtain ⟨rfl, rfl⟩ := List.cons.inj heq
        exact h.1 hp
      | cons d before => exact ih.mp h.2 before a after (List.cons.inj heq).2 hp
    · exact h (c :: before) a after (by rw [heq, List.cons_append])

/-- **The last `q`**: since then nothing was `p`. -/
theorem Followed.exists_since (h : Followed p q log) (hq : ∃ a ∈ log, q a) :
    ∃ before a after, log = before ++ a :: after ∧ q a ∧ ∀ b ∈ after, ¬p b := by
  induction log with
  | nil => obtain ⟨a, ha, -⟩ := hq; cases ha
  | cons c rest ih =>
    by_cases hrest : ∃ a ∈ rest, q a
    · obtain ⟨before, a, after, rfl, ha, hafter⟩ := ih h.2 hrest
      exact ⟨c :: before, a, after, rfl, ha, hafter⟩
    · have hc : q c := by
        obtain ⟨a, ha, hqa⟩ := hq
        rcases List.mem_cons.mp ha with rfl | ha
        · exact hqa
        · exact absurd ⟨a, ha, hqa⟩ hrest
      refine ⟨[], c, rest, rfl, hc, fun b hb hp => ?_⟩
      obtain ⟨before, after, rfl⟩ := List.append_of_mem hb
      obtain ⟨d, hd, hqd⟩ := followed_iff.mp h.2 before b after rfl hp
      exact hrest ⟨d, List.mem_append_right _ hd, hqd⟩

/-- What came before the last `q` alone may be `p`. -/
theorem followed_of_since {before after : List α} (ha : q a) (hafter : ∀ b ∈ after, ¬p b) :
    Followed p q (before ++ a :: after) := by
  refine followed_iff.mpr fun before' b after' heq hp => ?_
  have hb : b ∈ before' ++ b :: after' := List.mem_append_right _ List.mem_cons_self
  rcases List.append_eq_append_iff.mp heq with ⟨mid, rfl, heq'⟩ | ⟨mid, rfl, heq'⟩
  · cases mid with
    | nil => exact ⟨a, by rw [← List.nil_append (b :: after'), ← heq']; exact List.mem_cons_self, ha⟩
    | cons c mid =>
      obtain ⟨-, rfl⟩ := List.cons.inj heq'
      exact absurd hp (hafter b (List.mem_append_right _ List.mem_cons_self))
  · cases mid with
    | nil => exact ⟨a, by rw [heq']; exact List.mem_cons_self, ha⟩
    | cons c mid =>
      obtain ⟨rfl, rfl⟩ := List.cons.inj heq'
      exact ⟨a, by simp, ha⟩

theorem Followed.or {p' : α → Prop} (h : Followed p q log) (h' : Followed p' q log) :
    Followed (fun a => p a ∨ p' a) q log :=
  followed_iff.mpr fun before a after heq ha =>
    ha.elim (followed_iff.mp h before a after heq) (followed_iff.mp h' before a after heq)

/-- Followed among some of the entries. -/
theorem Followed.of_filter {mine : α → Bool} (h : Followed p q (log.filter mine)) :
    Followed (fun a => mine a = true ∧ p a) (fun a => mine a = true ∧ q a) log := by
  induction log with
  | nil => trivial
  | cons c rest ih =>
    rw [List.filter_cons] at h
    split at h
    · next hc =>
      refine ⟨fun hp => ?_, ih h.2⟩
      obtain ⟨b, hb, hq⟩ := h.1 hp.2
      rcases List.mem_cons.mp hb with rfl | hb
      · exact ⟨b, List.mem_cons_self, hc, hq⟩
      · obtain ⟨hb, hmine⟩ := List.mem_filter.mp hb
        exact ⟨b, List.mem_cons_of_mem _ hb, hmine, hq⟩
    · next hc => exact ⟨fun hp => absurd hp.1 hc, ih h⟩

end

end JaspyNexus.Lib.Log
