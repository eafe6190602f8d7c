import Mathlib

/-! # Threads that start threads, joined until none is left

A thread marks a key as taken, spawns the thread for it and then pushes the handle on
a shared list. The main thread starts the first one so, and then drains the list and
joins what it drained, until it drains nothing. That a drained list is empty says that
no thread runs: a thread whose handle is not pushed yet was started by one that runs,
and the first was pushed before the first drain. -/

namespace JaspyNexus.Lib.ForkJoin

universe u
variable {κ : Type u}

/-- Threads are numbered as they are spawned; `none` is the main thread. -/
@[ext]
structure State (κ : Type u) where
  marked : Finset κ
  /-- the keys of the threads -/
  threads : List κ
  ended : Finset Nat
  /-- the key that a thread has marked and is about to spawn the thread of -/
  spawning : Option Nat → Option κ
  /-- the handle that a thread has not pushed yet -/
  holding : Option Nat → Option Nat
  handles : List Nat
  /-- what the main thread has drained and not joined yet -/
  joining : List Nat
  exited : Bool

namespace State

def start : State κ where
  marked := ∅
  threads := []
  ended := ∅
  spawning _ := none
  holding _ := none
  handles := []
  joining := []
  exited := false

/-- The thread runs. -/
def Live (s : State κ) (t : Option Nat) : Prop :=
  (t = none → s.exited = false) ∧ ∀ i, t = some i → i < s.threads.length ∧ i ∉ s.ended

/-- The thread is not in the middle of starting another. -/
def Idle (s : State κ) (t : Option Nat) : Prop := s.spawning t = none ∧ s.holding t = none

end State

/-- **What holds in any interleaving.** -/
structure Inv (s : State κ) : Prop where
  once : s.threads.Nodup
  thread_marked : ∀ k ∈ s.threads, k ∈ s.marked
  spawning_marked : ∀ t k, s.spawning t = some k → k ∈ s.marked ∧ k ∉ s.threads
  spawning_once : ∀ t t' k, s.spawning t = some k → s.spawning t' = some k → t = t'
  marked_started : ∀ k ∈ s.marked, k ∈ s.threads ∨ ∃ t, s.spawning t = some k
  /-- who is starting a thread runs, and holds no handle before it is spawned -/
  spawning_live : ∀ t k, s.spawning t = some k → s.Live t ∧ s.holding t = none
  holding_live : ∀ t h, s.holding t = some h → s.Live t
  /-- a thread is started by an earlier one -/
  holding_later : ∀ i h, s.holding (some i) = some h → i < h
  reached : ∀ i < s.threads.length,
    i ∈ s.ended ∨ i ∈ s.handles ∨ i ∈ s.joining ∨ ∃ t, s.holding t = some i
  exited_ended : s.exited = true → ∀ i < s.threads.length, i ∈ s.ended

theorem Inv.start : Inv (State.start : State κ) where
  once := List.nodup_nil
  thread_marked := nofun
  spawning_marked := nofun
  spawning_once := nofun
  marked_started := nofun
  spawning_live := nofun
  holding_live := nofun
  holding_later := nofun
  reached := nofun
  exited_ended := nofun

/-- Nothing is left to join: every thread has returned. -/
theorem Inv.all_ended {s : State κ} (h : Inv s) (hidle : s.Idle none) (hjoined : s.joining = [])
    (hnone : s.handles = []) (i : Nat) (hi : i < s.threads.length) : i ∈ s.ended := by
  induction i using Nat.strong_induction_on with
  | _ i ih =>
    rcases h.reached i hi with hended | hhandle | hjoining | ⟨t, ht⟩
    · exact hended
    · rw [hnone] at hhandle
      cases hhandle
    · rw [hjoined] at hjoining
      cases hjoining
    · cases t with
      | none =>
        rw [hidle.2] at ht
        cases ht
      | some j =>
        -- its starter runs, although it has returned
        have hlive := h.holding_live _ _ ht
        exact absurd (ih j (h.holding_later j i ht) (hlive.2 j rfl).1) (hlive.2 j rfl).2

/-- What a thread may do. -/
inductive Step [DecidableEq κ] : State κ → State κ → Prop where
  | mark {s : State κ} {t : Option Nat} {k : κ} (hlive : s.Live t) (hidle : s.Idle t)
      (hk : k ∉ s.marked) :
      Step s { s with marked := insert k s.marked, spawning := Function.update s.spawning t (some k) }
  | spawn {s : State κ} {t : Option Nat} {k : κ} (hk : s.spawning t = some k) :
      Step s { s with
        threads := s.threads ++ [k]
        spawning := Function.update s.spawning t none
        holding := Function.update s.holding t (some s.threads.length) }
  | push {s : State κ} {t : Option Nat} {h : Nat} (hh : s.holding t = some h) :
      Step s { s with handles := s.handles ++ [h], holding := Function.update s.holding t none }
  | finish {s : State κ} {i : Nat} (hlive : s.Live (some i)) (hidle : s.Idle (some i)) :
      Step s { s with ended := insert i s.ended }
  | drain {s : State κ} (hidle : s.Idle none) (hjoined : s.joining = []) :
      Step s { s with joining := s.handles, handles := [] }
  | join {s : State κ} {h : Nat} {rest : List Nat} (hh : s.joining = h :: rest) (hended : h ∈ s.ended) :
      Step s { s with joining := rest }
  | exit {s : State κ} (hidle : s.Idle none) (hjoined : s.joining = []) (hnone : s.handles = []) :
      Step s { s with exited := true }

section Steps
variable {s : State κ} {t : Option Nat} {k : κ}

theorem Inv.mark [DecidableEq κ] (h : Inv s) (hlive : s.Live t) (hidle : s.Idle t) (hk : k ∉ s.marked) :
    Inv { s with marked := insert k s.marked, spawning := Function.update s.spawning t (some k) } where
  once := h.once
  thread_marked k' hk' := Finset.mem_insert_of_mem (h.thread_marked k' hk')
  spawning_marked t' k' hs := by
    have hold := h.spawning_marked t' k'
    have hthread := h.thread_marked k
    grind [Function.update_apply]
  spawning_once t₁ t₂ k' h₁ h₂ := by
    have hold := h.spawning_once t₁ t₂ k'
    have hm₁ := h.spawning_marked t₁ k'
    have hm₂ := h.spawning_marked t₂ k'
    grind [Function.update_apply]
  marked_started k' hk' := by
    rcases Finset.mem_insert.mp hk' with rfl | hk'
    · exact .inr ⟨t, by simp⟩
    · refine (h.marked_started k' hk').imp_right fun ⟨t', ht'⟩ => ⟨t', ?_⟩
      have hne : t' ≠ t := fun heq => by simp [heq, hidle.1] at ht'
      simp [hne, ht']
  spawning_live t' k' hs := by
    by_cases ht : t' = t
    · subst ht
      exact ⟨hlive, hidle.2⟩
    · exact h.spawning_live t' k' (by simpa [ht] using hs)
  holding_live := h.holding_live
  holding_later := h.holding_later
  reached := h.reached
  exited_ended := h.exited_ended

/-- A thread that runs still runs when there are more. -/
theorem State.Live.append {t' : Option Nat} (h : s.Live t') (k : κ) :
    State.Live { s with threads := s.threads ++ [k] } t' :=
  ⟨h.1, fun i hi => ⟨by simpa using (h.2 i hi).1.trans (Nat.lt_succ_self _), (h.2 i hi).2⟩⟩

theorem Inv.spawn (h : Inv s) (hk : s.spawning t = some k) :
    Inv { s with
      threads := s.threads ++ [k]
      spawning := Function.update s.spawning t none
      holding := Function.update s.holding t (some s.threads.length) } where
  once := by
    have hnew := (h.spawning_marked t k hk).2
    rw [List.nodup_append]
    exact ⟨h.once, List.nodup_singleton k, fun a ha b hb hab =>
      hnew (List.mem_singleton.mp hb ▸ hab ▸ ha)⟩
  thread_marked k' hk' := by
    rcases List.mem_append.mp hk' with hk' | hk'
    · exact h.thread_marked k' hk'
    · exact List.mem_singleton.mp hk' ▸ (h.spawning_marked t k hk).1
  spawning_marked t' k' hs := by
    have hold := h.spawning_marked t' k'
    have honce := h.spawning_once t t' k hk
    grind [Function.update_apply]
  spawning_once t₁ t₂ k' h₁ h₂ := by
    have hold := h.spawning_once t₁ t₂ k'
    grind [Function.update_apply]
  marked_started k' hk' := by
    by_cases hkk : k' = k
    · exact .inl (by simp [hkk])
    · refine (h.marked_started k' hk').imp (List.mem_append_left _) (fun ⟨t', ht'⟩ => ⟨t', ?_⟩)
      have hne : t' ≠ t := fun heq => hkk (Option.some.inj (ht'.symm.trans (heq ▸ hk)))
      simpa [hne] using ht'
  spawning_live t' k' hs := by
    have hne : t' ≠ t := fun heq => by simp [heq] at hs
    obtain ⟨hlive, hhold⟩ := h.spawning_live t' k' (by simpa [hne] using hs)
    exact ⟨hlive.append k, by simpa [hne] using hhold⟩
  holding_live t' i hh := by
    by_cases ht : t' = t
    · exact ht ▸ (h.spawning_live t k hk).1.append k
    · exact (h.holding_live t' i (by simpa [ht] using hh)).append k
  holding_later i j hh := by
    by_cases ht : some i = t
    · subst ht
      obtain rfl : s.threads.length = j := by simpa using hh
      exact ((h.spawning_live _ k hk).1.2 i rfl).1
    · exact h.holding_later i j (by simpa [ht] using hh)
  reached i hi := by
    by_cases hnew : i = s.threads.length
    · exact .inr (.inr (.inr ⟨t, by simp [hnew]⟩))
    · have hlt : i < s.threads.length := by
        have : i < s.threads.length + 1 := by simpa using hi
        omega
      refine (h.reached i hlt).imp_right (Or.imp_right (Or.imp_right fun ⟨t', ht'⟩ => ⟨t', ?_⟩))
      have hne : t' ≠ t := fun heq => by simp [heq, (h.spawning_live t k hk).2] at ht'
      simp [hne, ht']
  exited_ended hex := by
    -- nobody starts a thread any more
    have hlive := (h.spawning_live t k hk).1
    cases t with
    | none => exact absurd hex (by simp [hlive.1 rfl])
    | some i => exact absurd (h.exited_ended hex i (hlive.2 i rfl).1) (hlive.2 i rfl).2

theorem Inv.push (h : Inv s) {i : Nat} (hh : s.holding t = some i) :
    Inv { s with handles := s.handles ++ [i], holding := Function.update s.holding t none } where
  once := h.once
  thread_marked := h.thread_marked
  spawning_marked := h.spawning_marked
  spawning_once := h.spawning_once
  marked_started := h.marked_started
  spawning_live t' k' hs := by
    refine ⟨(h.spawning_live t' k' hs).1, ?_⟩
    have hold := (h.spawning_live t' k' hs).2
    grind [Function.update_apply]
  holding_live t' j hj := by
    by_cases ht : t' = t
    · simp [ht] at hj
    · exact h.holding_live t' j (by simpa [ht] using hj)
  holding_later j j' hj := by
    have hold := h.holding_later j j'
    grind [Function.update_apply]
  reached j hj := by
    by_cases hji : j = i
    · exact .inr (.inl (by simp [hji]))
    · refine (h.reached j hj).imp_right (Or.imp (List.mem_append_left _) (Or.imp_right fun ⟨t', ht'⟩ => ⟨t', ?_⟩))
      have hne : t' ≠ t := fun heq => hji (Option.some.inj (ht'.symm.trans (heq ▸ hh)))
      simpa [hne] using ht'
  exited_ended := h.exited_ended

/-- Another thread runs on when one returns. -/
theorem State.Live.finish {t' : Option Nat} {i : Nat} (h : s.Live t') (hne : t' ≠ some i) :
    State.Live { s with ended := insert i s.ended } t' := by
  refine ⟨h.1, fun j hj => ⟨(h.2 j hj).1, fun hmem => ?_⟩⟩
  rcases Finset.mem_insert.mp hmem with rfl | hmem
  · exact hne hj
  · exact (h.2 j hj).2 hmem

theorem Inv.finish (h : Inv s) {i : Nat} (hidle : s.Idle (some i)) :
    Inv { s with ended := insert i s.ended } where
  once := h.once
  thread_marked := h.thread_marked
  spawning_marked := h.spawning_marked
  spawning_once := h.spawning_once
  marked_started := h.marked_started
  spawning_live t' k' hs := by
    refine ⟨(h.spawning_live t' k' hs).1.finish fun heq => ?_, (h.spawning_live t' k' hs).2⟩
    rw [heq, hidle.1] at hs
    cases hs
  holding_live t' j hj := by
    refine (h.holding_live t' j hj).finish fun heq => ?_
    rw [heq, hidle.2] at hj
    cases hj
  holding_later := h.holding_later
  reached j hj := (h.reached j hj).imp_left Finset.mem_insert_of_mem
  exited_ended hex j hj := Finset.mem_insert_of_mem (h.exited_ended hex j hj)

theorem Inv.drain (h : Inv s) (hjoined : s.joining = []) :
    Inv { s with joining := s.handles, handles := [] } where
  once := h.once
  thread_marked := h.thread_marked
  spawning_marked := h.spawning_marked
  spawning_once := h.spawning_once
  marked_started := h.marked_started
  spawning_live := h.spawning_live
  holding_live := h.holding_live
  holding_later := h.holding_later
  reached j hj := by
    have hold := h.reached j hj
    grind
  exited_ended := h.exited_ended

theorem Inv.join (h : Inv s) {i : Nat} {rest : List Nat} (hh : s.joining = i :: rest)
    (hended : i ∈ s.ended) : Inv { s with joining := rest } where
  once := h.once
  thread_marked := h.thread_marked
  spawning_marked := h.spawning_marked
  spawning_once := h.spawning_once
  marked_started := h.marked_started
  spawning_live := h.spawning_live
  holding_live := h.holding_live
  holding_later := h.holding_later
  reached j hj := by
    have hold := h.reached j hj
    grind
  exited_ended := h.exited_ended

theorem Inv.exit (h : Inv s) (hidle : s.Idle none) (hjoined : s.joining = [])
    (hnone : s.handles = []) : Inv { s with exited := true } where
  once := h.once
  thread_marked := h.thread_marked
  spawning_marked := h.spawning_marked
  spawning_once := h.spawning_once
  marked_started := h.marked_started
  spawning_live t' k' hs := by
    refine ⟨⟨fun ht => ?_, (h.spawning_live t' k' hs).1.2⟩, (h.spawning_live t' k' hs).2⟩
    rw [ht, hidle.1] at hs
    cases hs
  holding_live t' j hj := by
    refine ⟨fun ht => ?_, (h.holding_live t' j hj).2⟩
    rw [ht, hidle.2] at hj
    cases hj
  holding_later := h.holding_later
  reached := h.reached
  exited_ended _ := h.all_ended hidle hjoined hnone

theorem Inv.step [DecidableEq κ] {s' : State κ} (h : Inv s) (hstep : Step s s') : Inv s' := by
  cases hstep with
  | mark hlive hidle hk => exact h.mark hlive hidle hk
  | spawn hk => exact h.spawn hk
  | push hh => exact h.push hh
  | finish _ hidle => exact h.finish hidle
  | drain _ hjoined => exact h.drain hjoined
  | join hh hended => exact h.join hh hended
  | exit hidle hjoined hnone => exact h.exit hidle hjoined hnone

end Steps

/-- **When the main thread is through**: no thread runs or is about to be spawned, and
every key that was taken had its thread. -/
theorem Inv.exited {s : State κ} (h : Inv s) (hex : s.exited = true) :
    (∀ i < s.threads.length, i ∈ s.ended) ∧ (∀ t, s.spawning t = none) ∧
      ∀ k, k ∈ s.marked ↔ k ∈ s.threads := by
  have hnone : ∀ t, s.spawning t = none := by
    intro t
    by_contra hne
    obtain ⟨k, hk⟩ := Option.ne_none_iff_exists'.mp hne
    have hlive := (h.spawning_live t k hk).1
    cases t with
    | none => exact absurd hex (by simp [hlive.1 rfl])
    | some i => exact (hlive.2 i rfl).2 (h.exited_ended hex i (hlive.2 i rfl).1)
  refine ⟨h.exited_ended hex, hnone, fun k => ⟨fun hk => ?_, h.thread_marked k⟩⟩
  rcases h.marked_started k hk with hk | ⟨t, ht⟩
  · exact hk
  · rw [hnone t] at ht
    cases ht

end JaspyNexus.Lib.ForkJoin
