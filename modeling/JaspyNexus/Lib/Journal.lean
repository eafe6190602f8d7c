import Mathlib
import JaspyNexus.Lib.Log
import JaspyNexus.Lib.Prog

/-! # Programs with a journal

Programs that run interleaved, and beside them the journal of the steps taken: whose
each was, its answer and what it returned. What a program has done so far is its own part of
the journal (`own`), and what it knows when it takes a step is proved of the program alone
(`Along`): nothing the others do is in it. A condition on the schedule speaks of the whole
journal. -/

namespace JaspyNexus.Lib

universe u v

/-- A step that was taken. -/
structure Entry (S : Type → Type) (ε : Type v) where
  caller : Nat
  {kind : Type}
  call : S kind
  answer : ε
  result : kind

/-- The programs, and the steps they have taken. -/
structure Journal (S : Type → Type) (σ : Type u) (ε : Type v) where
  pool : Pool S σ
  log : List (Entry S ε)

namespace Journal
variable {S : Type → Type} {σ : Type u} {ε : Type v}

def start (pool : Pool S σ) : Journal S σ ε := ⟨pool, []⟩

def step (exec : Prog.Exec S σ ε) (j : Journal S σ ε) (turn : Turn ε) : Journal S σ ε :=
  match j.pool.prog turn.1 with
  | .done _ => j
  | .call c _ => ⟨j.pool.step exec turn, j.log ++ [⟨turn.1, c, turn.2, (exec _ c turn.2 j.pool.store).2⟩]⟩

/-- The step that is taken, if one is, meets the condition in the store and under the journal
that it is taken in. -/
def Meets (cond : {β : Type} → Nat → S β → ε → σ → List (Entry S ε) → Prop) (j : Journal S σ ε)
    (turn : Turn ε) : Prop :=
  match j.pool.prog turn.1 with
  | .done _ => True
  | .call c _ => cond turn.1 c turn.2 j.pool.store j.log

variable (exec : Prog.Exec S σ ε)

section
variable {j : Journal S σ ε} {turn : Turn ε}

theorem step_of_done {a : Unit} (h : j.pool.prog turn.1 = .done a) : j.step exec turn = j := by
  rw [step, h]

theorem step_of_call {β : Type} {c : S β} {next : β → Prog S Unit} (h : j.pool.prog turn.1 = .call c next) :
    j.step exec turn = ⟨⟨(exec _ c turn.2 j.pool.store).1,
        Function.update j.pool.prog turn.1 (next (exec _ c turn.2 j.pool.store).2)⟩,
      j.log ++ [⟨turn.1, c, turn.2, (exec _ c turn.2 j.pool.store).2⟩]⟩ := by
  unfold step Pool.step
  rw [h]

end

theorem step_pool (j : Journal S σ ε) (turn : Turn ε) : (j.step exec turn).pool = j.pool.step exec turn := by
  unfold step Pool.step
  split <;> simp_all

/-- **The journal changes nothing** of what the programs do. -/
theorem run_pool (j : Journal S σ ε) (turns : List (Turn ε)) :
    (turns.foldl (step exec) j).pool = turns.foldl (Pool.step exec) j.pool := by
  induction turns generalizing j with
  | nil => rfl
  | cons turn turns ih => rw [List.foldl_cons, List.foldl_cons, ih, step_pool]

/-- What one program has done. -/
def own (i : Nat) (log : List (Entry S ε)) : List (Entry S ε) := log.filter fun e => e.caller = i

theorem own_concat_self (log : List (Entry S ε)) (e : Entry S ε) : own e.caller (log ++ [e]) = own e.caller log ++ [e] := by
  simp [own]

theorem own_concat_of_ne {i : Nat} (log : List (Entry S ε)) {e : Entry S ε} (h : e.caller ≠ i) :
    own i (log ++ [e]) = own i log := by
  simp [own, h]

/-! ## One program -/

section
variable {α β : Type} (wf : σ → Prop) (i : Nat) (must : {β : Type} → List (Entry S ε) → S β → Prop)

/-- After what program `i` has done so far, whatever its steps answer in well formed stores,
each meets `must` when it is taken, and what is returned meets `post`. -/
def Along (post : List (Entry S ε) → α → Prop) : List (Entry S ε) → Prog S α → Prop
  | done, .done a => post done a
  | done, .call c next => must done c ∧ ∀ e s, wf s →
      Along post (done ++ [⟨i, c, e, (exec _ c e s).2⟩]) (next (exec _ c e s).2)

variable {exec wf i must} {done : List (Entry S ε)} {post post' : List (Entry S ε) → α → Prop}

theorem Along.imp {p : Prog S α} (h : Along exec wf i must post done p) (hpost : ∀ done a, post done a → post' done a) :
    Along exec wf i must post' done p := by
  induction p generalizing done with
  | done a => exact hpost done a h
  | call c next ih => exact ⟨h.1, fun e s hs => ih _ (h.2 e s hs)⟩

theorem Along.bind {post' : List (Entry S ε) → β → Prop} {p : Prog S α} {f : α → Prog S β}
    (h : Along exec wf i must (fun done a => Along exec wf i must post' done (f a)) done p) :
    Along exec wf i must post' done (p.bind f) := by
  induction p generalizing done with
  | done a => exact h
  | call c next ih => exact ⟨h.1, fun e s hs => ih _ (h.2 e s hs)⟩

/-- One step. -/
theorem Along.lift {c : S β} {post : List (Entry S ε) → β → Prop} (hc : must done c)
    (h : ∀ e s, wf s → post (done ++ [⟨i, c, e, (exec _ c e s).2⟩]) (exec _ c e s).2) :
    Along exec wf i must post done (Prog.lift c) := ⟨hc, h⟩

/-- One step whose result is not looked at. -/
theorem Along.lift' {c : S β} {post : List (Entry S ε) → Unit → Prop} (hc : must done c)
    (h : ∀ e s, wf s → post (done ++ [⟨i, c, e, (exec _ c e s).2⟩]) ()) :
    Along exec wf i must post done (Prog.lift' c) := ⟨hc, h⟩

/-- The rule of a loop: `inv` tells what is known after some of its rounds. -/
theorem Along.each {f : α → Prog S Unit} {xs : List α} (inv : List α → List (Entry S ε) → Prop)
    (hround : ∀ before x after, xs = before ++ x :: after → ∀ done, inv before done →
      Along exec wf i must (fun done _ => inv (before ++ [x]) done) done (f x))
    (h : inv [] done) : Along exec wf i must (fun done _ => inv xs done) done (Prog.each f xs) := by
  suffices ∀ before after, xs = before ++ after → ∀ done, inv before done →
      Along exec wf i must (fun done _ => inv xs done) done (Prog.each f after) from this [] xs rfl done h
  intro before after
  induction after generalizing before with
  | nil =>
    intro heq done hinv
    rw [heq, List.append_nil]
    exact hinv
  | cons x after ih =>
    intro heq done hinv
    refine .bind ((hround before x after heq done hinv).imp fun done _ hinv => ?_)
    exact ih (before ++ [x]) (by rw [heq, List.append_assoc, List.singleton_append]) done hinv

end

/-! ## All of them -/

/-- Every program is on its way. -/
def AllAlong (wf : σ → Prop) (must : {β : Type} → List (Entry S ε) → S β → Prop) (j : Journal S σ ε) : Prop :=
  ∀ i, Along exec wf i must (fun _ _ => True) (own i j.log) (j.pool.prog i)

variable {exec} {wf : σ → Prop} {must : {β : Type} → List (Entry S ε) → S β → Prop} {j : Journal S σ ε}

/-- The step that is taken meets what its program has proved of it. -/
theorem AllAlong.meets (h : AllAlong exec wf must j) {i : Nat} {β : Type} {c : S β}
    {next : β → Prog S Unit} (hprog : j.pool.prog i = .call c next) : must (own i j.log) c := by
  have hi := h i
  rw [hprog] at hi
  exact hi.1

theorem AllAlong.step (h : AllAlong exec wf must j) (hwf : wf j.pool.store) (turn : Turn ε) :
    AllAlong exec wf must (j.step exec turn) := by
  cases hprog : j.pool.prog turn.1 with
  | done a =>
    rw [step_of_done exec hprog]
    exact h
  | call c next =>
    have hturn := h turn.1
    rw [hprog] at hturn
    rw [step_of_call exec hprog]
    intro i
    dsimp only
    by_cases hi : i = turn.1
    · subst hi
      rw [Function.update_self]
      have hown := own_concat_self j.log ⟨turn.1, c, turn.2, (exec _ c turn.2 j.pool.store).2⟩
      dsimp only at hown
      rw [hown]
      exact hturn.2 turn.2 j.pool.store hwf
    · rw [Function.update_of_ne hi, own_concat_of_ne _ (Ne.symm hi)]
      exact h i

/-- **What every step keeps that meets the condition**, given what its program has proved of
it, holds throughout an interleaving whose steps all meet it. -/
theorem run_inv (inv : σ → List (Entry S ε) → Prop) {R : Prog.Rely exec}
    {cond : {β : Type} → Nat → S β → ε → σ → List (Entry S ε) → Prop}
    (hstep : ∀ {β : Type} (i : Nat) (c : S β) (e : ε) (s : σ) (log : List (Entry S ε)), R.wf s → R.may s c →
      must (own i log) c → inv s log → cond i c e s log →
      inv (exec _ c e s).1 (log ++ [⟨i, c, e, (exec _ c e s).2⟩]))
    {pool : Pool S σ} (hsafe : Pool.AllSafe R pool)
    (halong : ∀ i, Along exec R.wf i must (fun _ _ => True) [] (pool.prog i)) (h : inv pool.store [])
    {turns pre : List (Turn ε)} (hok : Runs.Allowed (step exec) (Meets cond) (start pool) turns)
    (hpre : pre <+: turns) :
    inv (pre.foldl (Pool.step exec) pool).store (pre.foldl (step exec) (start pool)).log := by
  have hrun := Runs.run_inv_throughout
    (fun j : Journal S σ ε => Pool.AllSafe R j.pool ∧ AllAlong exec R.wf must j ∧ inv j.pool.store j.log)
    (fun j turn hj hmeets => ?_) (s := start pool) ⟨hsafe, halong, h⟩ hok hpre
  · rw [run_pool] at hrun
    exact hrun.2.2
  obtain ⟨hsafe, halong, hinv⟩ := hj
  refine ⟨?_, halong.step hsafe.1 turn, ?_⟩
  · rw [step_pool]
    exact hsafe.step turn
  · cases hprog : j.pool.prog turn.1 with
    | done a =>
      rw [step_of_done exec hprog]
      exact hinv
    | call c next =>
      have hmay := hsafe.2 turn.1
      rw [hprog] at hmay
      rw [Meets, hprog] at hmeets
      rw [step_of_call exec hprog]
      exact hstep turn.1 c turn.2 j.pool.store j.log hsafe.1 hmay.1 (halong.meets hprog) hinv hmeets

end Journal
end JaspyNexus.Lib
