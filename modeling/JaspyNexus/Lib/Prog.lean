import Mathlib
import JaspyNexus.Lib.Runs

/-! # Programs of atomic steps

A program does one atomic step after another on a shared store, and what a step
returns decides how it goes on. A step also takes an answer of its surroundings,
such as whether a query succeeds. A program is run alone (`Returns`), or several
are run with their steps interleaved (`Pool`). -/

namespace JaspyNexus.Lib

universe u v

/-- A program whose steps are calls of the signature `S`. -/
inductive Prog (S : Type → Type) (α : Type) : Type 1 where
  | done (a : α)
  | call {β : Type} (c : S β) (next : β → Prog S α)

namespace Prog
variable {S : Type → Type} {α β : Type}

def bind : Prog S α → (α → Prog S β) → Prog S β
  | .done a, f => f a
  | .call c next, f => .call c fun b => (next b).bind f

@[simp] theorem done_bind (a : α) (f : α → Prog S β) : (done a).bind f = f a := rfl

@[simp] theorem call_bind {γ : Type} (c : S γ) (next : γ → Prog S α) (f : α → Prog S β) :
    (call c next).bind f = call c fun b => (next b).bind f := rfl

/-- The program of one step. -/
def lift (c : S β) : Prog S β := .call c .done

/-- The step without its result. -/
def lift' (c : S β) : Prog S Unit := .call c fun _ => .done ()

/-- A program for each element, one after the other. -/
def each (f : α → Prog S Unit) : List α → Prog S Unit
  | [] => .done ()
  | x :: xs => (f x).bind fun _ => each f xs

/-! ## One program -/

/-- How a step acts: on the store, under an answer, with a result. -/
abbrev Exec (S : Type → Type) (σ : Type u) (ε : Type v) := (β : Type) → S β → ε → σ → σ × β

variable {σ : Type u} {ε : Type v} (exec : Exec S σ ε) (ok : ε → Prop)

/-- Run alone from `s` under answers that meet `ok`, the program may return `a` and
leave `s'`. -/
def Returns : Prog S α → σ → α → σ → Prop
  | .done b, s, a, s' => a = b ∧ s' = s
  | .call c next, s, a, s' =>
    ∃ e, ok e ∧ (next (exec _ c e s).2).Returns (exec _ c e s).1 a s'

variable {exec ok} {s s' : σ}

theorem returns_lift {c : S β} {b : β} :
    (lift c).Returns exec ok s b s' ↔ ∃ e, ok e ∧ b = (exec _ c e s).2 ∧ s' = (exec _ c e s).1 := Iff.rfl

theorem returns_lift' {c : S β} :
    (lift' c).Returns exec ok s () s' ↔ ∃ e, ok e ∧ s' = (exec _ c e s).1 := by
  simp [lift', Returns]

theorem returns_bind {p : Prog S α} {f : α → Prog S β} {b : β} :
    (p.bind f).Returns exec ok s b s' ↔
      ∃ a mid, p.Returns exec ok s a mid ∧ (f a).Returns exec ok mid b s' := by
  induction p generalizing s with
  | done a =>
    exact ⟨fun h => ⟨a, s, ⟨rfl, rfl⟩, h⟩, by rintro ⟨a', mid, ⟨rfl, rfl⟩, h⟩; exact h⟩
  | call c next ih =>
    refine ⟨fun ⟨e, he, h⟩ => ?_, fun ⟨a, mid, ⟨e, he, h⟩, h'⟩ => ⟨e, he, (ih _).mpr ⟨a, mid, h, h'⟩⟩⟩
    obtain ⟨a, mid, h, h'⟩ := (ih _).mp h
    exact ⟨a, mid, ⟨e, he, h⟩, h'⟩

theorem returns_each_cons {f : α → Prog S Unit} {x : α} {xs : List α} :
    (each f (x :: xs)).Returns exec ok s () s' ↔
      ∃ mid, (f x).Returns exec ok s () mid ∧ (each f xs).Returns exec ok mid () s' := by
  refine returns_bind.trans ⟨fun ⟨_, mid, h, h'⟩ => ⟨mid, h, h'⟩, fun ⟨mid, h, h'⟩ => ⟨(), mid, h, h'⟩⟩

/-- Run alone under one answer throughout. -/
def run (exec : Exec S σ ε) (e : ε) : Prog S α → σ → α × σ
  | .done a, s => (a, s)
  | .call c next, s => (next (exec _ c e s).2).run exec e (exec _ c e s).1

theorem returns_run (exec : Exec S σ ε) (ok : ε → Prop) (e : ε) (he : ok e) (p : Prog S α) (s : σ) :
    p.Returns exec ok s (p.run exec e s).1 (p.run exec e s).2 := by
  induction p generalizing s with
  | done a => exact ⟨rfl, rfl⟩
  | call c next ih => exact ⟨e, he, ih _ _⟩

/-- Every program returns. -/
theorem exists_returns (exec : Exec S σ ε) {ok : ε → Prop} (hok : ∃ e, ok e) (p : Prog S α) (s : σ) :
    ∃ a s', p.Returns exec ok s a s' := by
  obtain ⟨e, he⟩ := hok
  exact ⟨_, _, returns_run exec ok e he p s⟩

/-- What every step keeps, the program keeps. -/
theorem Returns.inv {inv : σ → Prop}
    (hstep : ∀ {β : Type} (c : S β) (e : ε) (s : σ), ok e → inv s → inv (exec _ c e s).1)
    {p : Prog S α} {a : α} (h : p.Returns exec ok s a s') (hs : inv s) : inv s' := by
  induction p generalizing s with
  | done b => exact h.2 ▸ hs
  | call c next ih =>
    obtain ⟨e, he, h⟩ := h
    exact ih _ h (hstep c e s he hs)

/-- The rule of a loop: what each round keeps, the loop keeps. -/
theorem returns_each_inv (inv : σ → Prop) {f : α → Prog S Unit} {xs : List α}
    (hround : ∀ x ∈ xs, ∀ s s', inv s → (f x).Returns exec ok s () s' → inv s')
    (h : (each f xs).Returns exec ok s () s') (hs : inv s) : inv s' := by
  induction xs generalizing s with
  | nil => exact h.2 ▸ hs
  | cons x xs ih =>
    obtain ⟨mid, hx, hxs⟩ := returns_each_cons.mp h
    exact ih (fun y hy => hround y (List.mem_cons_of_mem _ hy)) hxs
      (hround x List.mem_cons_self s mid hs hx)

/-! ## Among others -/

/-- **What a program relies on** while others take steps on the same store: how the
store may come to be later (`later`), and what each step has to meet when it is taken
(`may`), which no step of the others spoils. -/
structure Rely (exec : Exec S σ ε) where
  wf : σ → Prop
  later : σ → σ → Prop
  may : {β : Type} → σ → S β → Prop
  refl : ∀ s, later s s
  trans : ∀ {s t u}, later s t → later t u → later s u
  may_later : ∀ {β : Type} {c : S β} {s t}, later s t → may s c → may t c
  step_wf : ∀ {β : Type} (c : S β) (e : ε) {s}, wf s → may s c → wf (exec _ c e s).1
  step_later : ∀ {β : Type} (c : S β) (e : ε) {s}, wf s → may s c → later s (exec _ c e s).1

namespace Rely
variable {exec : Exec S σ ε} (R : Rely exec)

/-- From `s` on, whatever others do before each step, the program takes only steps
that it may, and returns what meets `post`. -/
def Safe (post : σ → α → Prop) : σ → Prog S α → Prop
  | s, .done a => post s a
  | s, .call c next => R.may s c ∧ ∀ t e, R.wf t → R.later s t →
      Safe post (exec _ c e t).1 (next (exec _ c e t).2)

variable {R} {post : σ → α → Prop} {s : σ}

theorem Safe.later (hpost : ∀ s t a, R.later s t → post s a → post t a) {t : σ} (ht : R.later s t)
    {p : Prog S α} (h : R.Safe post s p) : R.Safe post t p := by
  cases p with
  | done a => exact hpost s t a ht h
  | call c next =>
    exact ⟨R.may_later ht h.1, fun u e hu htu => h.2 u e hu (R.trans ht htu)⟩

theorem Safe.imp {post' : σ → α → Prop} (hpost : ∀ s a, post s a → post' s a) {p : Prog S α}
    (h : R.Safe post s p) : R.Safe post' s p := by
  induction p generalizing s with
  | done a => exact hpost s a h
  | call c next ih => exact ⟨h.1, fun t e ht hst => ih _ (h.2 t e ht hst)⟩

theorem Safe.bind {post' : σ → β → Prop} {p : Prog S α} {f : α → Prog S β}
    (h : R.Safe (fun s a => R.Safe post' s (f a)) s p) : R.Safe post' s (p.bind f) := by
  induction p generalizing s with
  | done a => exact h
  | call c next ih => exact ⟨h.1, fun t e ht hst => ih _ (h.2 t e ht hst)⟩

theorem Safe.lift {c : S β} {post : σ → β → Prop} (hc : R.may s c)
    (h : ∀ t e, R.wf t → R.later s t → post (exec _ c e t).1 (exec _ c e t).2) :
    R.Safe post s (Prog.lift c) := ⟨hc, h⟩

/-- A step, and what is done with its result. -/
theorem Safe.lift_bind {c : S β} {f : β → Prog S α} (hc : R.may s c)
    (h : ∀ t e, R.wf t → R.later s t → R.Safe post (exec _ c e t).1 (f (exec _ c e t).2)) :
    R.Safe post s ((Prog.lift c).bind f) := ⟨hc, h⟩

/-- What the others cannot spoil, a step that may be taken does not. -/
theorem Safe.step {inv : σ → Prop} (hinv : ∀ {s t}, R.later s t → inv s → inv t) {c : S β}
    (hc : R.may s c) (hs : inv s) : R.Safe (fun s _ => inv s) s (Prog.lift' c) :=
  ⟨hc, fun _ e hwf hst => hinv (R.step_later c e hwf (R.may_later hst hc)) (hinv hst hs)⟩

/-- The rule of a loop: `inv` is what is known between its rounds. -/
theorem Safe.each {f : α → Prog S Unit} {inv : σ → Prop} {xs : List α}
    (hround : ∀ x ∈ xs, ∀ s, inv s → R.Safe (fun s _ => inv s) s (f x)) (hs : inv s) :
    R.Safe (fun s _ => inv s) s (Prog.each f xs) := by
  induction xs generalizing s with
  | nil => exact hs
  | cons x xs ih =>
    refine Safe.bind ?_
    have hx := hround x List.mem_cons_self s hs
    exact hx.imp fun _ _ hs' => ih (fun y hy => hround y (List.mem_cons_of_mem _ hy)) hs'

end Rely
end Prog

/-! ## Many programs -/

/-- A store and the programs that run on it, each as far as it has come. -/
structure Pool (S : Type → Type) (σ : Type u) where
  store : σ
  prog : Nat → Prog S Unit

/-- Whose turn it is, and the answer its step gets. -/
abbrev Turn (ε : Type v) := Nat × ε

namespace Pool
variable {S : Type → Type} {σ : Type u} {ε : Type v} (exec : Prog.Exec S σ ε)

/-- One step of one program; a program that has returned does nothing. -/
def step (pool : Pool S σ) (turn : Turn ε) : Pool S σ :=
  match pool.prog turn.1 with
  | .done _ => pool
  | .call c next =>
    let out := exec _ c turn.2 pool.store
    ⟨out.1, Function.update pool.prog turn.1 (next out.2)⟩

/-- The step that is taken, if one is, meets the condition in the store it is taken
in. -/
def Meets (cond : {β : Type} → S β → ε → σ → Prop) (pool : Pool S σ) (turn : Turn ε) : Prop :=
  match pool.prog turn.1 with
  | .done _ => True
  | .call c _ => cond c turn.2 pool.store

variable {exec}

/-- Every program is safe from here on. -/
def AllSafe (R : Prog.Rely exec) (pool : Pool S σ) : Prop :=
  R.wf pool.store ∧ ∀ i, R.Safe (fun _ _ => True) pool.store (pool.prog i)

variable {R : Prog.Rely exec}

/-- Programs that are each safe among others are safe together. -/
theorem AllSafe.step {pool : Pool S σ} (h : AllSafe R pool) (turn : Turn ε) :
    AllSafe R (pool.step exec turn) := by
  obtain ⟨hwf, hsafe⟩ := h
  unfold Pool.step
  split
  · exact ⟨hwf, hsafe⟩
  · next β c next hprog =>
    have hturn := hsafe turn.1
    rw [hprog] at hturn
    refine ⟨R.step_wf c turn.2 hwf hturn.1, fun i => ?_⟩
    by_cases hi : i = turn.1
    · subst hi
      simpa using hturn.2 _ turn.2 hwf (R.refl _)
    · simpa [hi] using (hsafe i).later (fun _ _ _ _ => id) (R.step_later c turn.2 hwf hturn.1)

/-- A property that every single step keeps exactly when it meets the condition
holds throughout an interleaving exactly when all its steps meet it. -/
theorem run_iff {cond : {β : Type} → S β → ε → σ → Prop} {inv : σ → Prop}
    (hstep : ∀ {β : Type} (c : S β) (e : ε) (s : σ), R.wf s → R.may s c → inv s →
      (inv (exec _ c e s).1 ↔ cond c e s))
    {pool : Pool S σ} (hsafe : AllSafe R pool) (h : inv pool.store) (turns : List (Turn ε)) :
    Runs.Allowed (step exec) (Meets cond) pool turns ↔
      ∀ pre, pre <+: turns → inv (pre.foldl (step exec) pool).store := by
  refine Runs.allowed_iff (fun pool : Pool S σ => inv pool.store) (AllSafe R)
    (fun pool turn hpool => hpool.step turn) (fun pool turn hpool hinv => ?_) hsafe h
  unfold step Meets
  split
  · exact iff_of_true hinv trivial
  · next β c next hprog =>
    have hc := hpool.2 turn.1
    rw [hprog] at hc
    exact hstep c turn.2 pool.store hpool.1 hc.1 hinv

end Pool
end JaspyNexus.Lib
