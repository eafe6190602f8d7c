import Mathlib

/-! # Queues served in turn

Several queues are drained by batches. A batch deals its slots over the queues
that were open when it began, in turn, and may be cut short: slot `p` of a batch
over `k` open queues goes to the queue in place `p % k`. A slot takes the next
item of its queue; a slot dealt to a queue with nothing left closes that queue,
and so does the last item of an `eager` one. Slots of a closed queue are idle.

A server that stops at the first batch without an item loses what is left over
exactly when some batch is `Starving`: it ends before the first queue that still
has items. -/

namespace JaspyNexus.Lib.RoundRobin

universe u v w
variable {ι : Type u} {α : Type v} {κ : Type w} [DecidableEq ι]

structure Queues (ι : Type u) (α : Type v) where
  items : ι → List α
  isOpen : ι → Bool

/-- A closed queue has nothing left. -/
def Queues.Sound (q : Queues ι α) : Prop := ∀ c, q.isOpen c = false → q.items c = []

/-- The open queues, in the order of `order`. -/
def Queues.active (order : List ι) (q : Queues ι α) : List ι := order.filter q.isOpen

/-- One slot of queue `c`. -/
def serve (eager : ι → Bool) (q : Queues ι α) (c : ι) : Queues ι α :=
  if q.isOpen c then
    match q.items c with
    | [] => { q with isOpen := Function.update q.isOpen c false }
    | _ :: rest =>
      { items := Function.update q.items c rest
        isOpen := Function.update q.isOpen c (!(rest.isEmpty && eager c)) }
  else q

/-- The queue of slot `p`. -/
def slot (active : List ι) (p : Nat) : Option ι := active[p % active.length]?

/-- `n` slots, from slot `p` on. -/
def batch (eager : ι → Bool) (active : List ι) : Nat → Nat → Queues ι α → Queues ι α
  | _, 0, q => q
  | p, n + 1, q =>
    batch eager active (p + 1) n (match slot active p with
      | some c => serve eager q c
      | none => q)

/-- The slots of a batch over `k` queues: `turns` for each, unless cut. -/
def slots (turns cut k : Nat) : Nat := min cut (turns * k)

/-- One batch over the open queues. -/
def openBatch (eager : ι → Bool) (order : List ι) (turns cut : Nat) (q : Queues ι α) : Queues ι α :=
  batch eager (q.active order) 0 (slots turns cut (q.active order).length) q

/-- The queues after `i` batches; `cuts` is where the batches still to come are cut. -/
def openBatches (eager : ι → Bool) (order : List ι) (turns : Nat) :
    Nat → (Nat → Nat) → Queues ι α → Queues ι α
  | 0, _, q => q
  | i + 1, cuts, q =>
    openBatches eager order turns i (fun j => cuts (j + 1)) (openBatch eager order turns (cuts 0) q)

/-- No queue under the key of `c` has been drained. -/
def Queues.Pending (key : ι → κ) (q : Queues ι α) (c : ι) : Prop :=
  ∀ c', key c' = key c → q.items c' ≠ []

/-- The batch ends before the first open queue that has items, and some key has
not been drained. -/
def Starving (key : ι → κ) (order : List ι) (turns cut : Nat) (q : Queues ι α) : Prop :=
  (∀ c ∈ (q.active order).take (slots turns cut (q.active order).length), q.items c = []) ∧
    ∃ c, q.Pending key c

/-- Some batch to come is starving. -/
def Starved (key : ι → κ) (eager : ι → Bool) (order : List ι) (turns : Nat) (cuts : Nat → Nat)
    (q : Queues ι α) : Prop :=
  ∃ i, Starving key order turns (cuts i) (openBatches eager order turns i cuts q)

/-! ## One slot -/

/-- **The inversion of one slot.** -/
theorem serve_cases (eager : ι → Bool) (q : Queues ι α) (c : ι) :
    (q.isOpen c = false ∧ serve eager q c = q) ∨
    (q.isOpen c = true ∧ q.items c = [] ∧
      serve eager q c = { q with isOpen := Function.update q.isOpen c false }) ∨
    (∃ a rest, q.isOpen c = true ∧ q.items c = a :: rest ∧ serve eager q c =
      { items := Function.update q.items c rest
        isOpen := Function.update q.isOpen c (!(rest.isEmpty && eager c)) }) := by
  unfold serve
  by_cases hopen : q.isOpen c = true
  · rw [if_pos hopen]
    cases hitems : q.items c with
    | nil => exact .inr (.inl ⟨hopen, rfl, rfl⟩)
    | cons a rest => exact .inr (.inr ⟨a, rest, hopen, rfl, rfl⟩)
  · rw [if_neg hopen]
    exact .inl ⟨by simpa using hopen, rfl⟩

/-- A slot only takes items away. -/
theorem serve_suffix (eager : ι → Bool) (q : Queues ι α) (c d : ι) :
    (serve eager q c).items d <:+ q.items d := by
  rcases serve_cases eager q c with ⟨_, he⟩ | ⟨_, _, he⟩ | ⟨a, rest, _, hitems, he⟩ <;> rw [he]
  by_cases hdc : d = c
  · subst hdc
    simp only [Function.update_self, hitems]
    exact List.suffix_cons a rest
  · simp only [Function.update_of_ne hdc]
    exact List.suffix_refl _

/-- A slot of a queue with nothing left takes no item. -/
theorem serve_items_of_nil (eager : ι → Bool) {q : Queues ι α} {c : ι} (h : q.items c = []) :
    (serve eager q c).items = q.items := by
  rcases serve_cases eager q c with ⟨_, he⟩ | ⟨_, _, he⟩ | ⟨a, rest, _, hitems, _⟩
  · rw [he]
  · rw [he]
  · rw [h] at hitems; cases hitems

/-- A slot of an open queue that has items takes one. -/
theorem serve_items_ne (eager : ι → Bool) {q : Queues ι α} {c : ι} (hopen : q.isOpen c = true)
    (h : q.items c ≠ []) : (serve eager q c).items c ≠ q.items c := by
  rcases serve_cases eager q c with ⟨hclosed, _⟩ | ⟨_, hitems, _⟩ | ⟨a, rest, _, hitems, he⟩
  · rw [hopen] at hclosed; cases hclosed
  · exact absurd hitems h
  · rw [he, hitems]
    simp only [Function.update_self]
    intro hrest
    simpa using congrArg List.length hrest

theorem serve_isOpen_of_ne (eager : ι → Bool) (q : Queues ι α) {c d : ι} (h : d ≠ c) :
    (serve eager q c).isOpen d = q.isOpen d := by
  rcases serve_cases eager q c with ⟨_, he⟩ | ⟨_, _, he⟩ | ⟨a, rest, _, _, he⟩ <;>
    simp [he, Function.update_of_ne h]

omit [DecidableEq ι] in
/-- Items once taken stay taken. -/
theorem items_ne_iff {q q' q'' : Queues ι α} (h : ∀ d, q'.items d <:+ q.items d)
    (h' : ∀ d, q''.items d <:+ q'.items d) :
    q''.items ≠ q.items ↔ q'.items ≠ q.items ∨ q''.items ≠ q'.items := by
  constructor
  · intro hne
    by_contra hc
    simp only [not_or, not_not] at hc
    exact hne (hc.2.trans hc.1)
  · rintro hne heq
    have hback : q'.items = q.items := by
      funext d
      exact (h d).eq_of_length_le (by rw [← heq]; exact (h' d).length_le)
    rcases hne with hne | hne
    · exact hne hback
    · exact hne (heq.trans hback.symm)

/-! ## One batch -/

section Batch
variable (eager : ι → Bool) (active : List ι)

theorem batch_suffix (n : Nat) : ∀ (p : Nat) (q : Queues ι α) (d : ι),
    (batch eager active p n q).items d <:+ q.items d := by
  induction n with
  | zero => intro p q d; exact List.suffix_refl _
  | succ n ih =>
    intro p q d
    refine (ih (p + 1) _ d).trans ?_
    split
    · exact serve_suffix eager q _ d
    · exact List.suffix_refl _

/-- A batch that is dealt to queues with nothing left takes no item. -/
theorem batch_items_of_nil (n : Nat) : ∀ (p : Nat) (q : Queues ι α),
    (∀ i, p ≤ i → i < p + n → ∀ c, slot active i = some c → q.items c = []) →
    (batch eager active p n q).items = q.items := by
  induction n with
  | zero => intro p q _; rfl
  | succ n ih =>
    intro p q h
    have hstep : (match slot active p with
        | some c => serve eager q c
        | none => q).items = q.items := by
      split
      · next c hc => exact serve_items_of_nil eager (h p le_rfl (by omega) c hc)
      · rfl
    unfold batch
    rw [ih]
    · exact hstep
    · intro i hpi hi c hc
      rw [hstep]
      exact h i (by omega) (by omega) c hc

/-- A batch that reaches an open queue with items takes one. -/
theorem batch_items_ne (n : Nat) : ∀ (p : Nat) (q : Queues ι α) (i : Nat) (c : ι),
    p ≤ i → i < p + n → slot active i = some c → q.isOpen c = true → q.items c ≠ [] →
    (batch eager active p n q).items ≠ q.items := by
  induction n with
  | zero => intro p q i c hpi hi; omega
  | succ n ih =>
    intro p q i c hpi hi hslot hopen hne
    unfold batch
    cases hp : slot active p with
    | none =>
      by_cases hip : i = p
      · rw [hip, hp] at hslot; cases hslot
      · exact ih (p + 1) q i c (by omega) (by omega) hslot hopen hne
    | some d =>
      refine (items_ne_iff (serve_suffix eager q d) (batch_suffix eager active n (p + 1) _)).mpr ?_
      by_cases hsame : (serve eager q d).items = q.items
      · have hdc : c ≠ d := by
          rintro rfl
          exact serve_items_ne eager hopen hne (congrFun hsame c)
        have hip : i ≠ p := by
          rintro rfl
          rw [hp] at hslot
          exact hdc (Option.some.inj hslot).symm
        refine .inr (ih (p + 1) (serve eager q d) i c (by omega) (by omega) hslot ?_ ?_)
        · rwa [serve_isOpen_of_ne eager q hdc]
        · rwa [hsame]
      · exact .inl hsame

end Batch

/-! ## One batch over the open queues -/

omit [DecidableEq ι] in
theorem mem_active (order : List ι) {q : Queues ι α} {c : ι} :
    c ∈ q.active order ↔ c ∈ order ∧ q.isOpen c = true := by simp [Queues.active]

omit [DecidableEq ι] in
theorem Queues.Pending.mono {key : ι → κ} {q q' : Queues ι α}
    (h : ∀ d, q'.items d <:+ q.items d) {c : ι} (hc : q'.Pending key c) : q.Pending key c := by
  intro d hd he
  apply hc d hd
  have := h d
  rw [he] at this
  exact List.suffix_nil.mp this

section OpenBatch
variable (eager : ι → Bool) (order : List ι) (turns : Nat)

theorem openBatch_suffix (cut : Nat) (q : Queues ι α) (d : ι) :
    (openBatch eager order turns cut q).items d <:+ q.items d := batch_suffix eager _ _ _ _ d

/-- **A batch over the open queues takes no item exactly when it ends before the first open
queue that has one.** -/
theorem openBatch_items_iff (cut : Nat) (q : Queues ι α) :
    (openBatch eager order turns cut q).items = q.items ↔
      ∀ c ∈ (q.active order).take (slots turns cut (q.active order).length), q.items c = [] := by
  constructor
  · intro h c hc
    by_contra hne
    obtain ⟨i, hi, hget⟩ := List.mem_take_iff_getElem.mp hc
    have hik : i < (q.active order).length := by omega
    have hslot : slot (q.active order) i = some c := by
      rw [slot, Nat.mod_eq_of_lt hik, List.getElem?_eq_getElem hik, hget]
    have hopen := ((mem_active order).mp (List.mem_of_mem_take hc)).2
    exact batch_items_ne eager _ _ 0 q i c (Nat.zero_le _) (by omega) hslot hopen hne h
  · intro h
    refine batch_items_of_nil eager _ _ 0 q fun i _ hi c hc => h c ?_
    have hmem : i % (q.active order).length < (q.active order).length :=
      (List.getElem?_eq_some_iff.mp hc).1
    have hle := Nat.mod_le i (q.active order).length
    exact List.mem_take_iff_getElem.mpr ⟨i % (q.active order).length, by omega,
      (List.getElem?_eq_some_iff.mp hc).2⟩

theorem openBatches_suffix (i : Nat) : ∀ (cuts : Nat → Nat) (q : Queues ι α) (d : ι),
    (openBatches eager order turns i cuts q).items d <:+ q.items d := by
  induction i with
  | zero => intro cuts q d; exact List.suffix_refl _
  | succ i ih =>
    intro cuts q d
    exact (ih _ _ d).trans (openBatch_suffix eager order turns _ q d)

variable {eager order turns} {key : ι → κ} {cuts : Nat → Nat} {q : Queues ι α}

/-- When the next batch takes no item, what is pending now is what was starved. -/
theorem starved_iff_of_idle (h : (openBatch eager order turns (cuts 0) q).items = q.items) :
    Starved key eager order turns cuts q ↔ ∃ c, q.Pending key c := by
  constructor
  · rintro ⟨i, _, c, hc⟩
    exact ⟨c, hc.mono (openBatches_suffix eager order turns i cuts q)⟩
  · intro hc
    exact ⟨0, (openBatch_items_iff eager order turns (cuts 0) q).mp h, hc⟩

/-- A batch that takes an item is not the starving one. -/
theorem starved_iff_of_busy (h : (openBatch eager order turns (cuts 0) q).items ≠ q.items) :
    Starved key eager order turns cuts q ↔
      Starved key eager order turns (fun j => cuts (j + 1))
        (openBatch eager order turns (cuts 0) q) := by
  constructor
  · rintro ⟨i, hi⟩
    cases i with
    | zero => exact absurd ((openBatch_items_iff eager order turns (cuts 0) q).mpr hi.1) h
    | succ i => exact ⟨i, hi⟩
  · rintro ⟨i, hi⟩
    exact ⟨i + 1, hi⟩

omit [DecidableEq ι] in
/-- Nothing is pending once every queue is closed. -/
theorem not_pending_of_closed (key : ι → κ) (hq : q.Sound) (horder : ∀ c, c ∈ order)
    (h : q.active order = []) (c : ι) : ¬q.Pending key c := by
  intro hc
  refine hc c rfl (hq c ?_)
  by_contra hopen
  have : c ∈ q.active order := (mem_active order).mpr ⟨horder c, by simpa using hopen⟩
  rw [h] at this
  cases this

end OpenBatch

end JaspyNexus.Lib.RoundRobin
