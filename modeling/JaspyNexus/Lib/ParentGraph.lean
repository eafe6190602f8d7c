import Mathlib

/-! # Parent pointers

A partial parent function is a graph whose components are trees or a cycle with
trees hanging off it. `findCycle` walks up from a vertex until it leaves the
graph, meets a vertex of a cycle already known, or meets its own path;
`findCycles` collects the cycles met from a list of vertices, which are then all
there are (`findCycles_spec`). `preorder` visits a forest from its roots with an
explicit stack, every vertex once and after its parent (`preorderAll_spec`). -/

namespace JaspyNexus.Lib.ParentGraph

universe u
variable {α : Type u}

/-! ## Ancestors -/

/-- The vertex `n` steps up. -/
def ancestor (up : α → Option α) : Nat → α → Option α
  | 0, x => some x
  | n + 1, x => (up x).bind (ancestor up n)

/-- Some steps up lead back. -/
def OnCycle (up : α → Option α) (x : α) : Prop := ∃ n, 0 < n ∧ ancestor up n x = some x

/-- With a vertex, its parent. -/
def Closed (up : α → Option α) (C : List α) : Prop := ∀ x ∈ C, ∀ y, up x = some y → y ∈ C

/-- The graph without the edges that leave `C`. -/
def cut [DecidableEq α] (up : α → Option α) (C : List α) (x : α) : Option α :=
  if x ∈ C then none else up x

section Ancestor
variable {up : α → Option α}

theorem ancestor_add (m n : Nat) : ∀ x, ancestor up (m + n) x =
    (ancestor up m x).bind (ancestor up n) := by
  induction m with
  | zero => intro x; simp [ancestor]
  | succ m ih =>
    intro x
    rw [Nat.succ_add]
    simp only [ancestor]
    cases up x with
    | none => rfl
    | some y => exact ih y

theorem ancestor_trans {m n : Nat} {x y z : α} (h : ancestor up m x = some y)
    (h' : ancestor up n y = some z) : ancestor up (m + n) x = some z := by
  rw [ancestor_add, h, Option.bind_some, h']

/-- Past a vertex without a parent there is nothing. -/
theorem ancestor_past_top {m n : Nat} {x z : α} (hz : ancestor up m x = some z) (hnone : up z = none)
    (hm : m < n) : ancestor up n x = none := by
  obtain ⟨k, rfl⟩ := Nat.exists_eq_add_of_lt hm
  rw [Nat.add_assoc, ancestor_add, hz, Option.bind_some, ancestor, hnone, Option.bind_none]

theorem Closed.ancestor {C : List α} (hC : Closed up C) {x y : α} (hx : x ∈ C) :
    ∀ {n : Nat}, ancestor up n x = some y → y ∈ C := by
  intro n
  induction n generalizing x with
  | zero => intro h; cases h; exact hx
  | succ n ih =>
    intro h
    obtain ⟨z, hz, hzy⟩ := Option.bind_eq_some_iff.mp h
    exact ih (hC x hx z hz) hzy

/-- A vertex on a cycle comes back as often as asked. -/
theorem OnCycle.ancestor_mul {x : α} {n : Nat} (h : ancestor up n x = some x) (k : Nat) :
    ancestor up (n * k) x = some x := by
  induction k with
  | zero => rfl
  | succ k ih => rw [Nat.mul_succ]; exact ancestor_trans ih h

/-- From a vertex on a cycle every ancestor leads back. -/
theorem OnCycle.returns {x y : α} (h : OnCycle up x) {m : Nat} (hy : ancestor up m x = some y) :
    ∃ k, ancestor up k y = some x := by
  obtain ⟨n, hn, hx⟩ := h
  have hle : m ≤ n * (m + 1) := by nlinarith
  obtain ⟨k, hk⟩ := Nat.exists_eq_add_of_le hle
  refine ⟨k, ?_⟩
  have hback := OnCycle.ancestor_mul hx (m + 1)
  rw [hk, ancestor_add, hy, Option.bind_some] at hback
  exact hback

/-- Walking up from a vertex on a cycle never ends. -/
theorem OnCycle.ancestor_ne_none {x : α} (h : OnCycle up x) (m : Nat) :
    ancestor up m x ≠ none := by
  obtain ⟨n, hn, hx⟩ := h
  have hle : m ≤ n * (m + 1) := by nlinarith
  obtain ⟨k, hk⟩ := Nat.exists_eq_add_of_le hle
  intro hnone
  have hback := OnCycle.ancestor_mul hx (m + 1)
  rw [hk, ancestor_add, hnone] at hback
  cases hback

/-- A chain of parents is a walk up. -/
theorem ancestor_of_isChain {a b : α} : ∀ {l : List α},
    List.IsChain (fun x y => up x = some y) (a :: (l ++ [b])) →
      ancestor up (l.length + 1) a = some b := by
  intro l
  induction l generalizing a with
  | nil =>
    intro h
    have hab : up a = some b := by simpa using h
    simp [ancestor, hab]
  | cons c l ih =>
    intro h
    rw [List.cons_append, List.isChain_cons_cons] at h
    rw [List.length_cons, ancestor, h.1, Option.bind_some]
    exact ih h.2

/-- The nearest vertex up that is asked for, and how far it is. -/
structure Nearest (up : α → Option α) (p : α → Prop) (x : α) (n : Nat) (y : α) : Prop where
  reach : ancestor up n x = some y
  found : p y
  before : ∀ m < n, ∀ z, ancestor up m x = some z → ¬p z

theorem Nearest.self {p : α → Prop} {x : α} (h : p x) : Nearest up p x 0 x :=
  ⟨rfl, h, fun _ hm => absurd hm (Nat.not_lt_zero _)⟩

/-- The nearest of the parent is the nearest of a vertex that is not asked for. -/
theorem Nearest.step {p : α → Prop} {x z y : α} {n : Nat} (h : Nearest up p z n y) (hup : up x = some z)
    (hx : ¬p x) : Nearest up p x (n + 1) y where
  reach := by rw [ancestor, hup, Option.bind_some, h.reach]
  found := h.found
  before := by
    intro m hm w hw
    cases m with
    | zero => cases hw; exact hx
    | succ m =>
      rw [ancestor, hup, Option.bind_some] at hw
      exact h.before m (by omega) w hw

theorem Nearest.tail {p : α → Prop} {x z y : α} {n : Nat} (h : Nearest up p x (n + 1) y) (hup : up x = some z) :
    Nearest up p z n y where
  reach := by
    have hreach := h.reach
    rwa [ancestor, hup, Option.bind_some] at hreach
  found := h.found
  before m hm w hw := h.before (m + 1) (by omega) w (by rw [ancestor, hup, Option.bind_some, hw])

/-- What is found up there at all is found at its nearest. -/
theorem exists_nearest {p : α → Prop} {x z : α} {n : Nat} (hz : ancestor up n x = some z) (hp : p z) :
    ∃ m y, Nearest up p x m y := by
  classical
  have hex : ∃ m, ∃ y, ancestor up m x = some y ∧ p y := ⟨n, z, hz, hp⟩
  obtain ⟨y, hy, hpy⟩ := Nat.find_spec hex
  exact ⟨Nat.find hex, y, hy, hpy, fun m hm w hw hpw => Nat.find_min hex hm ⟨w, hw, hpw⟩⟩

theorem Nearest.unique {p : α → Prop} {x y y' : α} {n n' : Nat} (h : Nearest up p x n y)
    (h' : Nearest up p x n' y') : n = n' ∧ y = y' := by
  have hnn : n = n' := by
    by_contra hne
    rcases Nat.lt_or_gt_of_ne hne with hlt | hlt
    · exact h'.before n hlt y h.reach h.found
    · exact h.before n' hlt y' h'.reach h'.found
  subst hnn
  exact ⟨rfl, Option.some.inj (h.reach.symm.trans h'.reach)⟩

/-- The way to the nearest meets no vertex twice: it would come round to the same end sooner. -/
theorem Nearest.ne {p : α → Prop} {x y : α} {n : Nat} (h : Nearest up p x n y) {i j : Nat} (hij : i < j)
    (hj : j ≤ n) {z : α} (hi : ancestor up i x = some z) : ancestor up j x ≠ some z := by
  intro hback
  have hrest : ancestor up (n - j) z = some y := by
    have hreach := h.reach
    rwa [show n = j + (n - j) by omega, ancestor_add, hback, Option.bind_some] at hreach
  exact h.before (i + (n - j)) (by omega) y (ancestor_trans hi hrest) h.found

/-- **The nearest is less far than there are vertices.** -/
theorem Nearest.lt_length {p : α → Prop} {x y : α} {n : Nat} (h : Nearest up p x n y) {names : List α}
    (hup : ∀ z z', up z = some z' → z ∈ names) (hp : ∀ z, p z → z ∈ names) : n < names.length := by
  have hwalk : ∀ m ≤ n, ∃ z ∈ names, ancestor up m x = some z := by
    intro m hm
    have hreach := h.reach
    rw [show n = m + (n - m) by omega, ancestor_add] at hreach
    obtain ⟨z, hz, hzy⟩ := Option.bind_eq_some_iff.mp hreach
    refine ⟨z, ?_, hz⟩
    cases hrest : n - m with
    | zero =>
      rw [hrest] at hzy
      obtain rfl := Option.some.inj hzy
      exact hp z h.found
    | succ k =>
      rw [hrest] at hzy
      obtain ⟨z', hz', -⟩ := Option.bind_eq_some_iff.mp hzy
      exact hup z z' hz'
  have hrange : ∀ {m : Nat}, m ∈ List.range (n + 1) → m ≤ n := fun hm => Nat.lt_succ_iff.mp (List.mem_range.mp hm)
  have hnd : ((List.range (n + 1)).map fun m => (ancestor up m x).getD x).Nodup := by
    refine List.pairwise_map.mpr (List.pairwise_lt_range.imp_of_mem fun {i j} hi hj hij => ?_)
    obtain ⟨z, -, hz⟩ := hwalk i (hrange hi)
    obtain ⟨z', -, hz'⟩ := hwalk j (hrange hj)
    rw [hz, hz', Option.getD_some, Option.getD_some]
    rintro rfl
    exact h.ne hij (hrange hj) hz hz'
  have hsub : ((List.range (n + 1)).map fun m => (ancestor up m x).getD x) ⊆ names := by
    intro z hz
    obtain ⟨m, hm, rfl⟩ := List.mem_map.mp hz
    obtain ⟨z, hmem, hz⟩ := hwalk m (hrange hm)
    rw [hz]
    exact hmem
  have hlen := (hnd.subperm hsub).length_le
  simpa using hlen

/-- Cutting at a closed set that every walk up reaches leaves no endless walk. -/
theorem cut_ends [DecidableEq α] {C : List α} {n : Nat} : ∀ {x : α},
    (ancestor up n x = none ∨ ∃ y ∈ C, ancestor up n x = some y) →
      ancestor (cut up C) (n + 1) x = none := by
  induction n with
  | zero =>
    rintro x (h | ⟨y, hy, h⟩)
    · cases h
    · cases h
      simp [ancestor, cut, hy]
  | succ n ih =>
    intro x h
    by_cases hx : x ∈ C
    · simp [ancestor, cut, hx]
    · rw [ancestor]
      cases hup : up x with
      | none => simp [cut, hx, hup]
      | some z =>
        have hcut : cut up C x = some z := by simp [cut, hx, hup]
        rw [hcut, Option.bind_some]
        refine ih ?_
        simpa [ancestor, hup] using h

end Ancestor

/-! ## Finding the cycles -/

section Cycles
variable [DecidableEq α] (up : α → Option α)

/-- Walk up from `current`, having come along `path`: the vertices of the cycle
met, if any; `none` when the fuel runs out. -/
def findCycle (seen : List α) : Nat → List α → α → Option (List α)
  | 0, _, _ => none
  | fuel + 1, path, current =>
    if current ∈ seen then some []
    else if current ∈ path then some (path.drop (path.idxOf current))
    else match up current with
      | some parent => findCycle seen fuel (path ++ [current]) parent
      | none => some []

/-- The cycles met from the vertices of a list. -/
def findCycles (fuel : Nat) : List α → List α → Option (List α)
  | [], seen => some seen
  | start :: rest, seen =>
    (findCycle up seen fuel [] start).bind fun members => findCycles fuel rest (seen ++ members)

variable {up} {seen members names : List α}

omit [DecidableEq α] in
/-- A closed chain is a cycle. -/
theorem cycle_of_isChain {current : α} {rest : List α}
    (h : List.IsChain (fun x y => up x = some y) (current :: (rest ++ [current]))) :
    (∀ x ∈ current :: rest, OnCycle up x) ∧ Closed up (current :: rest) := by
  have hsplit : ∀ x ∈ current :: rest, ∃ l₁ l₂, current :: rest = l₁ ++ x :: l₂ ∧
      List.IsChain (fun x y => up x = some y) (l₁ ++ x :: (l₂ ++ [current])) := by
    intro x hx
    obtain ⟨l₁, l₂, he⟩ := List.append_of_mem hx
    refine ⟨l₁, l₂, he, ?_⟩
    rw [← List.cons_append, he] at h
    simpa using h
  constructor
  · intro x hx
    obtain ⟨l₁, l₂, he, hchain⟩ := hsplit x hx
    have hdown := ancestor_of_isChain hchain.right_of_append
    cases l₁ with
    | nil =>
      obtain ⟨rfl, -⟩ := List.cons.inj he
      exact ⟨_, Nat.succ_pos _, hdown⟩
    | cons a l₁ =>
      obtain ⟨rfl, -⟩ := List.cons.inj he
      have hup : ancestor up (l₁.length + 1) current = some x := by
        apply ancestor_of_isChain
        rw [List.append_cons] at hchain
        simpa using hchain.left_of_append
      exact ⟨_, by omega, ancestor_trans hdown hup⟩
  · intro x hx y hxy
    obtain ⟨l₁, l₂, he, hchain⟩ := hsplit x hx
    have hnext := hchain.right_of_append
    cases l₂ with
    | nil =>
      have : up x = some current := by simpa using hnext
      rw [this] at hxy
      cases hxy
      exact List.mem_cons_self
    | cons z l₂ =>
      have : up x = some z := by
        rw [List.cons_append, List.isChain_cons_cons] at hnext
        exact hnext.1
      rw [this] at hxy
      cases hxy
      rw [he]
      simp

/-- What one walk finds: a closed set of vertices on a cycle, such that the walk
ends or has reached a cycle. -/
theorem findCycle_spec (fuel : Nat) : ∀ (path : List α) (current : α),
    List.IsChain (fun x y => up x = some y) (path ++ [current]) →
    findCycle up seen fuel path current = some members →
    (∀ x ∈ members, OnCycle up x) ∧ Closed up members ∧
      ∃ n, ancestor up n current = none ∨
        ∃ y ∈ seen ++ members, ancestor up n current = some y := by
  induction fuel with
  | zero => intro _ _ _ h; cases h
  | succ fuel ih =>
    intro path current hchain h
    unfold findCycle at h
    split at h
    · next hseen =>
      cases h
      refine ⟨by simp, by simp [Closed], 0, .inr ⟨current, ?_, rfl⟩⟩
      simp [hseen]
    · split at h
      · next hpath =>
        cases h
        have hidx := List.idxOf_lt_length_of_mem hpath
        have hdrop : path.drop (path.idxOf current) =
            current :: path.drop (path.idxOf current + 1) := by
          rw [List.drop_eq_getElem_cons hidx, List.getElem_idxOf]
        rw [← List.take_append_drop (path.idxOf current) path, List.append_assoc] at hchain
        have hloop := hchain.right_of_append
        rw [hdrop] at hloop ⊢
        obtain ⟨hcycle, hclosed⟩ := cycle_of_isChain hloop
        exact ⟨hcycle, hclosed, 0, .inr ⟨current, by simp, rfl⟩⟩
      · cases hup : up current with
        | none =>
          rw [hup] at h
          cases h
          exact ⟨by simp, by simp [Closed], 1, .inl (by simp [ancestor, hup])⟩
        | some parent =>
          rw [hup] at h
          have hchain' : List.IsChain (fun x y => up x = some y)
              ((path ++ [current]) ++ [parent]) :=
            hchain.append (.singleton _) (by simp [hup])
          obtain ⟨hcycle, hclosed, n, hn⟩ := ih _ _ hchain' h
          exact ⟨hcycle, hclosed, n + 1, by simpa [ancestor, hup] using hn⟩

/-- A walk meets its own path before it has used more steps than there are
vertices. -/
theorem findCycle_isSome (seen : List α) (hnames : ∀ x ∈ names, ∀ y, up x = some y → y ∈ names) (fuel : Nat) :
    ∀ (path : List α) (current : α), path.Nodup → path ⊆ names → current ∈ names →
      names.length + 1 ≤ fuel + path.length → (findCycle up seen fuel path current).isSome := by
  induction fuel with
  | zero =>
    intro path current hnd hsub _ hlen
    have := (hnd.subperm hsub).length_le
    omega
  | succ fuel ih =>
    intro path current hnd hsub hcur hlen
    unfold findCycle
    split
    · rfl
    · split
      · rfl
      · next hpath =>
        cases hup : up current with
        | none => rfl
        | some parent =>
          refine ih _ _ ?_ ?_ (hnames current hcur parent hup) ?_
          · rw [List.nodup_append]
            refine ⟨hnd, List.nodup_singleton _, ?_⟩
            rintro a ha b hb rfl
            rw [List.mem_singleton] at hb
            exact hpath (hb ▸ ha)
          · intro x hx
            rcases List.mem_append.mp hx with hx | hx
            · exact hsub hx
            · rw [List.mem_singleton.mp hx]; exact hcur
          · rw [List.length_append, List.length_singleton]; omega

theorem findCycles_isSome (hnames : ∀ x ∈ names, ∀ y, up x = some y → y ∈ names) {fuel : Nat}
    (hfuel : names.length < fuel) : ∀ (starts seen : List α), starts ⊆ names →
      (findCycles up fuel starts seen).isSome := by
  intro starts
  induction starts with
  | nil => intro _ _; rfl
  | cons start rest ih =>
    intro seen hsub
    have hwalk := findCycle_isSome seen hnames fuel [] start List.nodup_nil (by simp)
      (hsub List.mem_cons_self) (by simpa using hfuel)
    obtain ⟨members, hm⟩ := Option.isSome_iff_exists.mp hwalk
    rw [findCycles, hm, Option.bind_some]
    exact ih _ fun x hx => hsub (List.mem_cons_of_mem _ hx)

/-- The invariant of the search: known vertices are on cycles, whole cycles at a
time. -/
theorem findCycles_inv {fuel : Nat} : ∀ {starts seen out : List α},
    (∀ x ∈ seen, OnCycle up x) → Closed up seen → findCycles up fuel starts seen = some out →
    (∀ x ∈ out, OnCycle up x) ∧ Closed up out ∧ seen ⊆ out ∧
      ∀ x ∈ starts, ∃ n, ancestor up n x = none ∨ ∃ y ∈ out, ancestor up n x = some y := by
  intro starts
  induction starts with
  | nil =>
    intro seen out hcycle hclosed h
    cases h
    exact ⟨hcycle, hclosed, List.Subset.refl _, by simp⟩
  | cons start rest ih =>
    intro seen out hcycle hclosed h
    obtain ⟨members, hm, h⟩ := Option.bind_eq_some_iff.mp h
    obtain ⟨hcycle', hclosed', n, hn⟩ := findCycle_spec fuel [] start (.singleton _) hm
    have hboth : Closed up (seen ++ members) := by
      intro x hx y hxy
      rcases List.mem_append.mp hx with hx | hx
      · exact List.mem_append_left _ (hclosed x hx y hxy)
      · exact List.mem_append_right _ (hclosed' x hx y hxy)
    obtain ⟨ho, hoc, hsub, hrest⟩ := ih (fun x hx =>
      (List.mem_append.mp hx).elim (hcycle x) (hcycle' x)) hboth h
    refine ⟨ho, hoc, fun x hx => hsub (List.mem_append_left _ hx), fun x hx => ?_⟩
    rcases List.mem_cons.mp hx with rfl | hx
    · exact ⟨n, hn.imp id fun ⟨y, hy, hxy⟩ => ⟨y, hsub hy, hxy⟩⟩
    · exact hrest x hx

/-- **The search from every vertex finds the vertices on cycles and no others**,
and cutting there leaves a forest. -/
theorem findCycles_spec {fuel : Nat} {out : List α} (hup : ∀ x y, up x = some y → x ∈ names)
    (h : findCycles up fuel names [] = some out) :
    (∀ x, x ∈ out ↔ OnCycle up x) ∧ ∀ x ∈ names, ∃ n, ancestor (cut up out) n x = none := by
  obtain ⟨hcycle, hclosed, -, hcover⟩ := findCycles_inv (by simp) (by simp [Closed]) h
  refine ⟨fun x => ⟨hcycle x, fun hx => ?_⟩, fun x hx => ?_⟩
  · -- a vertex on a cycle has a parent, so the search started from it
    have hmem : x ∈ names := by
      cases hux : up x with
      | none => exact absurd (by simp [ancestor, hux]) (hx.ancestor_ne_none 1)
      | some y => exact hup x y hux
    obtain ⟨n, hn | ⟨y, hy, hxy⟩⟩ := hcover x hmem
    · exact absurd hn (hx.ancestor_ne_none n)
    · obtain ⟨k, hk⟩ := hx.returns hxy
      exact hclosed.ancestor hy hk
  · obtain ⟨n, hn⟩ := hcover x hx
    exact ⟨n + 1, cut_ends hn⟩

end Cycles

/-! ## Visiting a forest -/

section Preorder
variable [DecidableEq α] (children : α → List α)

/-- Depth-first from an explicit stack of vertices with their depths; `none`
when the fuel runs out. -/
def preorder : Nat → List (α × Nat) → List (α × Nat) → Option (List (α × Nat))
  | 0, _, _ => none
  | _ + 1, [], out => some out
  | fuel + 1, (x, depth) :: stack, out =>
    if x ∈ out.map Prod.fst then preorder fuel stack out
    else preorder fuel ((children x).map (fun c => (c, depth + 1)) ++ stack) (out ++ [(x, depth)])

/-- From each of a list of vertices in turn. -/
def preorderAll (fuel : Nat) : List α → List (α × Nat) → Option (List (α × Nat))
  | [], out => some out
  | start :: rest, out =>
    (preorder children fuel [(start, 0)] out).bind fun out => preorderAll fuel rest out

/-- `children` lists the vertices of `names` under each parent. -/
structure Lists (up : α → Option α) (names : List α) (children : α → List α) : Prop where
  mem : ∀ x c, c ∈ children x ↔ c ∈ names ∧ up c = some x
  nodup : ∀ x, (children x).Nodup

/-- A visited vertex has the depth its parent gives it, and its parent was
visited before. -/
def Placed (up : α → Option α) (pre : List (α × Nat)) (e : α × Nat) : Prop :=
  (up e.1 = none → e.2 = 0) ∧ ∀ p, up e.1 = some p → ∃ d, (p, d) ∈ pre ∧ e.2 = d + 1

/-- The vertices visited so far. -/
structure Visited (up : α → Option α) (names : List α) (out : List (α × Nat)) : Prop where
  nodup : (out.map Prod.fst).Nodup
  mem : ∀ e ∈ out, e.1 ∈ names
  placed : ∀ i e, out[i]? = some e → Placed up (out.take i) e

/-- The loop of one start: the stack is fresh and holds what is still missing. -/
structure Loop (up : α → Option α) (names : List α) (children : α → List α)
    (stack out : List (α × Nat)) : Prop where
  visited : Visited up names out
  fresh : (stack.map Prod.fst ++ out.map Prod.fst).Nodup
  mem : ∀ e ∈ stack, e.1 ∈ names
  placed : ∀ e ∈ stack, Placed up out e
  frontier : ∀ e ∈ out, ∀ c ∈ children e.1, c ∈ out.map Prod.fst ∨ c ∈ stack.map Prod.fst

variable {up : α → Option α} {names : List α} {children}

omit [DecidableEq α] in
theorem Placed.mono {pre pre' : List (α × Nat)} {e : α × Nat} (h : Placed up pre e)
    (hsub : pre ⊆ pre') : Placed up pre' e :=
  ⟨h.1, fun p hp => let ⟨d, hd, he⟩ := h.2 p hp; ⟨d, hsub hd, he⟩⟩

omit [DecidableEq α] in
theorem Visited.snoc {out : List (α × Nat)} (h : Visited up names out) {e : α × Nat}
    (hnew : e.1 ∉ out.map Prod.fst) (hmem : e.1 ∈ names) (hplaced : Placed up out e) :
    Visited up names (out ++ [e]) where
  nodup := by
    rw [List.map_append, List.nodup_append]
    refine ⟨h.nodup, by simp, ?_⟩
    rintro a ha b hb rfl
    simp only [List.map_cons, List.map_nil, List.mem_singleton] at hb
    exact hnew (hb ▸ ha)
  mem e' he' := by
    rcases List.mem_append.mp he' with he' | he'
    · exact h.mem e' he'
    · rw [List.mem_singleton.mp he']; exact hmem
  placed i e' he' := by
    by_cases hi : i < out.length
    · rw [List.getElem?_append_left hi] at he'
      rw [List.take_append_of_le_length hi.le]
      exact h.placed i e' he'
    · have hlast : i = out.length := by
        have := (List.getElem?_eq_some_iff.mp he').1
        rw [List.length_append, List.length_singleton] at this
        omega
      subst hlast
      rw [List.getElem?_concat_length] at he'
      cases he'
      rw [List.take_left]
      exact hplaced

omit [DecidableEq α] in
/-- **One step of the loop**: the vertex on top is visited and its children are
pushed. -/
theorem Loop.step (hc : Lists up names children) {x : α} {depth : Nat}
    {stack out : List (α × Nat)} (h : Loop up names children ((x, depth) :: stack) out) :
    x ∉ out.map Prod.fst ∧
      Loop up names children ((children x).map (fun c => (c, depth + 1)) ++ stack)
        (out ++ [(x, depth)]) := by
  have hfresh := h.fresh
  simp only [List.map_cons, List.cons_append, List.nodup_cons, List.mem_append, not_or] at hfresh
  obtain ⟨⟨hstack, hout⟩, hnd⟩ := hfresh
  have hchildren : ∀ c ∈ children x, up c = some x := fun c hcx => ((hc.mem x c).mp hcx).2
  -- a vertex whose parent has not been visited is neither visited nor on the stack
  have hnew : ∀ c ∈ children x, c ∉ out.map Prod.fst ∧ c ≠ x ∧ c ∉ stack.map Prod.fst := by
    intro c hcx
    have hup := hchildren c hcx
    refine ⟨fun hmem => ?_, fun heq => ?_, fun hmem => ?_⟩
    · obtain ⟨e, he, rfl⟩ := List.mem_map.mp hmem
      obtain ⟨i, hi⟩ := List.mem_iff_getElem?.mp he
      obtain ⟨d, hd, -⟩ := (h.visited.placed i e hi).2 x hup
      exact hout (List.mem_map.mpr ⟨_, List.mem_of_mem_take hd, rfl⟩)
    · subst heq
      obtain ⟨d, hd, -⟩ := (h.placed (c, depth) List.mem_cons_self).2 c hup
      exact hout (List.mem_map.mpr ⟨_, hd, rfl⟩)
    · obtain ⟨e, he, rfl⟩ := List.mem_map.mp hmem
      obtain ⟨d, hd, -⟩ := (h.placed e (List.mem_cons_of_mem _ he)).2 x hup
      exact hout (List.mem_map.mpr ⟨_, hd, rfl⟩)
  have hfst : ((children x).map fun c => (c, depth + 1)).map Prod.fst = children x := by
    rw [List.map_map]
    exact List.map_id _
  refine ⟨hout, h.visited.snoc hout (h.mem _ List.mem_cons_self) (h.placed _ List.mem_cons_self),
    ?_, ?_, ?_, ?_⟩
  · rw [List.map_append, hfst, List.map_append, List.append_assoc, List.nodup_append]
    refine ⟨hc.nodup x, ?_, ?_⟩
    · simp only [List.map_cons, List.map_nil]
      rw [← List.append_assoc, List.nodup_append]
      refine ⟨hnd, by simp, ?_⟩
      rintro a ha b hb rfl
      rw [List.mem_singleton.mp hb] at ha
      exact (List.mem_append.mp ha).elim hstack hout
    · rintro a ha b hb rfl
      obtain ⟨h1, h2, h3⟩ := hnew a ha
      simp only [List.map_cons, List.map_nil, List.mem_append, List.mem_singleton] at hb
      rcases hb with hb | hb | hb
      · exact h3 hb
      · exact h1 hb
      · exact h2 hb
  · intro e he
    rcases List.mem_append.mp he with he | he
    · obtain ⟨c, hcx, rfl⟩ := List.mem_map.mp he
      exact ((hc.mem x c).mp hcx).1
    · exact h.mem e (List.mem_cons_of_mem _ he)
  · intro e he
    rcases List.mem_append.mp he with he | he
    · obtain ⟨c, hcx, rfl⟩ := List.mem_map.mp he
      refine ⟨fun hnone => ?_, fun p hp => ?_⟩
      · rw [hchildren c hcx] at hnone; cases hnone
      · rw [hchildren c hcx] at hp
        cases hp
        exact ⟨depth, by simp, rfl⟩
    · exact (h.placed e (List.mem_cons_of_mem _ he)).mono (List.subset_append_left _ _)
  · intro e he c hce
    rcases List.mem_append.mp he with he | he
    · rcases h.frontier e he c hce with hin | hin
      · exact .inl (by simp only [List.map_append, List.mem_append]; exact .inl hin)
      · rw [List.map_cons, List.mem_cons] at hin
        rcases hin with rfl | hin
        · exact .inl (by simp)
        · exact .inr (by rw [List.map_append, List.mem_append]; exact .inr hin)
    · rw [List.mem_singleton.mp he] at hce
      exact .inr (by rw [List.map_append, hfst, List.mem_append]; exact .inl hce)

/-- **The whole loop**: what was visited stays, with the stack, closed under
children. -/
theorem preorder_spec (hc : Lists up names children) (fuel : Nat) :
    ∀ (stack out : List (α × Nat)), Loop up names children stack out →
      names.length + 1 ≤ fuel + out.length →
      ∃ out', preorder children fuel stack out = some out' ∧ Loop up names children [] out' ∧
        out ⊆ out' ∧ stack.map Prod.fst ⊆ out'.map Prod.fst := by
  induction fuel with
  | zero =>
    intro stack out h hlen
    have hsub : out.map Prod.fst ⊆ names := fun x hx => by
      obtain ⟨e, he, rfl⟩ := List.mem_map.mp hx
      exact h.visited.mem e he
    have := (h.visited.nodup.subperm hsub).length_le
    rw [List.length_map] at this
    omega
  | succ fuel ih =>
    intro stack out h hlen
    cases stack with
    | nil => exact ⟨out, rfl, h, List.Subset.refl _, by simp⟩
    | cons e stack =>
      obtain ⟨x, depth⟩ := e
      obtain ⟨hnew, h'⟩ := h.step hc
      obtain ⟨out', hout, hloop, hsub, hstack⟩ := ih _ _ h' (by simp; omega)
      refine ⟨out', by rw [preorder, if_neg hnew]; exact hout, hloop,
        fun e he => hsub (List.mem_append_left _ he), ?_⟩
      intro y hy
      rcases List.mem_cons.mp hy with rfl | hy
      · exact List.mem_map.mpr ⟨_, hsub (List.mem_append_right _ (List.mem_singleton_self _)), rfl⟩
      · refine hstack ?_
        rw [List.map_append, List.mem_append]
        exact .inr hy

theorem preorderAll_inv (hc : Lists up names children) {fuel : Nat}
    (hfuel : names.length + 2 ≤ fuel) :
    ∀ (starts : List α) (out : List (α × Nat)), Loop up names children [] out →
      (∀ s ∈ starts, s ∈ names ∧ up s = none) →
      ∃ out', preorderAll children fuel starts out = some out' ∧ Loop up names children [] out' ∧
        out ⊆ out' ∧ starts ⊆ out'.map Prod.fst := by
  intro starts
  induction starts with
  | nil => intro out h _; exact ⟨out, rfl, h, List.Subset.refl _, by simp⟩
  | cons start rest ih =>
    intro out h hstarts
    obtain ⟨hmem, htop⟩ := hstarts start List.mem_cons_self
    have hone : ∃ out', preorder children fuel [(start, 0)] out = some out' ∧
        Loop up names children [] out' ∧ out ⊆ out' ∧ start ∈ out'.map Prod.fst := by
      by_cases hin : start ∈ out.map Prod.fst
      · obtain ⟨fuel, rfl⟩ : ∃ n, fuel = n + 2 := ⟨fuel - 2, by omega⟩
        exact ⟨out, by simp only [preorder, if_pos hin], h, List.Subset.refl _, hin⟩
      · have hloop : Loop up names children [(start, 0)] out := by
          refine ⟨h.visited, ?_, ?_, ?_, fun e he c hce => .inl ?_⟩
          · simpa using ⟨by simpa using hin, h.visited.nodup⟩
          · intro e he; rw [List.mem_singleton.mp he]; exact hmem
          · intro e he
            rw [List.mem_singleton.mp he]
            exact ⟨fun _ => rfl, fun p hp => by rw [htop] at hp; cases hp⟩
          · simpa using h.frontier e he c hce
        obtain ⟨out', hout, h', hsub, hstack⟩ := preorder_spec hc fuel _ _ hloop (by omega)
        exact ⟨out', hout, h', hsub, hstack List.mem_cons_self⟩
    obtain ⟨out', hout, h', hsub, hstart⟩ := hone
    obtain ⟨out'', hall, h'', hsub', hrest⟩ :=
      ih out' h' fun s hs => hstarts s (List.mem_cons_of_mem _ hs)
    refine ⟨out'', by rw [preorderAll, hout, Option.bind_some]; exact hall, h'',
      fun e he => hsub' (hsub he), fun s hs => ?_⟩
    rcases List.mem_cons.mp hs with rfl | hs
    · exact List.map_subset Prod.fst hsub' hstart
    · exact hrest hs

/-- **A forest is visited whole**: from its tops, every vertex once, after its
parent and one deeper. -/
theorem preorderAll_spec (hc : Lists up names children) {fuel : Nat}
    (hfuel : names.length + 2 ≤ fuel) {starts : List α}
    (hstarts : ∀ s, s ∈ starts ↔ s ∈ names ∧ up s = none)
    (hup : ∀ x ∈ names, ∀ y, up x = some y → y ∈ names)
    (hends : ∀ x ∈ names, ∃ n, ancestor up n x = none) :
    ∃ out, preorderAll children fuel starts [] = some out ∧ Visited up names out ∧
      ∀ x, x ∈ out.map Prod.fst ↔ x ∈ names := by
  have hempty : Loop up names children [] [] := by
    refine ⟨⟨by simp, by simp, by simp⟩, by simp, by simp, by simp, by simp⟩
  obtain ⟨out, hout, h, -, hcover⟩ := preorderAll_inv hc hfuel starts [] hempty
    fun s hs => (hstarts s).mp hs
  refine ⟨out, hout, h.visited, fun x => ⟨fun hx => ?_, fun hx => ?_⟩⟩
  · obtain ⟨e, he, rfl⟩ := List.mem_map.mp hx
    exact h.visited.mem e he
  · obtain ⟨n, hn⟩ := hends x hx
    -- by induction on the way up to the top
    induction n generalizing x with
    | zero => cases hn
    | succ n ih =>
      cases hux : up x with
      | none => exact hcover ((hstarts x).mpr ⟨hx, hux⟩)
      | some p =>
        rw [ancestor, hux, Option.bind_some] at hn
        have hp := ih p (hup x hx p hux) hn
        obtain ⟨e, he, rfl⟩ := List.mem_map.mp hp
        rcases h.frontier e he x ((hc.mem e.1 x).mpr ⟨hx, hux⟩) with hin | hin
        · exact hin
        · cases hin

end Preorder

end JaspyNexus.Lib.ParentGraph
