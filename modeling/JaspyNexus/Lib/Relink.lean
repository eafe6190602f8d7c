import Mathlib

/-! # Moving links

Nodes belong to owners, and a node's link leads to a node or nowhere. An owner is
visited with the links as they are at the start of its visit: each of its nodes
takes the link it should have, and where that moves a link, the node that the old
link led to loses its own. So a visit may undo an earlier one. Visiting the owners
in any order gives every node the link it should have exactly when the links to
move are `Untangled` (`run_right`, `exists_lost`). -/

namespace JaspyNexus.Lib.Relink

universe u v
variable {ι : Type u} {δ : Type v} [DecidableEq ι]

abbrev Links (ι : Type u) := ι → Option ι

/-- The nodes, who owns them, and the links to be. -/
structure Net (ι : Type u) (δ : Type v) where
  nodes : List ι
  owner : ι → δ
  /-- the owners to visit -/
  owners : List δ
  /-- where the node should be linked, if anywhere -/
  goal : ι → Option ι
  /-- the link is as good as the one to the goal, and stays -/
  fits : ι → ι → Bool
  nodes_nodup : nodes.Nodup
  owners_nodup : owners.Nodup
  goal_mem : ∀ x, (goal x).isSome = true → x ∈ nodes ∧ owner x ∈ owners

namespace Net
variable (net : Net ι δ)

/-! ## Visits -/

/-- The node that the link leads to. -/
def farEnd (links : Links ι) (x : ι) : Option ι := (links x).filter fun y => y ∈ net.nodes

/-- A node's visit; `before` are the links at the start of its owner's. -/
def visit (before links : Links ι) (x : ι) : Links ι :=
  match net.goal x with
  | none => if before x = none then links else Function.update links x none
  | some g =>
    match net.farEnd before x with
    | some y =>
      if net.fits x y then links
      else Function.update (Function.update links x (some g)) y none
    | none => Function.update links x (some g)

/-- An owner's visit, its nodes in the order `rows`. -/
def ingest (links : Links ι) (rows : List ι) : Links ι := rows.foldl (net.visit links) links

def run (links : Links ι) (order : List (List ι)) : Links ι := order.foldl net.ingest links

def rowsOf [DecidableEq δ] (d : δ) : List ι := net.nodes.filter fun x => net.owner x = d

/-- Every owner is visited once, its nodes in some order. -/
def Covers [DecidableEq δ] (order : List (List ι)) : Prop :=
  ∃ ds, ds.Perm net.owners ∧ List.Forall₂ (fun d rows => rows.Perm (net.rowsOf d)) ds order

/-- The node's link leads to `y` and is to be moved. -/
structure Stale (links : Links ι) (x y : ι) : Prop where
  link : links x = some y
  mem : y ∈ net.nodes
  goal : (net.goal x).isSome = true
  unfit : net.fits x y = false

/-- The link a visit leaves, when nothing else touches the node. -/
def target (links : Links ι) (x : ι) : Option ι :=
  (net.goal x).map fun g => ((net.farEnd links x).filter fun y => net.fits x y).getD g

/-- **No move undoes another**: a link to be moved that leads to a node with a goal
leads to another owner's, and that owner has a link to be moved that leads back. -/
def Untangled (links : Links ι) : Prop :=
  ∀ x y, net.Stale links x y → (net.goal y).isSome = true →
    net.owner x ≠ net.owner y ∧ ∃ y', net.owner y' = net.owner y ∧ net.Stale links y' x

variable {net}

omit [DecidableEq ι] in
theorem mem_rowsOf [DecidableEq δ] {d : δ} {x : ι} : x ∈ net.rowsOf d ↔ x ∈ net.nodes ∧ net.owner x = d := by
  simp [rowsOf]

theorem farEnd_eq_some {links : Links ι} {x y : ι} :
    net.farEnd links x = some y ↔ links x = some y ∧ y ∈ net.nodes := by
  unfold farEnd
  rw [Option.filter_eq_some_iff, decide_eq_true_eq]

theorem Stale.farEnd {links : Links ι} {x y : ι} (h : net.Stale links x y) :
    net.farEnd links x = some y := farEnd_eq_some.mpr ⟨h.link, h.mem⟩

variable (net) in
/-- A node's visit clears the far end of a link that it moves, and no other node. -/
theorem visit_other (before links : Links ι) {x z : ι} (hne : z ≠ x) :
    (net.Stale before x z → net.visit before links x z = none) ∧
    (¬net.Stale before x z → net.visit before links x z = links z) := by
  unfold visit
  cases hgoal : net.goal x with
  | none =>
    have hnot : ¬net.Stale before x z := fun h => by simpa [hgoal] using h.goal
    refine ⟨fun h => absurd h hnot, fun _ => ?_⟩
    dsimp only
    split
    · rfl
    · exact Function.update_of_ne hne ..
  | some g =>
    dsimp only
    cases hy : net.farEnd before x with
    | some y =>
      obtain ⟨hlink, hmem⟩ := farEnd_eq_some.mp hy
      dsimp only
      split
      · next hfits =>
        refine ⟨fun h => ?_, fun _ => rfl⟩
        rw [Option.some.inj (hlink.symm.trans h.link), h.unfit] at hfits
        cases hfits
      · next hfits =>
        by_cases hyz : z = y
        · subst hyz
          have hstale : net.Stale before x z := ⟨hlink, hmem, by simp [hgoal], by simpa using hfits⟩
          exact ⟨fun _ => Function.update_self .., fun h => absurd hstale h⟩
        · refine ⟨fun h => absurd (Option.some.inj (h.link.symm.trans hlink)) hyz, fun _ => ?_⟩
          rw [Function.update_of_ne hyz, Function.update_of_ne hne]
    | none =>
      refine ⟨fun h => ?_, fun _ => Function.update_of_ne hne ..⟩
      rw [h.farEnd] at hy
      cases hy

/-- A node without a goal has no link after its visit. -/
theorem visit_self_none (before links : Links ι) {x : ι} (hgoal : net.goal x = none)
    (hlinks : links x = before x ∨ links x = none) : net.visit before links x x = none := by
  unfold visit
  rw [hgoal]
  dsimp only
  split
  · next hnone => exact hlinks.elim (fun h => h.trans hnone) id
  · exact Function.update_self ..

/-- A node that nothing has touched has its target after its visit, if its link
did not lead to itself. -/
theorem visit_self (before links : Links ι) {x : ι} (hself : ¬net.Stale before x x)
    (hlinks : links x = before x) : net.visit before links x x = net.target before x := by
  cases hgoal : net.goal x with
  | none => rw [visit_self_none before links hgoal (.inl hlinks)]; simp [target, hgoal]
  | some g =>
    unfold visit target
    rw [hgoal]
    dsimp only
    cases hy : net.farEnd before x with
    | some y =>
      obtain ⟨hlink, hmem⟩ := farEnd_eq_some.mp hy
      dsimp only
      split
      · next hfits => rw [hlinks, hlink, Option.map_some, Option.filter_some_pos hfits]; rfl
      · next hfits =>
        have hyx : x ≠ y := by
          rintro rfl
          exact hself ⟨hlink, hmem, by simp [hgoal], by simpa using hfits⟩
        rw [Function.update_of_ne hyx, Function.update_self, Option.map_some,
          Option.filter_some_neg (by simpa using hfits)]
        rfl
    | none => exact Function.update_self ..

/-- A node whose link leads to itself and is moved has none after its visit. -/
theorem visit_self_stale (before links : Links ι) {x : ι} (hself : net.Stale before x x) :
    net.visit before links x x = none := by
  obtain ⟨g, hg⟩ := Option.isSome_iff_exists.mp hself.goal
  unfold visit
  rw [hg, hself.farEnd]
  simp [hself.unfit]

/-! ## The visit of an owner -/

variable (net) in
/-- What the visits of some nodes do to another: it loses its link if one of theirs
led to it and was moved. -/
theorem foldl_visit_other (before : Links ι) (rows : List ι) {x : ι} (hx : x ∉ rows)
    (links : Links ι) :
    ((∃ w ∈ rows, net.Stale before w x) → rows.foldl (net.visit before) links x = none) ∧
    ((¬∃ w ∈ rows, net.Stale before w x) → rows.foldl (net.visit before) links x = links x) := by
  induction rows generalizing links with
  | nil => simp
  | cons w rows ih =>
    rw [List.mem_cons, not_or] at hx
    obtain ⟨hlost, hkept⟩ := ih hx.2 (net.visit before links w)
    obtain ⟨hlost', hkept'⟩ := net.visit_other before links hx.1
    rw [List.foldl_cons]
    by_cases hrows : ∃ w ∈ rows, net.Stale before w x
    · refine ⟨fun _ => hlost hrows, fun h => absurd ?_ h⟩
      obtain ⟨w', hw', hs⟩ := hrows
      exact ⟨w', List.mem_cons_of_mem _ hw', hs⟩
    · rw [hkept hrows]
      refine ⟨fun ⟨w', hw', hs⟩ => ?_, fun h => hkept' fun hs => h ⟨w, List.mem_cons_self, hs⟩⟩
      rcases List.mem_cons.mp hw' with rfl | hw'
      · exact hlost' hs
      · exact absurd ⟨w', hw', hs⟩ hrows

variable (net) in
theorem ingest_other (links : Links ι) {rows : List ι} {x : ι} (hx : x ∉ rows) :
    ((∃ w ∈ rows, net.Stale links w x) → net.ingest links rows x = none) ∧
    ((¬∃ w ∈ rows, net.Stale links w x) → net.ingest links rows x = links x) :=
  net.foldl_visit_other links rows hx links

variable (net) in
/-- The visit of a node, between those of the nodes before it and after it. -/
theorem exists_visit (links : Links ι) {rows : List ι} (hnd : rows.Nodup) {x : ι} (hx : x ∈ rows) :
    ∃ pre post, rows = pre ++ x :: post ∧ x ∉ pre ∧ x ∉ post ∧ net.ingest links rows =
      post.foldl (net.visit links) (net.visit links (pre.foldl (net.visit links) links) x) := by
  obtain ⟨pre, post, rfl⟩ := List.append_of_mem hx
  rw [List.nodup_append, List.nodup_cons] at hnd
  refine ⟨pre, post, rfl, fun h => hnd.2.2 x h x List.mem_cons_self rfl, hnd.2.1.1, ?_⟩
  rw [ingest, List.foldl_append, List.foldl_cons]

/-- A node of the owner that no moved link leads to gets its target. -/
theorem ingest_self {links : Links ι} {rows : List ι} (hnd : rows.Nodup) {x : ι} (hx : x ∈ rows)
    (hfree : ¬∃ w ∈ rows, net.Stale links w x) : net.ingest links rows x = net.target links x := by
  obtain ⟨pre, post, rfl, hpre, hpost, hingest⟩ := net.exists_visit links hnd hx
  rw [hingest, (net.foldl_visit_other links post hpost _).2 fun ⟨w, hw, hs⟩ => hfree ⟨w, by simp [hw], hs⟩]
  refine visit_self links _ (fun hs => hfree ⟨x, hx, hs⟩) ?_
  exact (net.foldl_visit_other links pre hpre _).2 fun ⟨w, hw, hs⟩ => hfree ⟨w, by simp [hw], hs⟩

/-- A node of the owner without a goal has no link. -/
theorem ingest_self_none {links : Links ι} {rows : List ι} (hnd : rows.Nodup) {x : ι} (hx : x ∈ rows)
    (hgoal : net.goal x = none) : net.ingest links rows x = none := by
  obtain ⟨pre, post, -, hpre, hpost, hingest⟩ := net.exists_visit links hnd hx
  rw [hingest]
  obtain ⟨hlost, hkept⟩ := net.foldl_visit_other links pre hpre links
  have hvisit : net.visit links (pre.foldl (net.visit links) links) x x = none := by
    refine visit_self_none links _ hgoal ?_
    by_cases h : ∃ w ∈ pre, net.Stale links w x
    · exact .inr (hlost h)
    · exact .inl (hkept h)
  obtain ⟨hlost, hkept⟩ := net.foldl_visit_other links post hpost
    (net.visit links (pre.foldl (net.visit links) links) x)
  by_cases h : ∃ w ∈ post, net.Stale links w x
  · exact hlost h
  · exact (hkept h).trans hvisit

/-- A node visited first, that a moved link of its owner leads to, loses its link. -/
theorem ingest_lost {links : Links ι} {x : ι} {rest : List ι} (hx : x ∉ rest)
    (hstale : ∃ w ∈ x :: rest, net.Stale links w x) : net.ingest links (x :: rest) x = none := by
  unfold ingest
  rw [List.foldl_cons]
  obtain ⟨hlost, hkept⟩ := net.foldl_visit_other links rest hx (net.visit links links x)
  by_cases h : ∃ w ∈ rest, net.Stale links w x
  · exact hlost h
  · obtain ⟨w, hw, hs⟩ := hstale
    rcases List.mem_cons.mp hw with rfl | hw
    · exact (hkept h).trans (visit_self_stale links links hs)
    · exact absurd ⟨w, hw, hs⟩ h

/-! ## Links that are moved in pairs -/

variable [DecidableEq δ] {links₀ : Links ι}

/-- The nodes of `d` with a link to be moved that leads to a node of `e` with a goal. -/
def crossing (net : Net ι δ) (links : Links ι) (d e : δ) : Finset ι :=
  net.nodes.toFinset.filter fun x => net.owner x = d ∧ (net.goal x).isSome = true ∧
    ∃ y ∈ net.nodes, links x = some y ∧ net.fits x y = false ∧ (net.goal y).isSome = true ∧
      net.owner y = e

theorem mem_crossing {d e : δ} {x : ι} : x ∈ net.crossing links₀ d e ↔
    net.owner x = d ∧ ∃ y, net.Stale links₀ x y ∧ (net.goal y).isSome = true ∧ net.owner y = e := by
  unfold crossing
  rw [Finset.mem_filter, List.mem_toFinset]
  constructor
  · rintro ⟨-, hd, hgoal, y, hy, hlink, hunfit, hgoal', he⟩
    exact ⟨hd, y, ⟨hlink, hy, hgoal, hunfit⟩, hgoal', he⟩
  · rintro ⟨hd, y, hs, hgoal', he⟩
    exact ⟨(net.goal_mem x hs.goal).1, hd, hs.goal, y, hs.mem, hs.link, hs.unfit, hgoal', he⟩

/-- Every node of a crossing is led to by a link of the crossing back. -/
theorem crossing_subset (h : net.Untangled links₀) (d e : δ) :
    (net.crossing links₀ d e).image some ⊆ (net.crossing links₀ e d).image links₀ := by
  intro o ho
  obtain ⟨x, hx, rfl⟩ := Finset.mem_image.mp ho
  obtain ⟨rfl, y, hs, hgoal, rfl⟩ := mem_crossing.mp hx
  obtain ⟨-, y', howner, hback⟩ := h x y hs hgoal
  exact Finset.mem_image.mpr ⟨y', mem_crossing.mpr ⟨howner, x, hback, hs.goal, rfl⟩, hback.link⟩

/-- **Moved links come in pairs of crossings**: where no move undoes another, the
node that a moved link leads to has itself a moved link, back to the same owner. -/
theorem Untangled.back (h : net.Untangled links₀) {x y : ι} (hs : net.Stale links₀ x y)
    (hgoal : (net.goal y).isSome = true) :
    ∃ z, net.Stale links₀ y z ∧ net.owner z = net.owner x := by
  -- the two crossings lead onto each other, so neither is larger
  have hcard : ∀ d e, (net.crossing links₀ d e).card ≤ (net.crossing links₀ e d).card := fun d e =>
    calc (net.crossing links₀ d e).card
        = ((net.crossing links₀ d e).image some).card :=
          (Finset.card_image_of_injective _ (Option.some_injective ι)).symm
      _ ≤ ((net.crossing links₀ e d).image links₀).card := Finset.card_le_card (crossing_subset h d e)
      _ ≤ (net.crossing links₀ e d).card := Finset.card_image_le
  have hle : ((net.crossing links₀ (net.owner x) (net.owner y)).image links₀).card ≤
      ((net.crossing links₀ (net.owner y) (net.owner x)).image some).card :=
    calc _ ≤ (net.crossing links₀ (net.owner x) (net.owner y)).card := Finset.card_image_le
      _ ≤ (net.crossing links₀ (net.owner y) (net.owner x)).card := hcard _ _
      _ = _ := (Finset.card_image_of_injective _ (Option.some_injective ι)).symm
  have heq := Finset.eq_of_subset_of_card_le (crossing_subset h (net.owner y) (net.owner x)) hle
  have hy : some y ∈ (net.crossing links₀ (net.owner x) (net.owner y)).image links₀ :=
    Finset.mem_image.mpr ⟨x, mem_crossing.mpr ⟨rfl, y, hs, hgoal, rfl⟩, hs.link⟩
  rw [← heq] at hy
  obtain ⟨y', hy', he⟩ := Finset.mem_image.mp hy
  obtain ⟨-, z, hback, -, hz⟩ := mem_crossing.mp hy'
  rw [Option.some.inj he] at hback
  exact ⟨z, hback, hz⟩

/-! ## Runs -/

/-- **In the middle of a run**, with the owners in `done` visited: their nodes have
their targets, a node still to be visited has the link it had or lost it to a link
moved by a visited owner, and no link still to be moved leads to a visited node. -/
structure Midway (net : Net ι δ) (links₀ : Links ι) (done : List δ) (links : Links ι) : Prop where
  visited : ∀ x ∈ net.nodes, net.owner x ∈ done → links x = net.target links₀ x
  unvisited : ∀ x ∈ net.nodes, net.owner x ∉ done → links x = links₀ x ∨
    (links x = none ∧ ∃ w, net.owner w ∈ done ∧ net.Stale links₀ w x)
  safe : ∀ w x, net.Stale links₀ w x → (net.goal x).isSome = true → net.owner x ∈ done →
    net.owner w ∉ done → links w = none

omit [DecidableEq δ] in
theorem Midway.stale {done : List δ} {links : Links ι} (hm : Midway net links₀ done links) {w x : ι}
    (hw : net.owner w ∉ done) (hs : net.Stale links w x) : net.Stale links₀ w x := by
  rcases hm.unvisited w (net.goal_mem w hs.goal).1 hw with h | ⟨h, -⟩
  · exact ⟨h.symm.trans hs.link, hs.mem, hs.goal, hs.unfit⟩
  · exact absurd (h.symm.trans hs.link) (by simp)

/-- The next owner's visit. -/
theorem Midway.ingest (h : net.Untangled links₀) {done : List δ} {links : Links ι}
    (hm : Midway net links₀ done links) {d : δ} (hd : d ∉ done) {rows : List ι}
    (hrows : rows.Perm (net.rowsOf d)) : Midway net links₀ (d :: done) (net.ingest links rows) := by
  have hmem : ∀ x, x ∈ rows ↔ x ∈ net.nodes ∧ net.owner x = d :=
    fun x => hrows.mem_iff.trans mem_rowsOf
  have hnd : rows.Nodup := hrows.nodup_iff.mpr (net.nodes_nodup.filter _)
  have hfresh : ∀ w ∈ rows, net.owner w ∉ done := fun w hw => by rw [((hmem w).mp hw).2]; exact hd
  have hother : ∀ x, net.owner x ≠ d → x ∉ rows := fun x hx hr => hx ((hmem x).mp hr).2
  -- a link that leads to a visited node is no longer there to be moved
  have hdone : ∀ x, net.owner x ∈ done → (net.goal x).isSome = true →
      ¬∃ w ∈ rows, net.Stale links w x := by
    rintro x hx hgoal ⟨w, hw, hs⟩
    have hgone := hm.safe w x (hm.stale (hfresh w hw) hs) hgoal hx (hfresh w hw)
    exact absurd (hgone.symm.trans hs.link) (by simp)
  refine ⟨fun x hx hown => ?_, fun x hx hown => ?_, fun w x hs hgoal hx hw => ?_⟩
  · by_cases hxd : net.owner x = d
    · have hxr : x ∈ rows := (hmem x).mpr ⟨hx, hxd⟩
      cases hgoal : net.goal x with
      | none => rw [ingest_self_none hnd hxr hgoal]; simp [target, hgoal]
      | some g =>
        have hsome : (net.goal x).isSome = true := by simp [hgoal]
        rw [ingest_self hnd hxr]
        · rcases hm.unvisited x hx (hfresh x hxr) with hsame | ⟨hnone, w, hw, hs⟩
          · simp [target, farEnd, hsame]
          · -- the link was lost to a moved one, and was to be moved itself
            obtain ⟨z, hz, -⟩ := h.back hs hsome
            have hgone : net.farEnd links x = none := by simp [farEnd, hnone]
            have hfits := hz.unfit
            rw [target, target, hgone, hz.farEnd, Option.filter_some_neg hfits]
            rfl
        · rintro ⟨w, hw, hs⟩
          exact (h w x (hm.stale (hfresh w hw) hs) hsome).1 (((hmem w).mp hw).2.trans hxd.symm)
    · have hxdone : net.owner x ∈ done := by simpa [hxd] using hown
      obtain ⟨hlost, hkept⟩ := net.ingest_other links (hother x hxd)
      cases hgoal : net.goal x with
      | none =>
        have hnone : net.target links₀ x = none := by simp [target, hgoal]
        by_cases hs : ∃ w ∈ rows, net.Stale links w x
        · rw [hlost hs, hnone]
        · rw [hkept hs, hm.visited x hx hxdone]
      | some g => rw [hkept (hdone x hxdone (by simp [hgoal])), hm.visited x hx hxdone]
  · rw [List.mem_cons, not_or] at hown
    obtain ⟨hlost, hkept⟩ := net.ingest_other links (hother x hown.1)
    by_cases hs : ∃ w ∈ rows, net.Stale links w x
    · obtain ⟨w, hw, hsw⟩ := hs
      exact .inr ⟨hlost ⟨w, hw, hsw⟩, w, by simp [((hmem w).mp hw).2], hm.stale (hfresh w hw) hsw⟩
    · rw [hkept hs]
      rcases hm.unvisited x hx hown.2 with hsame | ⟨hnone, w, hw, hsw⟩
      · exact .inl hsame
      · exact .inr ⟨hnone, w, List.mem_cons_of_mem _ hw, hsw⟩
  · rw [List.mem_cons, not_or] at hw
    obtain ⟨hlost, hkept⟩ := net.ingest_other links (hother w hw.1)
    rcases List.mem_cons.mp hx with hx | hx
    · -- a link of the owner leads back, and clears the one still to be moved
      refine hlost ?_
      obtain ⟨-, x', howner, hback⟩ := h w x hs hgoal
      have hx' : x' ∈ rows := (hmem x').mpr ⟨(net.goal_mem x' hback.goal).1, howner.trans hx⟩
      refine ⟨x', hx', ?_⟩
      rcases hm.unvisited x' (net.goal_mem x' hback.goal).1 (hfresh x' hx') with hsame | ⟨-, v, hv, hsv⟩
      · exact ⟨hsame.trans hback.link, hback.mem, hback.goal, hback.unfit⟩
      · obtain ⟨z, hz, hzv⟩ := h.back hsv hback.goal
        rw [Option.some.inj (hback.link.symm.trans hz.link)] at hw
        exact absurd (hzv ▸ hv) hw.2
    · by_cases hsw : ∃ v ∈ rows, net.Stale links v w
      · exact hlost hsw
      · rw [hkept hsw]
        exact hm.safe w x hs hgoal hx hw.2

theorem midway_run (h : net.Untangled links₀) {ds : List δ} {order : List (List ι)}
    (hds : List.Forall₂ (fun d rows => rows.Perm (net.rowsOf d)) ds order) {done : List δ}
    {links : Links ι} (hm : Midway net links₀ done links) (hnd : ds.Nodup)
    (hdisj : ∀ d ∈ ds, d ∉ done) : ∃ done', (∀ d, d ∈ done' ↔ d ∈ ds ∨ d ∈ done) ∧
      Midway net links₀ done' (net.run links order) := by
  induction hds generalizing done links with
  | nil => exact ⟨done, by simp, hm⟩
  | @cons d rows ds order hrows hds ih =>
    rw [List.nodup_cons] at hnd
    obtain ⟨done', hmem, hm'⟩ := ih (hm.ingest h (hdisj d List.mem_cons_self) hrows) hnd.2
      fun e he => by
        rw [List.mem_cons, not_or]
        exact ⟨fun hed => hnd.1 (hed ▸ he), hdisj e (List.mem_cons_of_mem _ he)⟩
    exact ⟨done', fun e => by rw [hmem e]; simp only [List.mem_cons]; tauto, hm'⟩

/-- **Any order gives every node its target**, when no move undoes another. -/
theorem run_right (h : net.Untangled links₀) {order : List (List ι)} (hcov : net.Covers order) {x : ι}
    (hx : x ∈ net.nodes) (howner : net.owner x ∈ net.owners) :
    net.run links₀ order x = net.target links₀ x := by
  obtain ⟨ds, hperm, hds⟩ := hcov
  have hstart : Midway net links₀ [] links₀ :=
    ⟨fun _ _ h => absurd h List.not_mem_nil, fun _ _ _ => .inl rfl,
      fun _ _ _ _ h => absurd h List.not_mem_nil⟩
  obtain ⟨done, hmem, hm⟩ := midway_run h hds hstart (hperm.nodup_iff.mpr net.owners_nodup)
    fun _ _ h => absurd h List.not_mem_nil
  exact hm.visited x hx ((hmem _).mpr (.inl (hperm.mem_iff.mpr howner)))

/-! ## When a link is lost -/

/-- A node that is visited and then led to by a link that another visit moves stays
without a link. -/
theorem run_lost {ds : List δ} {order : List (List ι)}
    (hds : List.Forall₂ (fun d rows => rows.Perm (net.rowsOf d)) ds order) {x : ι}
    (hx : net.owner x ∉ ds) {links : Links ι} (hlost : links x = none) :
    net.run links order x = none := by
  induction hds generalizing links with
  | nil => exact hlost
  | @cons d rows ds order hrows hds ih =>
    rw [List.mem_cons, not_or] at hx
    have hxr : x ∉ rows := fun h => hx.1 (mem_rowsOf.mp (hrows.mem_iff.mp h)).2
    obtain ⟨hcleared, hkept⟩ := net.ingest_other links hxr
    refine ih hx.2 ?_
    by_cases hs : ∃ w ∈ rows, net.Stale links w x
    · exact hcleared hs
    · exact (hkept hs).trans hlost

omit [DecidableEq ι] in
/-- Every owner's nodes as they are listed. -/
theorem forall₂_rowsOf (net : Net ι δ) (ds : List δ) :
    List.Forall₂ (fun d rows => rows.Perm (net.rowsOf d)) ds (ds.map net.rowsOf) := by
  rw [List.forall₂_map_right_iff]
  exact List.forall₂_same.mpr fun _ _ => List.Perm.refl _

/-- **Where a move undoes another, some order loses a link**: a node with a goal ends
up without one. -/
theorem exists_lost (h : ¬net.Untangled links₀) : ∃ order, net.Covers order ∧
    ∃ x, (net.goal x).isSome = true ∧ net.run links₀ order x = none := by
  unfold Untangled at h
  push Not at h
  obtain ⟨w, x, hs, hgoal, hbad⟩ := h
  obtain ⟨hxn, hxo⟩ := net.goal_mem x hgoal
  obtain ⟨hwn, hwo⟩ := net.goal_mem w hs.goal
  by_cases howner : net.owner w = net.owner x
  · -- the owner first, and of its nodes the one that is led to
    obtain ⟨ds, hds⟩ : ∃ ds, net.owners.Perm (net.owner x :: ds) := ⟨_, List.perm_cons_erase hxo⟩
    have hnd := hds.nodup_iff.mp net.owners_nodup
    rw [List.nodup_cons] at hnd
    obtain ⟨rest, hrest⟩ : ∃ rest, (net.rowsOf (net.owner x)).Perm (x :: rest) :=
      ⟨_, List.perm_cons_erase (mem_rowsOf.mpr ⟨hxn, rfl⟩)⟩
    have hrn := hrest.nodup_iff.mp (net.nodes_nodup.filter _)
    rw [List.nodup_cons] at hrn
    refine ⟨(x :: rest) :: ds.map net.rowsOf,
      ⟨net.owner x :: ds, hds.symm, .cons hrest.symm (forall₂_rowsOf net ds)⟩, x, hgoal, ?_⟩
    refine run_lost (forall₂_rowsOf net ds) hnd.1 (ingest_lost hrn.1 ⟨w, ?_, hs⟩)
    exact hrest.mem_iff.mp (mem_rowsOf.mpr ⟨hwn, howner⟩)
  · -- first the owner of the node led to, then the other
    obtain ⟨ds, hds⟩ : ∃ ds, net.owners.Perm (net.owner x :: ds) := ⟨_, List.perm_cons_erase hxo⟩
    have hwds : net.owner w ∈ ds := by
      have := hds.mem_iff.mp hwo
      simpa [howner] using this
    obtain ⟨ds', hds'⟩ : ∃ ds', ds.Perm (net.owner w :: ds') := ⟨_, List.perm_cons_erase hwds⟩
    have hperm : (net.owner x :: net.owner w :: ds').Perm net.owners :=
      ((hds'.cons _).symm).trans hds.symm
    have hnd := hperm.nodup_iff.mpr net.owners_nodup
    rw [List.nodup_cons, List.mem_cons, not_or] at hnd
    refine ⟨net.rowsOf (net.owner x) :: net.rowsOf (net.owner w) :: ds'.map net.rowsOf,
      ⟨_, hperm, .cons (List.Perm.refl _) (.cons (List.Perm.refl _) (forall₂_rowsOf net ds'))⟩, x, hgoal, ?_⟩
    refine run_lost (forall₂_rowsOf net ds') hnd.1.2 ?_
    have hwx : w ∉ net.rowsOf (net.owner x) := fun h => howner (mem_rowsOf.mp h).2
    have hxw : x ∉ net.rowsOf (net.owner w) := fun h => howner (mem_rowsOf.mp h).2.symm
    -- the first visit leaves the link that leads to it
    have hkept := (net.ingest_other links₀ hwx).2 fun ⟨y', hy', hback⟩ =>
      hbad howner y' (mem_rowsOf.mp hy').2 hback
    refine (net.ingest_other _ hxw).1 ⟨w, mem_rowsOf.mpr ⟨hwn, rfl⟩, hkept.trans hs.link, hs.mem, hs.goal, hs.unfit⟩

end Net
end JaspyNexus.Lib.Relink
