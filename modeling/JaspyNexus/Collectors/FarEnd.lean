import Mathlib
import JaspyNexus.Collectors.PortChannel

/-! # The far end of a bundle

Two devices with any number of bundles between them, each the mirror image of one at the
other side. The far end of a bundle is taken to be the first aggregate there that names
this device as its partner, so bundles of different sizes are held against the wrong
one. -/

namespace JaspyNexus.Collectors.Lagpoller
open JaspyNexus.Lib

/-- The number of members. -/
def LagGroup.size (group : LagGroup) : Nat := group.members.entries.length

/-! ## Mirror images -/

/-- One of two devices, and what its aggregates are checked with. -/
structure Side where
  fqdn : String
  systemId : String
  lags : DeviceLags
  /-- what is known of an aggregate's members -/
  info : Int → PMap Int MemberMeta
  /-- the aggregates of the devices that an aggregate's members lead to -/
  peerLags : Int → PMap String DeviceLags

/-- The aggregates towards the other device, by ifIndex. -/
def Side.bundles (a b : Side) : List (Int × LagGroup) :=
  (HashMap.byKey a.lags.groups).filter fun e => e.2.partnerSystemId = some b.systemId

/-- The warnings about one of the aggregates. -/
def Side.warnings (a : Side) (e : Int × LagGroup) : List String :=
  portChannelWarnings e.2 (a.info e.1) (a.peerLags e.1)

/-- The aggregates towards the other device have this one for their actor and are wired to
the other one, which has been polled. -/
structure Faces (a b : Side) : Prop where
  actor : ∀ e ∈ a.bundles b, e.2.actorSystemId = some a.systemId
  wired : ∀ e ∈ a.bundles b, ∀ i ∈ e.2.members, (a.info e.1 i).bind MemberMeta.connectedToFqdn = some b.fqdn
  polled : ∀ e ∈ a.bundles b, a.peerLags e.1 b.fqdn = some b.lags

/-- **Mirror images**: each bundle corresponds to one at the other side with as many members. -/
structure Mirror (a b : Side) : Prop where
  ab : Faces a b
  ba : Faces b a
  paired : ∃ pairs : List (LagGroup × LagGroup),
    ((a.bundles b).map Prod.snd).Perm (pairs.map Prod.fst) ∧
    ((b.bundles a).map Prod.snd).Perm (pairs.map Prod.snd) ∧ ∀ p ∈ pairs, p.1.size = p.2.size

/-- **The law**: nothing is raised about the far ends. -/
def Quiet (a b : Side) : Prop :=
  ∀ e ∈ a.bundles b, "far-end-lag-not-found" ∉ a.warnings e ∧ "far-end-member-count-mismatch" ∉ a.warnings e

/-- The other side's first bundle has as many members as any of these that has some. -/
def SizedAs (a b : Side) : Prop :=
  ∀ e ∈ a.bundles b, 0 < e.2.size → ∀ first, (b.bundles a).head? = some first → first.2.size = e.2.size

/-! ## One aggregate -/

section
variable {group : LagGroup} {info : PMap Int MemberMeta} {peerLags : PMap String DeviceLags}

/-- The codes about the far end are not among the others. -/
theorem mem_farEnd {code : String} (hcode : code.toList.head? = some 'f') :
    code ∈ portChannelWarnings group info peerLags ↔ code ∈ group.farEndWarnings info peerLags := by
  have hmember : code ∉ group.memberWarnings info := by
    intro h
    obtain ⟨e, -, he⟩ := List.mem_filterMap.mp h
    obtain ⟨memberCode, hmember, rfl⟩ := Option.map_eq_some_iff.mp he
    unfold Lagpoller.memberCode at hmember
    split at hmember
    · cases hmember
      simp at hcode
    · split at hmember <;> cases hmember
      simp at hcode
  have hlacp : code ≠ "not-lacp:" ++ group.protocol := by
    rintro rfl
    simp at hcode
  have hsingle : code ≠ "single-member" := by rintro rfl; simp at hcode
  have hpartners : code ≠ "members-report-different-partners" := by rintro rfl; simp at hcode
  have hwired : code ≠ "members-wired-to-different-devices" := by rintro rfl; simp at hcode
  simp [portChannelWarnings, hmember, hlacp, hsingle, hpartners, hwired]

/-- All members of a bundle lead to one device. -/
theorem peerFqdns_wired {fqdn : String}
    (hwired : ∀ i ∈ group.members, (info i).bind MemberMeta.connectedToFqdn = some fqdn) :
    group.peerFqdns info = if 0 < group.size then [fqdn] else [] := by
  have hall : (HashMap.byKey group.members).filterMap (fun e => (info e.1).bind MemberMeta.connectedToFqdn) =
      List.replicate group.size fqdn := by
    have hconst : ∀ e ∈ HashMap.byKey group.members,
        (info e.1).bind MemberMeta.connectedToFqdn = some fqdn := fun e he =>
      hwired e.1 (HashMap.mem_iff_lookup.mpr ⟨e.2, HashMap.mem_byKey.mp he⟩)
    rw [List.filterMap_congr hconst]
    show List.filterMap (some ∘ fun _ => fqdn) _ = _
    rw [List.filterMap_eq_map, List.map_const', HashMap.length_byKey]
    rfl
  rw [LagGroup.peerFqdns, hall]
  split
  next hpos => exact List.replicate_dedup hpos.ne'
  next hzero => rw [Nat.eq_zero_of_not_pos hzero]; rfl

end

/-! ## Both sides -/

section
variable {a b : Side}

/-- The aggregate that is taken for the far end is the other side's first bundle. -/
theorem facing_eq (a b : Side) : b.lags.facing a.systemId = ((b.bundles a).head?).map Prod.snd := by
  rw [DeviceLags.facing, Side.bundles, List.head?_filter]

/-- The checks of a bundle against the far end. -/
theorem farEndWarnings_faces (h : Faces a b) {e : Int × LagGroup} (he : e ∈ a.bundles b) :
    e.2.farEndWarnings (a.info e.1) (a.peerLags e.1) =
      if 0 < e.2.size then
        match (b.bundles a).head? with
        | none => ["far-end-lag-not-found"]
        | some first => if first.2.size ≠ e.2.size then ["far-end-member-count-mismatch"] else []
      else [] := by
  rw [LagGroup.farEndWarnings, peerFqdns_wired (h.wired e he)]
  by_cases hpos : 0 < e.2.size
  · rw [if_pos hpos, if_pos hpos]
    dsimp only
    rw [h.polled e he, h.actor e he]
    dsimp only
    rw [facing_eq]
    cases (b.bundles a).head? <;> rfl
  · rw [if_neg hpos, if_neg hpos]

/-- Where there is a bundle, there is one at the other side. -/
theorem Mirror.other (h : Mirror a b) (hsome : a.bundles b ≠ []) : b.bundles a ≠ [] := by
  obtain ⟨pairs, hab, hba, -⟩ := h.paired
  intro hnone
  rw [hnone, List.map_nil, List.nil_perm, List.map_eq_nil_iff] at hba
  rw [hba, List.map_nil, List.perm_nil, List.map_eq_nil_iff] at hab
  exact hsome hab

theorem Mirror.symm (h : Mirror a b) : Mirror b a := by
  obtain ⟨pairs, hab, hba, hsize⟩ := h.paired
  refine ⟨h.ba, h.ab, pairs.map Prod.swap, ?_, ?_, ?_⟩
  · simpa [List.map_map, Function.comp_def] using hba
  · simpa [List.map_map, Function.comp_def] using hab
  · intro p hp
    obtain ⟨q, hq, rfl⟩ := List.mem_map.mp hp
    exact (hsize q hq).symm

/-- One side is quiet when its bundles are as large as the other side's first. -/
theorem quiet_iff (h : Mirror a b) : Quiet a b ↔ SizedAs a b := by
  refine forall₂_congr fun e he => ?_
  rw [Side.warnings, mem_farEnd (by rfl), mem_farEnd (by rfl), farEndWarnings_faces h.ab he]
  obtain ⟨first, rest, hbundles⟩ := List.exists_cons_of_ne_nil (h.other (List.ne_nil_of_mem he))
  rw [hbundles]
  by_cases hpos : 0 < e.2.size
  · by_cases hsize : first.2.size = e.2.size
    · simp [hpos, hsize]
    · simp [hpos, hsize]
  · simp [hpos]

end

/-- Where every bundle has members, the condition is that all are of one size. -/
theorem sizedAs_iff_of_members {a b : Side} (h : Mirror a b)
    (hmembers : ∀ e ∈ a.bundles b ++ b.bundles a, 0 < e.2.size) :
    (SizedAs a b ∧ SizedAs b a) ↔ ∃ n, ∀ e ∈ a.bundles b ++ b.bundles a, e.2.size = n := by
  constructor
  · intro ⟨hab, hba⟩
    cases hb : b.bundles a with
    | nil =>
      have ha : a.bundles b = [] := by
        by_contra hsome
        exact h.other hsome hb
      exact ⟨0, by simp [ha]⟩
    | cons first rest =>
      refine ⟨first.2.size, fun e he => ?_⟩
      rcases List.mem_append.mp he with he | he
      · exact (hab e he (hmembers e (by simp [he])) first (by rw [hb]; rfl)).symm
      · rw [← hb] at he
        obtain ⟨own, others, ha⟩ := List.exists_cons_of_ne_nil (h.symm.other (List.ne_nil_of_mem he))
        have hown : own ∈ a.bundles b := by rw [ha]; exact List.mem_cons_self
        have hfirst := hab own hown (hmembers own (by simp [hown])) first (by rw [hb]; rfl)
        exact ((hba e he (hmembers e (by simp [he])) own (by rw [ha]; rfl)).symm).trans hfirst.symm
  · intro ⟨n, hn⟩
    have hsize : ∀ c d : Side, (∀ e ∈ c.bundles d ++ d.bundles c, e.2.size = n) → SizedAs c d := by
      intro c d hall e he _ first hfirst
      rw [hall e (by simp [he]), hall first (by simp [List.mem_of_mem_head? hfirst])]
    exact ⟨hsize a b hn, hsize b a fun e he => hn e (by simpa [or_comm] using he)⟩

/-- **Neither side raises anything about the far ends** exactly when the bundles of each
have as many members as the first one of the other. -/
theorem mirror_quiet_iff {a b : Side} (h : Mirror a b) :
    (Quiet a b ∧ Quiet b a) ↔ (SizedAs a b ∧ SizedAs b a) :=
  and_congr (quiet_iff h) (quiet_iff h.symm)

/-! ## Bundles of two sizes -/

/-- An LACP member that is up. -/
def joined : LagMember := ⟨["synchronization", "collecting", "distributing"], [], none, none⟩

/-- A bundle with the members from `first` on. -/
def bundleOf (actor partner : String) (first : Int) (size : Nat) : LagGroup :=
  ⟨"lacp", some actor, some partner, (List.range size).foldl (fun members i =>
    members.insert (first + i) joined) ∅⟩

/-- A switch with two bundles to the peer, and the peer's aggregates. -/
def sideOf (fqdn peerFqdn systemId peerId : String) (size₁ size₂ : Nat) : Side :=
  let lags := fun actor partner => (⟨AList.insert 1 (bundleOf actor partner 11 size₁)
    (AList.insert 2 (bundleOf actor partner 21 size₂) ∅)⟩ : DeviceLags)
  { fqdn := fqdn
    systemId := systemId
    lags := lags systemId peerId
    info := fun _ => fun _ => some ⟨"port", some peerFqdn⟩
    peerLags := fun _ f => if f = peerFqdn then some (lags peerId systemId) else none }

def left (size₁ size₂ : Nat) : Side := sideOf "a.lan" "b.lan" "00:00:00:00:00:0a" "00:00:00:00:00:0b" size₁ size₂

def right (size₁ size₂ : Nat) : Side := sideOf "b.lan" "a.lan" "00:00:00:00:00:0b" "00:00:00:00:00:0a" size₁ size₂

theorem left_bundles (size₁ size₂ : Nat) : (left size₁ size₂).bundles (right size₁ size₂) =
    [(1, bundleOf "00:00:00:00:00:0a" "00:00:00:00:00:0b" 11 size₁),
      (2, bundleOf "00:00:00:00:00:0a" "00:00:00:00:00:0b" 21 size₂)] := by rfl

theorem right_bundles (size₁ size₂ : Nat) : (right size₁ size₂).bundles (left size₁ size₂) =
    [(1, bundleOf "00:00:00:00:00:0b" "00:00:00:00:00:0a" 11 size₁),
      (2, bundleOf "00:00:00:00:00:0b" "00:00:00:00:00:0a" 21 size₂)] := by rfl

theorem left_right_mirror (size₁ size₂ : Nat) : Mirror (left size₁ size₂) (right size₁ size₂) := by
  refine ⟨⟨?_, fun _ _ _ _ => rfl, fun _ _ => rfl⟩, ⟨?_, fun _ _ _ _ => rfl, fun _ _ => rfl⟩, ?_⟩
  · rw [left_bundles]
    simp [bundleOf, left, sideOf]
  · rw [right_bundles]
    simp [bundleOf, right, sideOf]
  · refine ⟨(((left size₁ size₂).bundles (right size₁ size₂)).map Prod.snd).zip
      (((right size₁ size₂).bundles (left size₁ size₂)).map Prod.snd), ?_⟩
    rw [left_bundles, right_bundles]
    simp [LagGroup.size, bundleOf]

/-- Two bundles of two members each. -/
theorem mirror_quiet_even : Quiet (left 2 2) (right 2 2) ∧ Quiet (right 2 2) (left 2 2) := by
  refine (mirror_quiet_iff (left_right_mirror 2 2)).mpr ⟨?_, ?_⟩
  · intro e he _ first hfirst
    rw [right_bundles] at hfirst
    rw [left_bundles] at he
    cases hfirst
    rcases List.mem_pair.mp he with rfl | rfl <;> rfl
  · intro e he _ first hfirst
    rw [left_bundles] at hfirst
    rw [right_bundles] at he
    cases hfirst
    rcases List.mem_pair.mp he with rfl | rfl <;> rfl

/-- **Bundles of two and three members** are mirror images, and yet the second one is
reported at both ends. -/
theorem uneven_bundles_reported : Mirror (left 2 3) (right 2 3) ∧
    ¬ (Quiet (left 2 3) (right 2 3) ∧ Quiet (right 2 3) (left 2 3)) := by
  refine ⟨left_right_mirror 2 3, fun h => ?_⟩
  have hsecond := h.1 (2, bundleOf "00:00:00:00:00:0a" "00:00:00:00:00:0b" 21 3) (by rw [left_bundles]; simp)
  exact hsecond.2 (by decide +kernel)

end JaspyNexus.Collectors.Lagpoller
