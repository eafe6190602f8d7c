import Mathlib
import JaspyNexus.Lib.Radix
import JaspyNexus.Collectors.Bitmaps
import JaspyNexus.Collectors.TopologyAge
import JaspyNexus.Utilities.HardwareSwap
import JaspyNexus.Utilities.StpSeverity

/-! # MAC addresses and bridge ids

A MAC address comes as text, written as each device or collector writes it, and
`normalize_mac` brings the writings of one address to one text. What spanning tree
compares are numbers: a bridge id is the priority, then the six octets of the address,
and the lower one wins. The code compares the texts instead; here they are shown to be
in the order of the numbers, and every comparison of bridges to come out the same. -/

namespace JaspyNexus.Utilities.BridgeIds
open JaspyNexus.Lib JaspyNexus.Snmp
open JaspyNexus.Utilities.Stp JaspyNexus.Utilities.StpForest JaspyNexus.Utilities.StpSeverity

/-! ## Addresses and their writings -/

structure Mac where
  octets : List UInt8
  six : octets.length = 6
  deriving DecidableEq

/-- The six octets as one number. -/
def Mac.value (mac : Mac) : Nat := Radix.value 256 (mac.octets.map UInt8.toNat)

/-- The twelve hexadecimal digits. -/
def Mac.digits (mac : Mac) : List Nat := Radix.split 16 (mac.octets.map UInt8.toNat)

/-- The lowercase colon form. -/
def Mac.colons (mac : Mac) : String := Render.hexColons mac.octets

/-- The character writes the hexadecimal digit, in either case. -/
def Writes (c : Char) (d : Nat) : Prop := c = Nat.digitChar d ∨ c = (Nat.digitChar d).toUpper

instance (c : Char) (d : Nat) : Decidable (Writes c d) := inferInstanceAs (Decidable (_ ∨ _))

/-- The text writes the digits in order, with anything that is no digit before, between
and after them. -/
inductive Spells : List Char → List Nat → Prop where
  | done : Spells [] []
  | digit {c : Char} {d : Nat} {chars : List Char} {digits : List Nat} (h : Writes c d)
      (rest : Spells chars digits) : Spells (c :: chars) (d :: digits)
  | separator {c : Char} {chars : List Char} {digits : List Nat} (h : ∀ d < 16, ¬Writes c d)
      (rest : Spells chars digits) : Spells (c :: chars) digits

/-- The text is a writing of the address. -/
def Mac.RenderedAs (mac : Mac) (text : String) : Prop := Spells text.toList mac.digits

/-- The bridge id as one number. -/
def bridgeId (priority : Int) (mac : Mac) : Int := priority * 2 ^ 48 + mac.value

/-! ## What is asked of the code -/

/-- Every writing has one normal form, which tells addresses apart and orders them. -/
structure Normalizes : Prop where
  form : ∀ (mac : Mac) text, mac.RenderedAs text → normalizeMac text = mac.colons
  idempotent : ∀ text, normalizeMac (normalizeMac text) = normalizeMac text
  /-- the form is itself a writing, and the one that the octets of a bridge id are read to -/
  writing : ∀ mac : Mac, mac.RenderedAs mac.colons
  parsed : ∀ (high low : UInt8) (mac : Mac),
    Collectors.Entitypoller.parseBridgeId (Render.hexSpaces (high :: low :: mac.octets)) =
      some ((high.toNat : Int) * 256 + low.toNat, mac.colons)
  distinct : ∀ (mac mac' : Mac) text text', mac.RenderedAs text → mac'.RenderedAs text' →
    (normalizeMac text = normalizeMac text' ↔ mac = mac')
  ordered : ∀ (mac mac' : Mac) text text', mac.RenderedAs text → mac'.RenderedAs text' →
    (normalizeMac text < normalizeMac text' ↔ mac.value < mac'.value)

section Tree
variable (inputs : StpInputs) (vlan : Int)

/-- The root's address that the device reports. -/
def ReportsMac (fqdn : String) (mac : Mac) : Prop :=
  ∃ text, (reportedBridge inputs vlan fqdn).bind StpBridge.rootMac = some text ∧ mac.RenderedAs text

def ReportsPriority (fqdn : String) (priority : Int) : Prop :=
  (reportedBridge inputs vlan fqdn).bind StpBridge.rootPriority = some priority

/-- The bridge id of the root that the device reports. -/
def ReportsId (fqdn : String) (id : Int) : Prop :=
  ∃ priority mac, ReportsPriority inputs vlan fqdn priority ∧ ReportsMac inputs vlan fqdn mac ∧
    id = bridgeId priority mac

/-- The address that discovery recorded of the device. -/
def HasBase (fqdn : String) (mac : Mac) : Prop :=
  ∃ text, baseMac inputs fqdn = some text ∧ mac.RenderedAs text

/-- The tree compares bridges as spanning tree does. -/
structure DecidesAsStp (tree : StpTree) : Prop where
  /-- the claims are in the order of their bridge ids, and the first is marked -/
  sorted : ∀ detail, tree.multipleRootsDetail = some detail →
    detail.roots.Pairwise fun a b => ∀ i j,
      ReportsId inputs vlan a.fqdn i → ReportsId inputs vlan b.fqdn j → i ≤ j
  elected : ∀ detail, tree.multipleRootsDetail = some detail → ∃ first rest,
    detail.roots = first :: rest ∧ first.preferred = true ∧ ∀ claim ∈ rest, claim.preferred = false
  /-- another root is reported than the one computed -/
  mismatch : ∀ node ∈ tree.nodes, ∀ root mac rootMac, tree.roots = [root] →
    ReportsMac inputs vlan node.fqdn mac → HasBase inputs root rootMac →
    (node.rootMismatch = true ↔ mac ≠ rootMac)
  superior : ∀ node ∈ tree.nodes, ∀ root mac rootMac priority rootPriority, tree.roots = [root] →
    ReportsMac inputs vlan node.fqdn mac → HasBase inputs root rootMac →
    ReportsPriority inputs vlan node.fqdn priority → ReportsPriority inputs vlan root rootPriority →
    mac ≠ rootMac → ∃ detail, node.rootMismatchDetail = some detail ∧
      detail.reportedRootSuperior =
        some (decide (bridgeId priority mac < bridgeId rootPriority rootMac))

end Tree

/-- A device is taken for another one when the address brought is another than the one
brought last. -/
def SwapsByAddress (c : Chassis) : Prop :=
  ∀ (fqdn : String) (mac known : Mac) text knownText, mac.RenderedAs text →
    known.RenderedAs knownText → learned (c.macs fqdn) = brought (some knownText) →
    ((c.watched.imds.devices fqdn).any (Imds.swapped · (some text)) = true ↔ mac ≠ known)

/-! ## Digits and characters -/

/-- A digit is kept, in lower case. -/
theorem writes_hexdigit {c : Char} {d : Nat} (hd : d < 16) (h : Writes c d) :
    isAsciiHexdigit c = true ∧ c.toLower = Nat.digitChar d := by
  have hlower : ∀ d < 16, isAsciiHexdigit (Nat.digitChar d) = true ∧
      (Nat.digitChar d).toLower = Nat.digitChar d := by decide
  have hupper : ∀ d < 16, isAsciiHexdigit (Nat.digitChar d).toUpper = true ∧
      (Nat.digitChar d).toUpper.toLower = Nat.digitChar d := by decide
  rcases h with rfl | rfl
  · exact hlower d hd
  · exact hupper d hd

/-- And nothing else is. -/
theorem exists_writes {c : Char} (h : isAsciiHexdigit c = true) : ∃ d < 16, Writes c d := by
  have hbound : c.toNat < 103 := by
    have hle : c ≤ 'f' := by
      simp only [isAsciiHexdigit, Char.isDigit, Bool.or_eq_true, Bool.and_eq_true,
        decide_eq_true_eq] at h
      rcases h with (⟨-, h⟩ | ⟨-, h⟩) | ⟨-, h⟩
      · exact le_trans (b := '9') h (by decide)
      · exact h
      · exact le_trans h (by decide)
    exact Nat.lt_succ_of_le hle
  have hall : ∀ n < 103, isAsciiHexdigit (Char.ofNat n) = true → ∃ d < 16, Writes (Char.ofNat n) d := by
    decide
  have hc := hall c.toNat hbound
  rw [Char.ofNat_toNat] at hc
  exact hc h

/-- **Normalizing reads the digits written**, whatever stands between them. -/
theorem spells_filter {chars : List Char} {digits : List Nat} (h : Spells chars digits)
    (hdigits : Radix.Below 16 digits) :
    (chars.filter isAsciiHexdigit).map Char.toLower = digits.map Nat.digitChar := by
  induction h with
  | done => rfl
  | digit hc rest ih =>
    obtain ⟨hhex, hlower⟩ := writes_hexdigit (hdigits _ List.mem_cons_self) hc
    rw [List.filter_cons_of_pos hhex, List.map_cons, List.map_cons, hlower, ih hdigits.tail]
  | @separator c chars digits hc rest ih =>
    have hskip : ¬isAsciiHexdigit c = true := by
      intro hhex
      obtain ⟨d, hd, hw⟩ := exists_writes hhex
      exact hc d hd hw
    rw [List.filter_cons_of_neg hskip, ih hdigits]

theorem digitChar_lt : ∀ d < 16, ∀ e < 16, d < e → Nat.digitChar d < Nat.digitChar e := by decide

section Form
variable (mac mac' : Mac)

theorem below_octets (octets : List UInt8) : Radix.Below 256 (octets.map UInt8.toNat) := by
  intro n hn
  obtain ⟨o, -, rfl⟩ := List.mem_map.mp hn
  exact o.toNat_lt

theorem below_digits : Radix.Below 16 mac.digits := Radix.below_split (below_octets mac.octets)

theorem length_digits : mac.digits.length = 12 := by
  rw [Mac.digits, Radix.length_split, List.length_map, mac.six]

theorem value_digits : Radix.value 16 mac.digits = mac.value := Radix.value_split _

theorem value_lt : mac.value < 2 ^ 48 := by
  have h := Radix.value_lt_pow (by decide) (below_digits mac)
  rwa [length_digits, value_digits] at h

theorem eq_of_value_eq {mac mac' : Mac} (h : mac.value = mac'.value) : mac = mac' := by
  have hoctets := Radix.value_inj (by decide : 1 < 256)
    (by rw [List.length_map, List.length_map, mac.six, mac'.six])
    (below_octets mac.octets) (below_octets mac'.octets) h
  have hinj : Function.Injective UInt8.toNat := fun _ _ => UInt8.toNat_inj.mp
  cases mac
  cases mac'
  cases List.map_injective_iff.mpr hinj hoctets
  rfl

theorem chunks2_digits (octets : List UInt8) :
    chunks2 ((Radix.split 16 (octets.map UInt8.toNat)).map Nat.digitChar) =
      octets.map Render.hexDigits := by
  induction octets with
  | nil => rfl
  | cons o rest ih => rw [List.map_cons, List.map_cons, ← ih]; rfl

theorem colons_eq : mac.colons = colonForm (mac.digits.map Nat.digitChar) := by
  unfold Mac.digits colonForm
  rw [chunks2_digits]
  rfl

variable {mac mac'} {text text' : String}

theorem macDigits_of_rendered (h : mac.RenderedAs text) :
    macDigits text = mac.digits.map Nat.digitChar := spells_filter h (below_digits mac)

theorem normalizeMac_of_rendered (h : mac.RenderedAs text) : normalizeMac text = mac.colons := by
  rw [normalizeMac_eq, macDigits_of_rendered h, colons_eq]

end Form

/-! ## The order of the forms -/

theorem colonForm_cons_cons (a b : Char) (rest : List Char) : (colonForm (a :: b :: rest)).toList =
    a :: b :: if rest = [] then [] else ':' :: (colonForm rest).toList := by
  unfold colonForm
  rw [chunks2]
  split
  · next h =>
    subst h
    rw [chunks2, String.intercalate_singleton, String.toList_ofList]
  · next h =>
    rw [String.intercalate_cons_of_ne_nil (fun hc => h (chunks2_eq_nil.mp hc)),
      String.toList_append, String.toList_append, String.toList_ofList]
    rfl

theorem colonForm_nil : (colonForm []).toList = [] := rfl

theorem colonForm_one (a : Char) : (colonForm [a]).toList = [a] := by
  rw [colonForm, chunks2, String.intercalate_singleton, String.toList_ofList]

/-- The colons stand at the same places, so they decide nothing. -/
theorem colonForm_lt_iff (xs ys : List Char) : colonForm xs < colonForm ys ↔ xs < ys := by
  rw [String.lt_iff]
  induction xs using chunks2.induct generalizing ys with
  | case1 =>
    match ys with
    | [] => simp
    | [c] => simp [colonForm_nil, colonForm_one]
    | c :: d :: ys => simp [colonForm_nil, colonForm_cons_cons]
  | case2 a =>
    match ys with
    | [] => simp [colonForm_nil, colonForm_one]
    | [c] => rw [colonForm_one, colonForm_one]
    | c :: d :: ys => simp [colonForm_one, colonForm_cons_cons, List.cons_lt_cons_iff]
  | case3 a b xs ih =>
    match ys with
    | [] => simp [colonForm_nil]
    | [c] => simp [colonForm_one, colonForm_cons_cons, List.cons_lt_cons_iff]
    | c :: d :: ys =>
      rw [colonForm_cons_cons, colonForm_cons_cons, List.cons_lt_cons_iff, List.cons_lt_cons_iff,
        List.cons_lt_cons_iff, List.cons_lt_cons_iff]
      by_cases hxs : xs = [] <;> by_cases hys : ys = []
      · simp [hxs, hys]
      · obtain ⟨e, ys', rfl⟩ := List.exists_cons_of_ne_nil hys
        simp [hxs]
      · simp [hxs, hys]
      · simp [hxs, hys, ih ys]

section Order
variable {mac mac' : Mac} {text text' : String}

theorem normalizeMac_lt_iff (h : mac.RenderedAs text) (h' : mac'.RenderedAs text') :
    normalizeMac text < normalizeMac text' ↔ mac.value < mac'.value := by
  have hlen : mac.digits.length = mac'.digits.length := by rw [length_digits, length_digits]
  rw [normalizeMac_eq, normalizeMac_eq, macDigits_of_rendered h, macDigits_of_rendered h',
    colonForm_lt_iff, Radix.map_lt_map_iff digitChar_lt (below_digits mac) (below_digits mac'),
    ← Radix.value_lt_iff (by decide) hlen (below_digits mac) (below_digits mac'), value_digits,
    value_digits]

theorem normalizeMac_inj_iff (h : mac.RenderedAs text) (h' : mac'.RenderedAs text') :
    normalizeMac text = normalizeMac text' ↔ mac = mac' := by
  constructor
  · intro heq
    have hle := (normalizeMac_lt_iff h h').not.mp heq.not_lt
    have hge := (normalizeMac_lt_iff h' h).not.mp heq.not_gt
    exact eq_of_value_eq (by omega)
  · intro heq
    subst heq
    rw [normalizeMac_of_rendered h, normalizeMac_of_rendered h']

/-- The lower id is that of the lower priority, or of the lower address. -/
theorem bridgeId_lt_iff (priority priority' : Int) : bridgeId priority mac < bridgeId priority' mac' ↔
    priority < priority' ∨ priority = priority' ∧ mac.value < mac'.value := by
  have hlt := value_lt mac
  have hlt' := value_lt mac'
  unfold bridgeId
  omega

end Order

/-! ## Idempotence -/

theorem normalizeMac_idempotent (text : String) : normalizeMac (normalizeMac text) = normalizeMac text := by
  rw [normalizeMac_eq_iff]
  have hlower : ∀ c ∈ macDigits text, c.toLower = c := by
    intro c hc
    obtain ⟨x, hx, rfl⟩ := List.mem_map.mp hc
    obtain ⟨d, hd, hw⟩ := exists_writes (List.mem_filter.mp hx).2
    rw [(writes_hexdigit hd hw).2]
    exact (writes_hexdigit hd (.inl rfl)).2
  have hhex : ∀ c ∈ macDigits text, isAsciiHexdigit c = true := fun c => isAsciiHexdigit_macDigits
  calc macDigits (normalizeMac text)
      = ((colonForm (macDigits text)).toList.filter isAsciiHexdigit).map Char.toLower := rfl
    _ = (macDigits text).map Char.toLower := by rw [filter_colonForm hhex]
    _ = macDigits text := (List.map_congr_left hlower).trans (List.map_id _)

/-- The colon form is a writing of its digits. -/
theorem spells_colonForm : ∀ digits : List Nat, Spells (colonForm (digits.map Nat.digitChar)).toList digits
  | [] => .done
  | [d] => by
    rw [List.map_singleton, colonForm_one]
    exact .digit (.inl rfl) .done
  | d :: e :: rest => by
    rw [List.map_cons, List.map_cons, colonForm_cons_cons]
    refine .digit (.inl rfl) (.digit (.inl rfl) ?_)
    cases rest with
    | nil => exact .done
    | cons f rest =>
      have hcolon : ∀ d < 16, ¬Writes ':' d := by decide
      exact .separator hcolon (spells_colonForm (f :: rest))

theorem normalizes : Normalizes where
  form mac text h := normalizeMac_of_rendered h
  idempotent := normalizeMac_idempotent
  writing mac := by
    unfold Mac.RenderedAs
    rw [colons_eq]
    exact spells_colonForm mac.digits
  parsed high low mac := by
    have hid : mac.octets.map (UInt8.ofNat ∘ UInt8.toNat) = mac.octets := by
      rw [show UInt8.ofNat ∘ UInt8.toNat = id from funext fun _ => UInt8.ofNat_toNat, List.map_id]
    have htokens := Collectors.mapM_splitWhitespace_hexSpaces (high :: low :: mac.octets)
    unfold Collectors.Entitypoller.parseBridgeId
    rw [htokens, List.map_cons, List.map_cons]
    dsimp only
    rw [if_pos (by rw [List.length_map, mac.six]), List.map_map, hid]
    rfl
  distinct mac mac' text text' h h' := normalizeMac_inj_iff h h'
  ordered mac mac' text text' h h' := normalizeMac_lt_iff h h'

example : ["70:10:6F:63:F2:70", "70 10 6f 63 f2 70", "70-10-6f-63-f2-70", "7010.6f63.f270"].map normalizeMac =
    List.replicate 4 "70:10:6f:63:f2:70" := by decide +kernel

/-! ## The claims of the roots -/

section Claims
variable {inputs : StpInputs} {vlan : Int}

/-- The key as a pair. -/
theorem bridgeIdLe_iff (a b : RootClaim) : bridgeIdLe a b ↔
    toLex (a.priority.getD i64Max, a.mac.getD "") ≤ toLex (b.priority.getD i64Max, b.mac.getD "") := by
  rw [Prod.Lex.toLex_le_toLex, bridgeIdLe]

instance : Std.Total bridgeIdLe where
  total a b := by
    rw [bridgeIdLe_iff, bridgeIdLe_iff]
    exact le_total _ _

instance : IsTrans RootClaim bridgeIdLe where
  trans a b c hab hbc := by
    rw [bridgeIdLe_iff] at hab hbc ⊢
    exact le_trans hab hbc

/-- The key of a claim is in the order of the bridge id. -/
theorem le_of_bridgeIdLe {f g : String} {i j : Int} (hf : ReportsId inputs vlan f i)
    (hg : ReportsId inputs vlan g j) (h : bridgeIdLe (rootClaim inputs vlan f) (rootClaim inputs vlan g)) :
    i ≤ j := by
  obtain ⟨p, mac, hp, ⟨text, htext, hmac⟩, rfl⟩ := hf
  obtain ⟨p', mac', hp', ⟨text', htext', hmac'⟩, rfl⟩ := hg
  unfold ReportsPriority at hp hp'
  unfold bridgeIdLe rootClaim at h
  simp only [hp, hp', htext, htext', Option.map_some, Option.getD_some] at h
  rw [← not_lt, bridgeId_lt_iff]
  rcases h with hlt | ⟨rfl, hle⟩
  · omega
  · rw [← not_lt, normalizeMac_lt_iff hmac' hmac] at hle
    omega

theorem preferFirst_eq {claims : List RootClaim} (h : claims ≠ []) : ∃ first rest,
    claims = first :: rest ∧ preferFirst claims = { first with preferred := true } :: rest := by
  obtain ⟨first, rest, rfl⟩ := List.exists_cons_of_ne_nil h
  exact ⟨first, rest, rfl, rfl⟩

theorem sorted_roots {roots : List String} {detail : MultipleRootsDetail}
    (h : multipleRootsDetail inputs vlan roots = some detail) :
    detail.roots.Pairwise fun a b => ∀ i j,
      ReportsId inputs vlan a.fqdn i → ReportsId inputs vlan b.fqdn j → i ≤ j := by
  unfold multipleRootsDetail at h
  split at h
  · cases h
    have hmem : ∀ claim ∈ (roots.map (rootClaim inputs vlan)).insertionSort bridgeIdLe,
        claim = rootClaim inputs vlan claim.fqdn := by
      intro claim hclaim
      obtain ⟨root, -, rfl⟩ := List.mem_map.mp ((List.mem_insertionSort bridgeIdLe).mp hclaim)
      rfl
    have hsorted := List.pairwise_insertionSort bridgeIdLe (roots.map (rootClaim inputs vlan))
    have hfqdn : ((preferFirst ((roots.map (rootClaim inputs vlan)).insertionSort bridgeIdLe)).map
        RootClaim.fqdn).Pairwise fun f g => ∀ i j,
          ReportsId inputs vlan f i → ReportsId inputs vlan g j → i ≤ j := by
      rw [map_fqdn_preferFirst, List.pairwise_map]
      refine hsorted.imp_of_mem fun ha hb hle i j hi hj => ?_
      rw [hmem _ ha, hmem _ hb] at hle
      exact le_of_bridgeIdLe hi hj hle
    exact List.pairwise_map.mp hfqdn
  · cases h

theorem elected_root {roots : List String} {detail : MultipleRootsDetail}
    (h : multipleRootsDetail inputs vlan roots = some detail) : ∃ first rest,
    detail.roots = first :: rest ∧ first.preferred = true ∧ ∀ claim ∈ rest, claim.preferred = false := by
  unfold multipleRootsDetail at h
  split at h
  · next hroots =>
    cases h
    have hlen := List.length_insertionSort bridgeIdLe (roots.map (rootClaim inputs vlan))
    rw [List.length_map] at hlen
    obtain ⟨first, rest, hsort, hprefer⟩ := preferFirst_eq (List.ne_nil_of_length_pos (by omega) :
      (roots.map (rootClaim inputs vlan)).insertionSort bridgeIdLe ≠ [])
    refine ⟨_, rest, hprefer, rfl, fun claim hclaim => ?_⟩
    have hmem : claim ∈ (roots.map (rootClaim inputs vlan)).insertionSort bridgeIdLe := by
      rw [hsort]; exact List.mem_cons_of_mem _ hclaim
    obtain ⟨root, -, rfl⟩ := List.mem_map.mp ((List.mem_insertionSort bridgeIdLe).mp hmem)
    rfl
  · cases h

/-! ## The root that a node reports -/

theorem buildStpTree_nodes {fuel : Nat} {tree : StpTree} (h : buildStpTree fuel inputs vlan = some tree) :
    tree.multipleRootsDetail = multipleRootsDetail inputs vlan tree.roots ∧
      ∀ node ∈ tree.nodes, ∃ info fqdn depth, info.roots = tree.roots ∧
        node = stpNode inputs vlan info fqdn depth := by
  obtain ⟨⟨flags, cycleNodes⟩, -, h⟩ := Option.bind_eq_some_iff.mp h
  obtain ⟨emitted, -, rfl⟩ := Option.map_eq_some_iff.mp h
  refine ⟨rfl, fun node hnode => ?_⟩
  obtain ⟨e, -, rfl⟩ := List.mem_map.mp hnode
  exact ⟨_, e.1, e.2, rfl, rfl⟩

theorem rootMismatch_iff {root fqdn : String} {mac rootMac : Mac}
    (hmac : ReportsMac inputs vlan fqdn mac) (hroot : HasBase inputs root rootMac) :
    rootMismatch inputs [root] (reportedBridge inputs vlan fqdn) = true ↔ mac ≠ rootMac := by
  obtain ⟨text, htext, hmac⟩ := hmac
  obtain ⟨rootText, hrootText, hroot⟩ := hroot
  unfold rootMismatch
  rw [htext]
  dsimp only
  rw [hrootText]
  simp only [bne_iff_ne, ne_eq, normalizeMac_inj_iff hmac hroot]

theorem rootSuperior_eq {text rootText : String} {mac rootMac : Mac} (priority rootPriority : Int)
    (hmac : mac.RenderedAs text) (hroot : rootMac.RenderedAs rootText) :
    rootSuperior (some priority) (some rootPriority) (some text) (some rootText) =
      some (decide (bridgeId priority mac < bridgeId rootPriority rootMac)) := by
  unfold rootSuperior
  by_cases hp : priority = rootPriority
  · subst hp
    simp [normalizeMac_lt_iff hmac hroot, bridgeId_lt_iff]
  · simp [hp, bridgeId_lt_iff]

theorem decidesAsStp {fuel : Nat} {tree : StpTree} (h : buildStpTree fuel inputs vlan = some tree) :
    DecidesAsStp inputs vlan tree := by
  obtain ⟨hdetail, hnodes⟩ := buildStpTree_nodes h
  refine ⟨fun detail hd => ?_, fun detail hd => ?_, fun node hnode root mac rootMac hroots hmac hbase => ?_,
    fun node hnode root mac rootMac p q hroots hmac hbase hp hq hne => ?_⟩
  · rw [hdetail] at hd
    exact sorted_roots hd
  · rw [hdetail] at hd
    exact elected_root hd
  · obtain ⟨info, fqdn, depth, hinfo, rfl⟩ := hnodes node hnode
    have hmismatch : (stpNode inputs vlan info fqdn depth).rootMismatch =
        rootMismatch inputs info.roots (reportedBridge inputs vlan fqdn) := rfl
    rw [hmismatch, hinfo, hroots]
    exact rootMismatch_iff hmac hbase
  · obtain ⟨info, fqdn, depth, hinfo, rfl⟩ := hnodes node hnode
    rw [hroots] at hinfo
    have hmismatch : rootMismatch inputs [root] (reportedBridge inputs vlan fqdn) = true :=
      (rootMismatch_iff hmac hbase).mpr hne
    refine ⟨mismatchDetail inputs vlan (reportedBridge inputs vlan fqdn) root, ?_, ?_⟩
    · simp only [stpNode, hmismatch, if_true, hinfo, List.head?_cons, Option.map_some]
    · obtain ⟨text, htext, hmac⟩ := hmac
      obtain ⟨rootText, hrootText, hbase⟩ := hbase
      have htext' : (reportedBridge inputs vlan fqdn).bind StpBridge.rootMac = some text := htext
      have hp' : (reportedBridge inputs vlan fqdn).bind StpBridge.rootPriority = some p := hp
      unfold ReportsPriority at hq
      unfold mismatchDetail
      dsimp only
      rw [htext', hp', hq, hrootText]
      exact rootSuperior_eq p q hmac hbase

end Claims

/-! ## Another chassis -/

theorem brought_of_rendered {mac : Mac} {text : String} (h : mac.RenderedAs text) :
    brought (some text) = some (mac.digits.map Nat.digitChar) := by
  have hne : mac.digits.map Nat.digitChar ≠ [] := by
    refine List.ne_nil_of_length_pos ?_
    rw [List.length_map, length_digits]
    omega
  rw [brought, Option.map_some, macDigits_of_rendered h]
  simp [Option.filter, hne]

theorem swapsByAddress {c : Chassis} (h : c.Knows) : SwapsByAddress c := by
  intro fqdn mac known text knownText hmac hknown hlearned
  rw [swapped_iff h fqdn (some text)]
  unfold Swaps
  rw [hlearned, brought_of_rendered hmac, brought_of_rendered hknown]
  have heq : mac.digits.map Nat.digitChar = known.digits.map Nat.digitChar ↔ mac = known := by
    rw [← macDigits_of_rendered hmac, ← macDigits_of_rendered hknown, ← normalizeMac_eq_iff]
    exact normalizeMac_inj_iff hmac hknown
  simp [heq]

/-- **The texts decide as the numbers do.** The writings of an address have one normal form,
in the order of the addresses, and the roots of a tree, the root that a node reports and the
chassis behind a name are compared as spanning tree compares bridge ids. -/
theorem normalizeMac_decides : Normalizes ∧
    (∀ inputs vlan fuel tree, buildStpTree fuel inputs vlan = some tree → DecidesAsStp inputs vlan tree) ∧
    ∀ cfg loaded ops, SwapsByAddress (Chassis.run cfg loaded ops) :=
  ⟨normalizes, fun _ _ _ _ h => decidesAsStp h,
    fun cfg loaded ops => swapsByAddress (knows_run cfg loaded ops)⟩

end JaspyNexus.Utilities.BridgeIds
