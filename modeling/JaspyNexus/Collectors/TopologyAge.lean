import Mathlib
import JaspyNexus.Collectors.StpMetrics
import JaspyNexus.Collectors.Tables
import JaspyNexus.Snmp.Mib
import JaspyNexus.Snmp.Render

/-! # The age of a topology

The time since the last topology change is counted in hundredths of a second on the
wire. Through snmpbot it comes as seconds, and `timeticks_secs` reads it so; through
the embedded client it comes as it was counted, and is read as seconds all the same. -/

namespace JaspyNexus.Collectors.Entitypoller
open JaspyNexus.Lib JaspyNexus.Lib.Text JaspyNexus.Models JaspyNexus.Snmp

/-! ## The bridge scalars of Cisco's tables -/

/-- `value_i64`. -/
def valueI64 : Val → Option Int
  | .uint64 v => some (asI64 v)
  | .float64 v => some (f64AsI64 v)
  | _ => none

/-- `parse_bridge_id`: the priority and the MAC of eight octets. -/
def parseBridgeId (value : String) : Option (Int × String) :=
  match (splitWhitespace value.toList).mapM parseHexOctet with
  | some (b0 :: b1 :: mac) =>
    if mac.length = 6 then
      some (b0 * 256 + b1, Render.hexColons (mac.map UInt8.ofNat))
    else none
  | _ => none

/-- `bridge_scalar_metrics`. -/
def bridgeScalarMetrics (device : EntityDevice) (vlan : Int) (values : PMap String Val)
    (timestamp : Nat) : List (LabeledMetric Rat) :=
  let scalar (key : String) (value : Option Int) :=
    value.toList.map fun value => stpBridgeMetric device vlan key value [] timestamp
  let root := match values "BRIDGE-MIB::dot1dStpDesignatedRoot" with
    | some (.str raw) => match parseBridgeId raw with
      | some (priority, mac) =>
        [stpBridgeMetric device vlan "root_priority" priority [("root_mac", mac)] timestamp]
      | none => []
    | _ => []
  root ++
  scalar "root_cost" ((values "BRIDGE-MIB::dot1dStpRootCost").bind valueI64) ++
  scalar "root_port" ((values "BRIDGE-MIB::dot1dStpRootPort").bind valueI64) ++
  scalar "topology_changes" ((values "BRIDGE-MIB::dot1dStpTopChanges").bind valueI64) ++
  scalar "time_since_topology_change"
    ((values "BRIDGE-MIB::dot1dStpTimeSinceTopologyChange").bind timeticksSecs)

/-! ## The two ways of a time -/

/-- A decimal number as text, with or without a fraction. -/
def decimalText (whole fraction : List Char) : String :=
  String.ofList (whole ++ if fraction = [] then [] else '.' :: fraction)

/-- What snmpbot makes of `t` hundredths of a second: the seconds, as a whole number, as
the nearest float, or as text. -/
inductive Seconds (t : Nat) : Val → Prop where
  | whole (h : t % 100 = 0) : Seconds t (.uint64 (t / 100))
  | fraction {v : Rat} (h : t % 100 ≠ 0) (hv : |v - (t : Rat) / 100| ≤ 1 / 2 ^ 28) :
      Seconds t (.float64 v)
  | text {whole fraction : List Char} (hne : whole ≠ [])
      (hdigits : ∀ c ∈ whole ++ fraction, c.isDigit = true)
      (hvalue : Nat.ofDigitChars 10 (whole ++ fraction) 0 * 100 = t * 10 ^ fraction.length) :
      Seconds t (.str (decimalText whole fraction))

/-- What the embedded client makes of it, for an object of that syntax. -/
def embedded (t : Nat) (raw : Mib.RawObject) : Val :=
  Render.renderValue (.timeticks t) (Mib.classifySyntax raw)

/-- The object is a time. -/
def IsTimeTicks (raw : Mib.RawObject) : Prop := Mib.shortSyntax (raw.valueSyntax.getD "") = "TimeTicks"

/-- The age that a bridge's samples give. -/
def topologyAge (metrics : List (LabeledMetric Rat)) : Option Int :=
  (metrics.find? fun m => m.name = "jaspy_stp_bridge_time_since_topology_change").map
    fun m => m.value.asI64

/-- The collectors derive this age from a value: from a Cisco bridge's scalars, and from a
row of HP's table. -/
structure Derives (value : Val) (age : Int) : Prop where
  cisco : ∀ device vlan (values : PMap String Val) timestamp, topologyAge
    (bridgeScalarMetrics device vlan
      (PMap.insert values "BRIDGE-MIB::dot1dStpTimeSinceTopologyChange" value) timestamp) = some age
  hp : ∀ device vlan (entry : ResultEntry) timestamp,
    entry.index "HP-ICF-RPVST-MIB::hpicfRpvstVlanId" = some vlan → topologyAge
      (bridgeMetrics device timestamp { entry with
        objects := PMap.insert entry.objects
          "HP-ICF-RPVST-MIB::hpicfRpvstVlanTimeSinceLastTopoChange" value }) = some age

/-! ## What is derived -/

/-- The sample of a scalar tells the age only under its own key. -/
theorem name_stpBridgeMetric {device : EntityDevice} {vlan : Int} {key : String} {value : Int}
    {extraLabels : List (String × String)} {timestamp : Nat} :
    (stpBridgeMetric device vlan key value extraLabels timestamp).name =
      "jaspy_stp_bridge_time_since_topology_change" ↔ key = "time_since_topology_change" := by
  have hname : "jaspy_stp_bridge_time_since_topology_change" =
      "jaspy_stp_bridge_" ++ "time_since_topology_change" := by decide +kernel
  rw [hname]
  exact String.append_right_inj "jaspy_stp_bridge_"

/-- Samples under other keys before it do not matter. -/
theorem topologyAge_append {others : List (LabeledMetric Rat)}
    (h : ∀ m ∈ others, m.name ≠ "jaspy_stp_bridge_time_since_topology_change")
    (device : EntityDevice) (vlan : Int) (value : Option Int) (timestamp : Nat) :
    topologyAge (others ++ value.toList.map fun value =>
      stpBridgeMetric device vlan "time_since_topology_change" value [] timestamp) = value := by
  unfold topologyAge
  rw [List.find?_append, List.find?_eq_none.mpr (by simpa using h), Option.none_or]
  cases value with
  | none => rfl
  | some value =>
    rw [Option.toList_some, List.map_singleton, List.find?_singleton,
      if_pos (by simpa using name_stpBridgeMetric.mpr rfl)]
    rfl

/-- The samples of a scalar under another key. -/
theorem name_of_mem_scalar {device : EntityDevice} {vlan : Int} {key : String} {value : Option Int}
    {extraLabels : List (String × String)} {timestamp : Nat} {m : LabeledMetric Rat}
    (hkey : key ≠ "time_since_topology_change")
    (h : m ∈ value.toList.map fun value => stpBridgeMetric device vlan key value extraLabels timestamp) :
    m.name ≠ "jaspy_stp_bridge_time_since_topology_change" := by
  obtain ⟨value, -, rfl⟩ := List.mem_map.mp h
  exact fun hname => hkey (name_stpBridgeMetric.mp hname)

/-- **Both collectors derive what `timeticks_secs` reads.** -/
theorem derives_iff {value : Val} {age : Int} : Derives value age ↔ timeticksSecs value = some age := by
  have hcisco : ∀ device vlan (values : PMap String Val) timestamp, topologyAge
      (bridgeScalarMetrics device vlan
        (PMap.insert values "BRIDGE-MIB::dot1dStpTimeSinceTopologyChange" value) timestamp) =
      timeticksSecs value := by
    intro device vlan values timestamp
    unfold bridgeScalarMetrics
    dsimp only
    rw [PMap.insert_self, Option.bind_some]
    refine topologyAge_append (fun m hm => ?_) device vlan _ timestamp
    simp only [List.mem_append] at hm
    rcases hm with ((hm | hm) | hm) | hm
    · split at hm
      · split at hm
        · rw [List.mem_singleton] at hm
          subst hm
          exact fun hname => absurd (name_stpBridgeMetric.mp hname) (by decide)
        · cases hm
      · cases hm
    · exact name_of_mem_scalar (by decide) hm
    · exact name_of_mem_scalar (by decide) hm
    · exact name_of_mem_scalar (by decide) hm
  have hhp : ∀ device vlan (entry : ResultEntry) timestamp,
      entry.index "HP-ICF-RPVST-MIB::hpicfRpvstVlanId" = some vlan → topologyAge
        (bridgeMetrics device timestamp { entry with
          objects := PMap.insert entry.objects
            "HP-ICF-RPVST-MIB::hpicfRpvstVlanTimeSinceLastTopoChange" value }) =
      timeticksSecs value := by
    intro device vlan entry timestamp hindex
    unfold bridgeMetrics
    dsimp only
    rw [hindex]
    dsimp only
    rw [PMap.insert_self, Option.bind_some]
    refine topologyAge_append (fun m hm => ?_) device vlan _ timestamp
    simp only [List.mem_append] at hm
    rcases hm with ((hm | hm) | hm) | hm
    all_goals exact name_of_mem_scalar (by decide) hm
  constructor
  · intro h
    rw [← hcisco ⟨"", ""⟩ 0 PMap.empty 0]
    exact h.cisco _ _ _ _
  · intro h
    refine ⟨fun device vlan values timestamp => ?_, fun device vlan entry timestamp hindex => ?_⟩
    · rw [hcisco, h]
    · rw [hhp _ _ _ _ hindex, h]

/-! ## What is read -/

/-- A number that is not negative, toward zero. -/
theorem f64AsI64_of_floor {v : Rat} {q : Nat} (hq : (q : Rat) ≤ v) (hlt : v < q + 1)
    (hrange : q < 2 ^ 63) : f64AsI64 v = q := by
  have hnonneg : 0 ≤ v := le_trans (Nat.cast_nonneg q) hq
  have hfloor : Int.tdiv v.num v.den = (q : Int) := by
    rw [Int.tdiv_eq_ediv_of_nonneg (Rat.num_nonneg.mpr hnonneg), ← Rat.floor_def]
    have : ⌊v⌋ = (q : Int) := Int.floor_eq_iff.mpr ⟨by exact_mod_cast hq, by exact_mod_cast hlt⟩
    exact this
  unfold f64AsI64
  dsimp only
  rw [hfloor]
  omega

/-- Hundredths stay on their side of a whole number when they are rounded. -/
theorem f64AsI64_round_hundredths {t : Nat} (hrange : t < 2 ^ 32) :
    f64AsI64 (F64.round ((t : Rat) / 100)) = (t / 100 : Nat) := by
  have hdiv : 100 * (t / 100) + t % 100 = t := Nat.div_add_mod t 100
  have hcast : (100 : Rat) * ((t / 100 : Nat) : Rat) + ((t % 100 : Nat) : Rat) = t := by
    exact_mod_cast hdiv
  by_cases hwhole : t % 100 = 0
  · have hvalue : (t : Rat) / 100 = ((t / 100 : Nat) : Rat) := by
      rw [← hcast, hwhole]
      push_cast
      ring
    rw [hvalue, F64.round_natCast (by omega)]
    exact f64AsI64_of_floor (by linarith) (by linarith) (by omega)
  -- a fraction is a hundredth away from the next number, and rounding by far less
  have hpos : (1 : Rat) ≤ ((t % 100 : Nat) : Rat) := by
    exact_mod_cast Nat.one_le_iff_ne_zero.mpr hwhole
  have hlt : ((t % 100 : Nat) : Rat) ≤ 99 := by
    exact_mod_cast Nat.le_of_lt_succ (Nat.mod_lt t (by omega))
  have hsmall : (t : Rat) ≤ 2 ^ 32 := by exact_mod_cast hrange.le
  have hclose : |F64.round ((t : Rat) / 100) - (t : Rat) / 100| ≤ 1 / 2 ^ 21 := by
    have hnonneg : (0 : Rat) ≤ (t : Rat) / 100 := by positivity
    have hround := F64.round_close ((t : Rat) / 100)
    rw [abs_of_nonneg hnonneg] at hround
    linarith
  obtain ⟨hlow, hhigh⟩ := abs_le.mp hclose
  exact f64AsI64_of_floor (by linarith) (by linarith) (by omega)

/-- A digit is no other character. -/
theorem ne_of_isDigit {c d : Char} (hc : c.isDigit = true) (hd : d.isDigit = false) : c ≠ d := by
  intro heq
  rw [heq, hd] at hc
  cases hc

/-- A digit has no case. -/
theorem toLower_of_isDigit {c : Char} (hc : c.isDigit = true) : c.toLower = c := by
  unfold Char.toLower
  rw [dif_neg]
  intro hupper
  have hA := UInt32.le_iff_toNat_le.mp hupper.1
  simp only [Char.isDigit, Bool.and_eq_true, decide_eq_true_eq, ge_iff_le,
    UInt32.le_iff_toNat_le] at hc
  have h9 := hc.2
  have h65 : 'A'.val.toNat = 65 := rfl
  have h57 : '9'.val.toNat = 57 := rfl
  omega

/-- A text that begins with a digit is no word that begins otherwise. -/
theorem lowered_ne {c : Char} {rest : List Char} {word : String} (hc : c.isDigit = true)
    (hword : word.toList.head?.any Char.isDigit = false) :
    String.ofList ((c :: rest).map Char.toLower) ≠ word := by
  intro heq
  rw [← heq, String.toList_ofList, List.map_cons, toLower_of_isDigit hc, List.head?_cons,
    Option.any_some, hc] at hword
  cases hword

/-- A decimal number without sign and exponent. -/
theorem parseF64AsI64_decimal {whole fraction : List Char} (hne : whole ≠ [])
    (hdigits : ∀ c ∈ whole ++ fraction, c.isDigit = true) :
    parseF64AsI64 (decimalText whole fraction) =
      some (f64AsI64 (F64.round ((Nat.ofDigitChars 10 (whole ++ fraction) 0 : Rat) *
        (10 : Rat) ^ (0 - (fraction.length : Int))))) := by
  obtain ⟨point, hpart, htail, hhead, hmem⟩ : ∃ point : List Char,
      (if fraction = [] then [] else '.' :: fraction) = point ∧ point.tail = fraction ∧
      (point = [] ∨ point.head? = some '.') ∧ ∀ c ∈ point, c = '.' ∨ c ∈ fraction := by
    by_cases hnil : fraction = []
    · exact ⟨[], if_pos hnil, hnil.symm, .inl rfl, fun c hc => by cases hc⟩
    · exact ⟨'.' :: fraction, if_neg hnil, rfl, .inr rfl, fun c hc => List.mem_cons.mp hc⟩
  have hwhole : ∀ c ∈ whole, c.isDigit = true := fun c hc => hdigits c (List.mem_append_left _ hc)
  have hmantissa : (whole ++ point).takeWhile (fun c => c ≠ 'e' ∧ c ≠ 'E') = whole ++ point := by
    rw [List.takeWhile_eq_self_iff]
    intro d hd
    rw [decide_eq_true_eq]
    rcases List.mem_append.mp hd with hd | hd
    · exact ⟨ne_of_isDigit (hwhole d hd) rfl, ne_of_isDigit (hwhole d hd) rfl⟩
    · rcases hmem d hd with rfl | hd
      · decide
      · have hdigit := hdigits d (List.mem_append_right _ hd)
        exact ⟨ne_of_isDigit hdigit rfl, ne_of_isDigit hdigit rfl⟩
  have hpoint : (whole ++ point).takeWhile (fun c => c ≠ '.') = whole := by
    have hstop : point.takeWhile (fun c => c ≠ '.') = [] := by
      cases point with
      | nil => rfl
      | cons d rest =>
        have hd : d = '.' := by simpa using hhead
        exact List.takeWhile_cons_of_neg (by simp [hd])
    rw [List.takeWhile_append_of_pos, hstop, List.append_nil]
    intro d hd
    rw [decide_eq_true_eq]
    exact ne_of_isDigit (hwhole d hd) rfl
  have hvalue : digits (whole ++ fraction) = some (Nat.ofDigitChars 10 (whole ++ fraction) 0) := by
    rw [digits, if_pos]
    rw [Bool.and_eq_true, decide_eq_true_eq]
    exact ⟨fun hnil => hne (List.append_eq_nil_iff.mp hnil).1, List.all_eq_true.mpr hdigits⟩
  obtain ⟨c, rest, rfl⟩ := List.exists_cons_of_ne_nil hne
  have hc := hwhole c List.mem_cons_self
  have hnan : String.ofList ((c :: rest ++ point).map Char.toLower) ≠ "nan" := lowered_ne hc rfl
  have hinf : String.ofList ((c :: rest ++ point).map Char.toLower) ≠ "inf" := lowered_ne hc rfl
  have hinfinity : String.ofList ((c :: rest ++ point).map Char.toLower) ≠ "infinity" :=
    lowered_ne hc rfl
  unfold parseF64AsI64 decimalText
  rw [hpart, String.toList_ofList]
  split
  next negative l hsign =>
    -- there is no sign to take
    split at hsign
    next rest' heq => exact absurd (List.cons.inj heq).1 (ne_of_isDigit hc rfl)
    next rest' heq => exact absurd (List.cons.inj heq).1 (ne_of_isDigit hc rfl)
    next =>
      obtain ⟨rfl, rfl⟩ := Prod.mk.inj hsign
      dsimp only
      rw [if_neg hnan, if_neg (not_or.mpr ⟨hinf, hinfinity⟩), hmantissa, hpoint, List.drop_left,
        List.drop_length, htail, hvalue]
      rfl

/-- White space is no part of a decimal number. -/
theorem trim_decimalText {whole fraction : List Char}
    (hdigits : ∀ c ∈ whole ++ fraction, c.isDigit = true) :
    trim (decimalText whole fraction) = decimalText whole fraction := by
  have hspace : ∀ d : Char, d.isDigit = true → Text.isWhitespace d = false := by
    intro d hd
    refine Bool.eq_false_iff.mpr fun hwhite => ?_
    simp only [Char.isDigit, Bool.and_eq_true, decide_eq_true_eq, ge_iff_le,
      UInt32.le_iff_toNat_le] at hd
    have h0 : 48 ≤ d.toNat := hd.1
    have h9 : d.toNat ≤ 57 := hd.2
    simp only [Text.isWhitespace, Bool.or_eq_true, Bool.and_eq_true, decide_eq_true_eq] at hwhite
    omega
  refine trim_eq_self fun c hc => ?_
  rw [decimalText, String.toList_ofList] at hc
  rcases List.mem_append.mp hc with hc | hc
  · exact hspace c (hdigits c (List.mem_append_left _ hc))
  · split at hc
    · cases hc
    · rcases List.mem_cons.mp hc with rfl | hc
      · decide
      · exact hspace c (hdigits c (List.mem_append_right _ hc))

/-- A number below the sign bit stays what it is. -/
theorem asI64_of_lt {v : Nat} (h : v < 2 ^ 63) : asI64 v = v := by
  unfold asI64
  rw [Nat.mod_eq_of_lt (by omega), if_pos h]

/-- **What snmpbot makes of a time is read as its whole seconds.** -/
theorem timeticksSecs_seconds {t : Nat} {value : Val} (h : Seconds t value) (hrange : t < 2 ^ 32) :
    timeticksSecs value = some ((t / 100 : Nat) : Int) := by
  have hdiv : 100 * (t / 100) + t % 100 = t := Nat.div_add_mod t 100
  have hcast : (100 : Rat) * ((t / 100 : Nat) : Rat) + ((t % 100 : Nat) : Rat) = t := by
    exact_mod_cast hdiv
  cases h with
  | whole h =>
    show some (asI64 (t / 100)) = _
    rw [asI64_of_lt (by omega)]
  | @fraction v h hv =>
    obtain ⟨hlow, hhigh⟩ := abs_le.mp hv
    have hpos : (1 : Rat) ≤ ((t % 100 : Nat) : Rat) := by
      exact_mod_cast Nat.one_le_iff_ne_zero.mpr h
    have hlt : ((t % 100 : Nat) : Rat) ≤ 99 := by
      exact_mod_cast Nat.le_of_lt_succ (Nat.mod_lt t (by omega))
    show some (f64AsI64 v) = _
    rw [f64AsI64_of_floor (q := t / 100) (by linarith) (by linarith) (by omega)]
  | @text whole fraction hne hdigits hvalue =>
    have hexact : (Nat.ofDigitChars 10 (whole ++ fraction) 0 : Rat) *
        (10 : Rat) ^ (0 - (fraction.length : Int)) = (t : Rat) / 100 := by
      have hpow : (10 : Rat) ^ fraction.length ≠ 0 := by positivity
      have hvalue' : (Nat.ofDigitChars 10 (whole ++ fraction) 0 : Rat) * 100 =
          t * 10 ^ fraction.length := by exact_mod_cast hvalue
      rw [zero_sub, zpow_neg, zpow_natCast]
      field_simp
      linarith
    show parseF64AsI64 (trim (decimalText whole fraction)) = _
    rw [trim_decimalText hdigits, parseF64AsI64_decimal hne hdigits, hexact, f64AsI64_round_hundredths hrange]

/-- **What the embedded client makes of it is read as its hundredths.** -/
theorem timeticksSecs_embedded {t : Nat} {raw : Mib.RawObject} (h : IsTimeTicks raw)
    (hrange : t < 2 ^ 32) : timeticksSecs (embedded t raw) = some (t : Int) := by
  have hvalue : embedded t raw = .uint64 t := by
    rw [embedded, Mib.classifySyntax_timeTicks h]
    rfl
  rw [hvalue]
  show some (asI64 t) = _
  rw [asI64_of_lt (by omega)]

/-! ## Where both ways agree -/

/-- The age of `t` hundredths of a second is its whole seconds, both ways. -/
structure SameAge (t : Nat) : Prop where
  snmpbot : ∀ value, Seconds t value → Derives value (t / 100 : Nat)
  embedded : ∀ raw, IsTimeTicks raw → Derives (embedded t raw) (t / 100 : Nat)

/-- Some object is a time. -/
theorem isTimeTicks_plain : IsTimeTicks ⟨some "TimeTicks", none⟩ := by
  show Mib.shortSyntax "TimeTicks" = "TimeTicks"
  decide +kernel

/-- **Both ways agree on no age but zero.** -/
theorem sameAge_iff (t : UInt32) : SameAge t.toNat ↔ t = 0 := by
  have hrange : t.toNat < 2 ^ 32 := t.toNat_lt
  constructor
  · intro h
    have hread := derives_iff.mp (h.embedded _ isTimeTicks_plain)
    rw [timeticksSecs_embedded isTimeTicks_plain hrange, Option.some.injEq, Nat.cast_inj] at hread
    exact UInt32.toNat_inj.mp (by rw [UInt32.toNat_zero]; omega)
  · rintro rfl
    refine ⟨fun value hvalue => ?_, fun raw hraw => ?_⟩
    · exact derives_iff.mpr (timeticksSecs_seconds hvalue hrange)
    · exact derives_iff.mpr (timeticksSecs_embedded hraw hrange)

/-- A second is a second through snmpbot, and a hundred through the embedded client. -/
theorem second_differs : (Seconds 100 (.uint64 1) ∧ Derives (.uint64 1) 1) ∧
    (IsTimeTicks ⟨some "TimeTicks", none⟩ ∧ Derives (embedded 100 ⟨some "TimeTicks", none⟩) 100) ∧
    ¬ SameAge 100 := by
  have hplain := timeticksSecs_embedded (t := 100) isTimeTicks_plain (by omega)
  refine ⟨⟨.whole rfl, derives_iff.mpr rfl⟩, ⟨isTimeTicks_plain, derives_iff.mpr hplain⟩, fun h => ?_⟩
  have hread := derives_iff.mp (h.embedded _ isTimeTicks_plain)
  rw [hplain] at hread
  exact absurd hread (by decide)

end JaspyNexus.Collectors.Entitypoller
