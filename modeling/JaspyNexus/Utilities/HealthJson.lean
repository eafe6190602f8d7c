import Mathlib
import JaspyNexus.Lib.Codec
import JaspyNexus.Utilities.Health

/-! # The health store as text

What is written of the store of `utilities/health.rs`: the entries of its maps in the order in
which they are visited. How is up to `serde_json`; a layout like the one it has (the fields of a
structure in their order, an integer key as a string) shows that a text can be parsed back. -/

namespace JaspyNexus.Utilities.Health
open JaspyNexus.Lib JaspyNexus.Lib.Codec

/-- The entries of the store in the order in which they are visited. -/
abbrev Entries := List (String × List (Int × InterfaceHealth))

/-- The entries are those of the map, in some order. -/
structure Lists {κ υ : Type} (entries : List (κ × υ)) (m : PMap κ υ) : Prop where
  nodup : (entries.map Prod.fst).Nodup
  holds : ∀ k v, (k, v) ∈ entries ↔ m k = some v

/-- A visit of the store and of the interfaces of each of its devices. -/
structure Visits (entries : Entries) (store : HealthStore) : Prop where
  nodup : (entries.map Prod.fst).Nodup
  interfaces : ∀ e ∈ entries, ∃ interfaces, store e.1 = some interfaces ∧ Lists e.2 interfaces
  complete : ∀ fqdn, store fqdn ≠ none → fqdn ∈ entries.map Prod.fst

/-- What is under a key that comes twice is what came last. -/
def ofEntries {κ υ : Type} [DecidableEq κ] (entries : List (κ × υ)) : PMap κ υ :=
  entries.foldl (fun m e => m.insert e.1 e.2) PMap.empty

/-- The store of the entries. -/
def storeOf (entries : Entries) : HealthStore := ofEntries (entries.map fun e => (e.1, ofEntries e.2))

theorem ofEntries_eq {κ υ : Type} [DecidableEq κ] {entries : List (κ × υ)} {m : PMap κ υ} (h : Lists entries m) :
    ofEntries entries = m := by
  funext k
  rcases hk : m k with _ | v
  · refine PMap.foldl_insert_of_notMem PMap.empty fun e he heq => ?_
    have hheld := (h.holds e.1 e.2).mp he
    rw [heq, hk] at hheld
    cases hheld
  · exact PMap.foldl_insert_of_mem PMap.empty h.nodup ((h.holds k v).mpr hk)

theorem lists_ofEntries {κ υ : Type} [DecidableEq κ] {entries : List (κ × υ)} (h : (entries.map Prod.fst).Nodup) :
    Lists entries (ofEntries entries) where
  nodup := h
  holds k v := by
    refine ⟨fun hmem => PMap.foldl_insert_of_mem PMap.empty h hmem, fun hheld => ?_⟩
    by_cases hk : ∃ e ∈ entries, e.1 = k
    · obtain ⟨e, he, rfl⟩ := hk
      have hrow : ofEntries entries e.1 = some e.2 := PMap.foldl_insert_of_mem PMap.empty h he
      obtain rfl : e.2 = v := Option.some.inj (hrow.symm.trans hheld)
      exact he
    · have hnone : ofEntries entries k = none :=
        PMap.foldl_insert_of_notMem PMap.empty fun e he heq => hk ⟨e, he, heq⟩
      rw [hnone] at hheld
      cases hheld

/-- Every entries with distinct keys are those of a store. -/
theorem visits_storeOf {entries : Entries} (h : (entries.map Prod.fst).Nodup)
    (hinner : ∀ e ∈ entries, (e.2.map Prod.fst).Nodup) : Visits entries (storeOf entries) := by
  have hlists : Lists (entries.map fun e => (e.1, ofEntries e.2)) (storeOf entries) :=
    lists_ofEntries (by rwa [List.map_map])
  refine ⟨h, fun e he => ⟨ofEntries e.2, ?_, lists_ofEntries (hinner e he)⟩, fun fqdn hfqdn => ?_⟩
  · exact (hlists.holds e.1 (ofEntries e.2)).mp (List.mem_map.mpr ⟨e, he, rfl⟩)
  · obtain ⟨interfaces, hheld⟩ := Option.ne_none_iff_exists'.mp hfqdn
    obtain ⟨e, he, heq⟩ := List.mem_map.mp ((hlists.holds fqdn interfaces).mpr hheld)
    exact List.mem_map.mpr ⟨e, he, (Prod.mk.inj heq).1⟩

theorem storeOf_eq {entries : Entries} {store : HealthStore} (h : Visits entries store) : storeOf entries = store := by
  refine ofEntries_eq ⟨by rw [List.map_map]; exact h.nodup, fun fqdn interfaces => ?_⟩
  rw [List.mem_map]
  constructor
  · intro ⟨e, he, heq⟩
    obtain ⟨interfaces', hstore, hlists⟩ := h.interfaces e he
    obtain ⟨rfl, rfl⟩ := Prod.mk.inj heq
    rw [hstore, ofEntries_eq hlists]
  · intro hstore
    obtain ⟨e, he, rfl⟩ := List.mem_map.mp (h.complete fqdn (by rw [hstore]; exact nofun))
    obtain ⟨interfaces', hstore', hlists⟩ := h.interfaces e he
    obtain rfl : interfaces = interfaces' := Option.some.inj (hstore.symm.trans hstore')
    exact ⟨e, he, by rw [ofEntries_eq hlists]⟩

/-! ## A layout -/

/-- A field of a structure. -/
def field {α : Type} (name : String) (p : Codec α) : Codec α := after ('"' :: (name.toList ++ ['"', ':'])) p

/-- A number with another field behind it. -/
def number : Codec Nat := nat ',' rfl

/-- A number that may be missing, to the character behind it. -/
def optional (stop : Char) (h : stop.isDigit = false) : Codec (Option Int) :=
  option (int stop h) ['n', 'u', 'l', 'l', stop] 'n' rfl fun v rest => by
    obtain ⟨c, hc, hstart⟩ := head_int h v rest
    rw [hc]
    refine decide_eq_false fun heq => ?_
    subst heq
    rcases hstart with heq | hdigit
    · cases heq
    · cases hdigit

def boolean : Codec Bool :=
  (either (after ['t', 'r', 'u', 'e'] unit) (after ['f', 'a', 'l', 's', 'e'] unit) (· = 't') (fun _ _ => rfl)
    fun _ _ => rfl).via
  (fun
    | .inl _ => true
    | .inr _ => false)
  (fun b => if b then .inl () else .inr ())
  (fun b => by cases b <;> rfl)

def Sample.codec : Codec Sample :=
  (after ['{'] ((field "ts" number).seq ((field "in_errors" number).seq ((field "out_errors" number).seq
    ((field "out_discards" number).seq ((field "in_octets" number).seq ((field "out_octets" number).seq
      ((field "interval_ms" number).seq (field "speed_mbps" (optional '}' rfl)))))))))).via
  (fun v => ⟨v.1, v.2.1, v.2.2.1, v.2.2.2.1, v.2.2.2.2.1, v.2.2.2.2.2.1, v.2.2.2.2.2.2.1, v.2.2.2.2.2.2.2⟩)
  (fun s => (s.ts, s.inErrors, s.outErrors, s.outDiscards, s.inOctets, s.outOctets, s.intervalMs, s.speedMbps))
  (fun _ => rfl)

def FlapEvent.codec : Codec FlapEvent :=
  (after ['{'] ((field "ts" number).seq ((field "up" boolean).before ['}']))).via
  (fun v => ⟨v.1, v.2⟩) (fun f => (f.ts, f.up)) (fun _ => rfl)

def SpeedEvent.codec : Codec SpeedEvent :=
  (after ['{'] ((field "ts" number).seq ((field "from" (optional ',' rfl)).seq (field "to" (int '}' rfl))))).via
  (fun v => ⟨v.1, v.2.1, v.2.2⟩) (fun e => (e.ts, e.fromSpeed, e.toSpeed)) (fun _ => rfl)

def InterfaceHealth.codec : Codec InterfaceHealth :=
  (after ['{'] ((field "samples" ((list Sample.codec '[' ']' (by decide) fun _ _ => nofun).before [','])).seq
    ((field "flaps" ((list FlapEvent.codec '[' ']' (by decide) fun _ _ => nofun).before [','])).seq
      (field "speed_changes" ((list SpeedEvent.codec '[' ']' (by decide) fun _ _ => nofun).before ['}']))))).via
  (fun v => ⟨v.1, v.2.1, v.2.2⟩) (fun ih => (ih.samples, ih.flaps, ih.speedChanges)) (fun _ => rfl)

def interfacesCodec : Codec (List (Int × InterfaceHealth)) :=
  list ((after ['"'] (int '"' rfl)).seq (after [':'] InterfaceHealth.codec)) '{' '}' (by decide) fun _ _ => nofun

def entriesCodec : Codec Entries :=
  list (text.seq (after [':'] interfacesCodec)) '{' '}' (by decide) fun _ _ => nofun

/-- The text of the entries in this layout. -/
def toJson (entries : Entries) : String := String.ofList (entriesCodec.print entries)

/-- The text as it was written, and nothing else, is read. -/
def readJson (s : String) : Option HealthStore :=
  (entriesCodec.read s.toList).bind fun r => if r.2 = [] then some (storeOf r.1) else none

/-- **The store is read back**, whichever order it was visited in. -/
theorem readJson_toJson {entries : Entries} {store : HealthStore} (h : Visits entries store) :
    readJson (toJson entries) = some store := by
  have hread := entriesCodec.read_print entries []
  rw [List.append_nil] at hread
  rw [readJson, toJson, String.toList_ofList, hread, Option.bind_some, if_pos rfl, storeOf_eq h]

/-- One flap of one interface. -/
def flapEntries : Entries := [("sw1", [(1, ⟨[], [⟨1000, true⟩], []⟩)])]

end JaspyNexus.Utilities.Health
