import Mathlib.Data.Fin.Basic
import Mathlib.Data.List.Lex
import JaspyNexus.Lib.F64
import JaspyNexus.Lib.PMap

/-! # SNMP values, MIB tables and responses

The owned value type of `snmp/raw.rs`, the resolved MIB model of `snmp/mib.rs`
and the snmpbot-shaped responses of `snmp/types.rs`. A sub-identifier is a
`u64`, so it carries its bound; the other machine integers are `Nat` and `Int`
with the conversions that wrap written out (`asI64`). -/

namespace JaspyNexus.Snmp
open JaspyNexus.Lib

/-- One sub-identifier of an OID (`u64`). -/
abbrev SubId := Fin (2 ^ 64)

instance instNeZeroSubId : NeZero (2 ^ 64) := ⟨by decide⟩

/-- An object identifier (`Vec<u64>`), ordered lexicographically. -/
abbrev Oid := List SubId

/-! ## Conversions -/

/-- `v as i64` of an unsigned value: two's complement. -/
def asI64 (v : Nat) : Int :=
  if v % 2 ^ 64 < 2 ^ 63 then (v % 2 ^ 64 : Nat) else (v % 2 ^ 64 : Nat) - 2 ^ 64

theorem asI64_injective {a b : SubId} (h : asI64 a = asI64 b) : a = b := by
  have ha : (a : Nat) < 2 ^ 64 := a.isLt
  have hb : (b : Nat) < 2 ^ 64 := b.isLt
  unfold asI64 at h
  rw [Nat.mod_eq_of_lt ha, Nat.mod_eq_of_lt hb] at h
  apply Fin.ext
  split at h <;> split at h <;> omega

/-! ## Values on the wire -/

inductive RawValue where
  | boolean (b : Bool)
  | integer (v : Int)
  | octetString (bytes : List UInt8)
  | oid (parts : Oid)
  | ipAddress (a b c d : UInt8)
  | counter32 (v : Nat)
  | unsigned32 (v : Nat)
  | timeticks (v : Nat)
  | opaqueBytes (bytes : List UInt8)
  | counter64 (v : Nat)
  | null
  | endOfMibView
  | noSuchObject
  | noSuchInstance
  | unsupported
  deriving DecidableEq, Repr

/-- The sentinels that end a column walk. -/
def RawValue.isEndOfView : RawValue → Bool
  | .endOfMibView | .noSuchObject | .noSuchInstance => true
  | _ => false

/-- One variable binding of a response. -/
structure VarBind where
  oid : Oid
  value : RawValue
  deriving DecidableEq, Repr

/-! ## The resolved MIB model -/

inductive Syntax where
  | integer
  | unsigned
  | octetString
  | displayString
  | macAddress
  | ipAddress
  | objectIdentifier
  | enum (names : PMap Int String)
  | bits (names : List (Nat × String))

structure MibObject where
  id : String
  oid : Oid
  valueSyntax : Syntax

structure MibTable where
  id : String
  index : List MibObject
  columns : List MibObject

/-- What `MibRegistry::from_raw` guarantees of a table it registers: the index
is never empty (`resolve_index_ids`), and an object id names one object. -/
structure MibTable.Resolved (table : MibTable) : Prop where
  index_ne_nil : table.index ≠ []
  same_id : ∀ c ∈ table.columns, ∀ c' ∈ table.columns, c.id = c'.id → c = c'

/-! ## Responses -/

/-- `serde_json::Value`, as far as the collectors look into it: an array by what
`as_str` gives for its items, anything else by nothing. -/
inductive JsonValue where
  | array (items : List (Option String))
  | other
  deriving DecidableEq, Repr

/-- `SNMPBotResultEntryObjectValue`. -/
inductive Val where
  | uint64 (v : Nat)
  | float64 (v : Rat)
  | str (s : String)
  | bool (b : Bool)
  | empty
  | other (v : JsonValue)
  deriving DecidableEq, Repr

/-- `SNMPBotResultEntry`. -/
structure ResultEntry where
  hostId : String
  index : PMap String Int
  objects : PMap String Val

/-- `SNMPBotResponse`. -/
structure Response where
  id : String
  indexKeys : List String
  objectKeys : List String
  entries : List ResultEntry

end JaspyNexus.Snmp
