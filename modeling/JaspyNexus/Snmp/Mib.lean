import Mathlib
import JaspyNexus.Snmp.Types

/-! # The syntaxes of the MIB files

`snmp/mib.rs`: the syntax an object is rendered under, from the name and the options
that its MIB file gives. Every counter, gauge and time is one unsigned number. -/

namespace JaspyNexus.Snmp.Mib
open JaspyNexus.Lib JaspyNexus.Snmp

/-- `RawSyntaxOption`. -/
structure RawSyntaxOption where
  name : String
  value : Option Int
  bit : Option Nat

/-- `RawObject`, as far as its syntax goes: an item of the options that does not
deserialize is `none`. -/
structure RawObject where
  valueSyntax : Option String
  syntaxOptions : Option (List (Option RawSyntaxOption))

/-- The items of an array of options that deserialize. -/
def syntaxItems (options : Option (List (Option RawSyntaxOption))) : List RawSyntaxOption :=
  (options.getD []).filterMap id

/-- `parse_enum_options`. -/
def parseEnumOptions (options : Option (List (Option RawSyntaxOption))) : PMap Int String :=
  (syntaxItems options).foldl (fun names option =>
    match option.value with
    | some value => PMap.insert names value option.name
    | none => names) PMap.empty

/-- `parse_bits_options`: by bit. -/
def parseBitsOptions (options : Option (List (Option RawSyntaxOption))) : List (Nat × String) :=
  ((syntaxItems options).filterMap fun option => option.bit.map fun bit => (bit, option.name)).mergeSort
    fun a b => decide (a.1 ≤ b.1)

/-- What follows the last "::". -/
def afterColons : List Char → Option (List Char)
  | [] => none
  | c :: rest => (afterColons rest).or (if c = ':' ∧ rest.head? = some ':' then some rest.tail else none)

/-- A syntax without the name of its MIB. -/
def shortSyntax (name : String) : String := ((afterColons name.toList).map String.ofList).getD name

/-- `classify_syntax`. -/
def classifySyntax (raw : RawObject) : Syntax :=
  match shortSyntax (raw.valueSyntax.getD "") with
  | "ENUM" => .enum (parseEnumOptions raw.syntaxOptions)
  | "BITS" => .bits (parseBitsOptions raw.syntaxOptions)
  | "Integer32" | "INTEGER" | "Integer" => .integer
  | "Counter32" | "Counter64" | "Counter" | "Gauge32" | "Gauge" | "Unsigned32" | "TimeTicks"
  | "TimeInterval" => .unsigned
  | "DisplayString" | "SnmpAdminString" | "OwnerString" => .displayString
  | "MacAddress" | "PhysAddress" => .macAddress
  | "IpAddress" | "InetAddressIPv4" | "NetworkAddress" => .ipAddress
  | "OBJECT IDENTIFIER" | "ObjectIdentifier" | "AutonomousType" | "RowPointer" | "VariablePointer"
  | "InstancePointer" => .objectIdentifier
  | _ => .octetString

/-- A time is classified as a number, with or without the name of its MIB. -/
theorem classifySyntax_timeTicks {raw : RawObject}
    (h : shortSyntax (raw.valueSyntax.getD "") = "TimeTicks") : classifySyntax raw = .unsigned := by
  unfold classifySyntax
  rw [h]
  simp

example : shortSyntax "SNMPv2-SMI::TimeTicks" = "TimeTicks" := by decide +kernel

end JaspyNexus.Snmp.Mib
