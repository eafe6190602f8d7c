import Mathlib
import JaspyNexus.Collectors.Tables
import JaspyNexus.Lib.HashMap

/-! # Labelled metrics

The samples of `models/metrics.rs`, over the floats that they hold. -/

namespace JaspyNexus.Models
open JaspyNexus.Lib JaspyNexus.Collectors

inductive MetricValue (F : Type) where
  | int64 (v : Int)
  | uint64 (v : Nat)
  | float64 (v : F)
  deriving DecidableEq, Repr

structure LabeledMetric (F : Type) where
  name : String
  labels : HashMap String String
  value : MetricValue F
  timestamp : Nat

namespace MetricValue

def asF64 : MetricValue Rat → Rat
  | .int64 v => F64.round v
  | .uint64 v => F64.round v
  | .float64 v => v

def asI64 : MetricValue Rat → Int
  | .int64 v => v
  | .uint64 v => Snmp.asI64 v
  | .float64 v => f64AsI64 v

/-- A value as it is displayed; `display` is that of the floats. -/
def text {F : Type} (display : F → String) : MetricValue F → String
  | .int64 v => toString v
  | .uint64 v => toString v
  | .float64 v => display v

end MetricValue

/-- A label as it is rendered. -/
def renderLabel (label : String × String) : String := label.1 ++ "=\"" ++ label.2 ++ "\""

/-- `as_text`: the labels are sorted, so that the order of the map does not show. -/
def LabeledMetric.asText {F : Type} (display : F → String) (m : LabeledMetric F) : String :=
  let labelData := m.labels.entries.map fun e => renderLabel (e.1, e.2)
  let labeltext := ",".intercalate (labelData.mergeSort fun a b => decide (a ≤ b))
  m.name ++ "\x7b" ++ labeltext ++ "\x7d " ++ m.value.text display ++ " " ++ toString m.timestamp

end JaspyNexus.Models
