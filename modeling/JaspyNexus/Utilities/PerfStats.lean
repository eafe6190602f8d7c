import Mathlib

/-! # The in-flight gauge

`inflight_enter` and `inflight_exit` of `utilities/perfstats.rs`. They are lock-free: each
atomic operation is a step of its own, and other threads run between the two of
`inflight_enter`. A gauge of threads does not wrap. -/

namespace JaspyNexus.Utilities

structure PerfStats where
  snmpInflight : Nat
  snmpInflightMax : Nat
  deriving DecidableEq, Repr

namespace PerfStats
variable (perf : PerfStats)

def new : PerfStats := ⟨0, 0⟩

/-- The first step of `inflight_enter`. What the thread has counted is the gauge it leaves. -/
def inflightEnter : PerfStats := { perf with snmpInflight := perf.snmpInflight + 1 }

/-- The second one. -/
def inflightPeak (now : Nat) : PerfStats := { perf with snmpInflightMax := max perf.snmpInflightMax now }

def inflightExit : PerfStats := { perf with snmpInflight := perf.snmpInflight - 1 }

end PerfStats

end JaspyNexus.Utilities
