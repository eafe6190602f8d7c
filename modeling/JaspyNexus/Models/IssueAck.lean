import Mathlib
import JaspyNexus.Lib.Rows

/-! # Acknowledgements

The rows of `issue_acks`, one for an issue key, and the statements on them
(`IssueAck` of `models/dbo.rs`). -/

namespace JaspyNexus.Models
open JaspyNexus.Lib

structure IssueAck where
  issueKey : String
  firstSeen : Int64
  ackedAt : Int64
  ackedBy : Option String
  note : Option String
  deriving DecidableEq

/-- The table `issue_acks`, with its primary key. -/
structure IssueAcks where
  rows : List IssueAck
  primary : (rows.map IssueAck.issueKey).Nodup

namespace IssueAcks

def empty : IssueAcks := ⟨[], List.nodup_nil⟩

/-- The row of a key. -/
def find (acks : IssueAcks) (key : String) : Option IssueAck :=
  acks.rows.find? fun ack => ack.issueKey = key

/-- `IssueAck::delete`. -/
def delete (acks : IssueAcks) (key : String) : IssueAcks where
  rows := acks.rows.filter fun ack => ack.issueKey ≠ key
  primary := (List.filter_sublist.map _).nodup acks.primary

/-- `IssueAck::upsert`: the row takes the place of the one of its key. -/
def upsert (acks : IssueAcks) (ack : IssueAck) : IssueAcks where
  rows := (acks.delete ack.issueKey).rows ++ [ack]
  primary := by
    rw [List.map_append, List.nodup_append]
    refine ⟨(acks.delete _).primary, List.nodup_singleton _, fun key hkey other hother => ?_⟩
    obtain ⟨row, hrow, rfl⟩ := List.mem_map.mp hkey
    obtain rfl : other = ack.issueKey := List.mem_singleton.mp hother
    simpa using (List.mem_filter.mp hrow).2

variable {acks : IssueAcks} {ack : IssueAck} {key : String}

theorem find_eq_some_iff : acks.find key = some ack ↔ ack ∈ acks.rows ∧ ack.issueKey = key :=
  Rows.find?_eq_some_iff acks.primary

theorem find_eq_none_iff : acks.find key = none ↔ ∀ ack ∈ acks.rows, ack.issueKey ≠ key := by
  simp [find]

@[simp] theorem find_delete (other : String) :
    (acks.delete other).find key = if key = other then none else acks.find key := by
  split
  · next h =>
    subst h
    exact find_eq_none_iff.mpr fun ack hack => by simpa using (List.mem_filter.mp hack).2
  · next h =>
    ext ack
    rw [find_eq_some_iff, find_eq_some_iff, delete, List.mem_filter]
    constructor
    · exact fun ⟨hmem, hkey⟩ => ⟨hmem.1, hkey⟩
    · rintro ⟨hmem, rfl⟩
      exact ⟨⟨hmem, by simpa using h⟩, rfl⟩

@[simp] theorem find_upsert :
    (acks.upsert ack).find key = if key = ack.issueKey then some ack else acks.find key := by
  have hfind : (acks.upsert ack).find key =
      ((acks.delete ack.issueKey).find key).or (if ack.issueKey = key then some ack else none) :=
    Rows.find?_insert _ _
  rw [hfind, find_delete]
  by_cases h : key = ack.issueKey
  · simp [h]
  · simp [h, Ne.symm h]

end IssueAcks
end JaspyNexus.Models
