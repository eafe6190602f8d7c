import Mathlib
import JaspyNexus.Lib.HashMap
import JaspyNexus.Lib.LastWrite
import JaspyNexus.Lib.Quoted

/-! # Arrays and objects of strings

Two kinds of JSON text. What is printed is read back: an array as it was, an object with
the same entries. -/

namespace JaspyNexus.Lib.Json

/-- The escapes with a letter of their own. -/
def escapes : Escapes where
  table := [('"', '"'), ('\\', '\\'), ('\n', 'n'), ('\r', 'r'), ('\t', 't'), ('\x08', 'b'), ('\x0c', 'f')]
  letters := by simp
  special := by simp

def text (s : String) : List Char := '"' :: escapes.quote s.toList

def readText (l : List Char) : Option (String × List Char) :=
  if l.head? = some '"' then (escapes.read l.tail).map fun r => (String.ofList r.1, r.2) else none

def entry (e : Sigma fun _ : String => String) : List Char := text e.1 ++ ':' :: text e.2

def readEntry (l : List Char) : Option ((Sigma fun _ : String => String) × List Char) :=
  (readText l).bind fun key =>
    if key.2.head? = some ':' then (readText key.2.tail).map fun value => (⟨key.1, value.1⟩, value.2) else none

/-- What is read, when nothing is left. -/
def whole {α : Type} (l : List Char) (first : Char) (read : List Char → Option (α × List Char)) : Option α :=
  if l.head? = some first then
    (read l.tail).bind fun r => if r.2 = [] then some r.1 else none
  else none

def array (v : List String) : String := .ofList ('[' :: items text ']' v)

def readArray (s : String) : Option (List String) := whole s.toList '[' (readItems readText ']')

def object (m : HashMap String String) : String := .ofList ('{' :: items entry '}' m.entries)

def readObject (s : String) : Option (HashMap String String) :=
  (whole s.toList '{' (readItems readEntry '}')).map (writeAll fun e => some (e.1, e.2))

theorem readText_text (s : String) (rest : List Char) : readText (text s ++ rest) = some (s, rest) := by
  rw [readText, text, List.cons_append, List.head?_cons, if_pos rfl, List.tail_cons, Escapes.read_quote]
  simp

theorem readEntry_entry (e : Sigma fun _ : String => String) (rest : List Char) :
    readEntry (entry e ++ rest) = some (e, rest) := by
  rw [entry, List.append_assoc, readEntry, readText_text, Option.bind_some, List.cons_append, List.head?_cons,
    if_pos rfl, List.tail_cons, readText_text]
  rfl

theorem whole_items {α : Type} {item : α → List Char} {readItem : List Char → Option (α × List Char)}
    {first close : Char} (hread : ∀ a rest, readItem (item a ++ rest) = some (a, rest)) (hclose : close ≠ ',')
    (hstart : ∀ a rest, (item a ++ rest).head? ≠ some close) (l : List α) :
    whole (first :: items item close l) first (readItems readItem close) = some l := by
  have hitems := readItems_items hread hclose hstart l []
  rw [List.append_nil] at hitems
  rw [whole, List.head?_cons, if_pos rfl, List.tail_cons, hitems]
  rfl

/-- **An array is read back.** -/
theorem readArray_array (v : List String) : readArray (array v) = some v := by
  rw [readArray, array, String.toList_ofList]
  exact whole_items readText_text (by decide) (fun _ _ => by simp [text]) v

/-- **An object is read back**, in some order. -/
theorem readObject_object (m : HashMap String String) :
    ∃ m', readObject (object m) = some m' ∧ HashMap.Reorders m m' := by
  refine ⟨writeAll (fun e => some (e.1, e.2)) m.entries, ?_, ?_⟩
  · rw [readObject, object, String.toList_ofList]
    rw [whole_items readEntry_entry (by decide) (fun _ _ => by simp [entry, text]) m.entries]
    rfl
  · refine List.lookup_ext m.nodupKeys (AList.nodupKeys _) fun k v => ?_
    show m.lookup k = some v ↔ (writeAll _ m.entries).lookup k = some v
    rw [lookup_writeAll_eq_some_iff]
    · simp [HashMap.mem_entries]
    · intro e he e' he' v v' hv hv'
      obtain ⟨hkey, rfl⟩ := Prod.mk.inj (Option.some.inj hv)
      obtain ⟨hkey', rfl⟩ := Prod.mk.inj (Option.some.inj hv')
      have hlookup := HashMap.mem_entries.mp he
      rw [hkey, ← hkey', HashMap.mem_entries.mp he'] at hlookup
      exact (Option.some.inj hlookup).symm

end JaspyNexus.Lib.Json
