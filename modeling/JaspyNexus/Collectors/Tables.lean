import Mathlib
import JaspyNexus.Snmp.Types

/-! # Reading polled tables

What the collectors take out of a table's rows: `obj_i64` and `obj_str` of
`collectors/entitypoller.rs`, the bitmap columns of `collectors/vlanpoller.rs`
and the bit names of `collectors/lagpoller.rs`. -/

namespace JaspyNexus.Collectors
open JaspyNexus.Lib JaspyNexus.Snmp

/-- `v as i64` of a float: toward zero, into the range. -/
def f64AsI64 (v : Rat) : Int :=
  let toward := Int.tdiv v.num v.den
  max (-2 ^ 63) (min (2 ^ 63 - 1) toward)

/-- `obj_i64`. -/
def objI64 (objects : PMap String Val) (key : String) : Option Int :=
  match objects key with
  | some (.uint64 v) => some (asI64 v)
  | some (.float64 v) => some (f64AsI64 v)
  | _ => none

/-- `obj_str`. -/
def objStr (objects : PMap String Val) (key : String) : Option String :=
  match objects key with
  | some (.str v) => some v
  | _ => none

/-- `obj_bits`: the names in an array. -/
def objBits (objects : PMap String Val) (key : String) : List String :=
  match objects key with
  | some (.other (.array items)) => items.filterMap id
  | _ => []

/-! ## Bitmaps -/

/-- `char::is_whitespace`. -/
def isWhitespace (c : Char) : Bool :=
  let n := c.toNat
  (9 ≤ n && n ≤ 13) || n = 0x20 || n = 0x85 || n = 0xa0 || n = 0x1680 ||
    (0x2000 ≤ n && n ≤ 0x200a) || n = 0x2028 || n = 0x2029 || n = 0x202f || n = 0x205f || n = 0x3000

/-- `str::split_whitespace`, on the characters. -/
def splitWhitespace (value : List Char) : List (List Char) :=
  (value.splitOnP isWhitespace).filter fun token => token ≠ []

def hexDigit (c : Char) : Option Nat :=
  if '0' ≤ c && c ≤ '9' then some (c.toNat - '0'.toNat)
  else if 'a' ≤ c && c ≤ 'f' then some (c.toNat - 'a'.toNat + 10)
  else if 'A' ≤ c && c ≤ 'F' then some (c.toNat - 'A'.toNat + 10)
  else none

/-- `u8::from_str_radix(token, 16)`: digits after an optional plus sign. -/
def parseHexOctet (token : List Char) : Option Nat :=
  let digits := match token with
    | '+' :: rest => rest
    | _ => token
  if digits = [] then none
  else (digits.mapM hexDigit).bind fun ds =>
    let v := ds.foldl (fun acc d => acc * 16 + d) 0
    if v < 256 then some v else none

/-- `parse_hex_octets`: one bad token voids the whole value. -/
def parseHexOctets (value : String) : List Nat :=
  ((splitWhitespace value.toList).mapM parseHexOctet).getD []

/-- `bitmap_values`: the bits set, most significant first, from `base`. -/
def bitmapValues (octets : List Nat) (base : Int) : List Int :=
  octets.zipIdx.flatMap fun e =>
    (List.range 8).filterMap fun j =>
      if e.1.testBit (7 - j) then some (base + e.2 * 8 + j) else none

/-- `obj_bitmap`. -/
def objBitmap (entry : ResultEntry) (key : String) (base : Int) : List Int :=
  match objStr entry.objects key with
  | some hex => bitmapValues (parseHexOctets hex) base
  | none => []

example : bitmapValues (parseHexOctets "7f 80") 0 = [1, 2, 3, 4, 5, 6, 7, 8] := by decide +kernel

/-! ## Tables row by row -/

/-- A row of a table, with its index and its columns. -/
def tableRow (index : List (String × Int)) (columns : List (String × Val)) : ResultEntry :=
  ⟨"sw1", fun key => index.lookup key, fun key => columns.lookup key⟩

def tableOf (rows : List ResultEntry) : Response := ⟨"", [], [], rows⟩

/-! ## Polls -/

/-- What a source of a poll gets when it asks for a table. -/
abbrev Fetch := String → String → Option Response

/-- A device's tables, and which source's queries for them succeed. -/
structure Polled where
  tables : String → Response
  answered : String → String → Bool

/-- `fetch_table` of a source. -/
def Polled.fetch (p : Polled) : Fetch := fun source table =>
  if p.answered source table then some (p.tables table) else none

/-- The same device with every query answered. -/
def Polled.full (p : Polled) : Polled := { p with answered := fun _ _ => true }

end JaspyNexus.Collectors
