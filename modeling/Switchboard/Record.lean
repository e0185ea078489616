import Switchboard.Decimal.Binary64
import Switchboard.Table
import Switchboard.Text.Utf8

/-!
# Records

A record is what a typed value writes: a type tag and named fields, in the order of writing. A name may be written
more than once; the last write counts. The canonical form of a record lists each name once, in order, at every
level.
-/

namespace Switchboard

mutual
/-- A type tag and the fields written under it. -/
inductive Record
  | mk (tag : String) (fields : List (String × Field))

/-- The value of one field. -/
inductive Field
  | bool (b : Bool)
  | int (n : Int64)
  | float (x : Binary64)
  | str (s : String)
  | bytes (b : Bytes)
  | strList (l : List String)
  | intList (l : List Int64)
  | floatList (l : List Binary64)
  | object (r : Record)
  | objectList (l : List Record)
end

namespace Record

def tag : Record → String
  | mk tag _ => tag

def fields : Record → List (String × Field)
  | mk _ fields => fields

instance : Inhabited Record := ⟨mk "" []⟩

end Record

instance : Inhabited Field := ⟨.bool false⟩

mutual
/-- The record with every name once, in order, here and in all nested records. -/
def Record.canonical : Record → Record
  | .mk tag fields => .mk tag (Table.ofWrites (canonicalFields fields))

def Field.canonical : Field → Field
  | .object r => .object r.canonical
  | .objectList l => .objectList (canonicalRecords l)
  | f => f

def canonicalFields : List (String × Field) → List (String × Field)
  | [] => []
  | (name, f) :: r => (name, f.canonical) :: canonicalFields r

def canonicalRecords : List Record → List Record
  | [] => []
  | r :: rs => r.canonical :: canonicalRecords rs
end

mutual
/-- How many records enclose the innermost one, that one included. -/
def Record.height : Record → Nat
  | .mk _ fields => heightFields fields + 1

def Field.height : Field → Nat
  | .object r => r.height
  | .objectList l => heightRecords l
  | _ => 0

def heightFields : List (String × Field) → Nat
  | [] => 0
  | (_, f) :: r => max f.height (heightFields r)

def heightRecords : List Record → Nat
  | [] => 0
  | r :: rs => max r.height (heightRecords rs)
end

end Switchboard
