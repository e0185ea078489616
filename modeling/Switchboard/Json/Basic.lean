import Switchboard.Decimal.Binary64
import Switchboard.Table

/-!
# JSON values

Numbers are integers or double precision numbers; which of the two is decided by their text. The members of an
object form a table, so their order in a text is not kept.
-/

namespace Switchboard

/-- A JSON number. Integers read from text lie between `-2 ^ 63` and `2 ^ 64`. -/
inductive JsonNumber
  | int (n : Int)
  | float (x : Binary64)
deriving DecidableEq, Inhabited

inductive Json
  | null
  | bool (b : Bool)
  | num (n : JsonNumber)
  | str (s : String)
  | arr (items : List Json)
  | obj (members : List (String × Json))
deriving Inhabited

namespace Json

def int (n : Int) : Json := .num (.int n)

def nat (n : Nat) : Json := .int n

/-- An object given by its members in any order. -/
def object (members : List (String × Json)) : Json := .obj (Table.ofWrites members)

def strings (l : List String) : Json := .arr (l.map .str)

def getObj? : Json → Option (Table Json)
  | .obj members => some members
  | _ => none

def getArr? : Json → Option (List Json)
  | .arr items => some items
  | _ => none

def getStr? : Json → Option String
  | .str s => some s
  | _ => none

def getBool? : Json → Option Bool
  | .bool b => some b
  | _ => none

def getInt? : Json → Option Int
  | .num (.int n) => some n
  | _ => none

/-- The member of an object. -/
def member? (name : String) : Json → Option Json
  | .obj members => Table.get? name members
  | _ => none

/-- The value at a path of member names. -/
def at? : List String → Json → Option Json
  | [], v => some v
  | name :: path, v => (v.member? name).bind (at? path)

/-- One of several names: alone, or as the only member of an object that holds null. -/
def variant? : Json → Option String
  | .str name => some name
  | .obj [(name, .null)] => some name
  | _ => none

mutual
/-- How many arrays and objects enclose the innermost value, the value itself included. -/
def height : Json → Nat
  | .arr items => heightItems items + 1
  | .obj members => heightMembers members + 1
  | _ => 0

def heightItems : List Json → Nat
  | [] => 0
  | v :: r => max v.height (heightItems r)

def heightMembers : List (String × Json) → Nat
  | [] => 0
  | (_, v) :: r => max v.height (heightMembers r)
end

mutual
/-- The members of every object inside are in order, each name once. -/
def Ordered : Json → Prop
  | .arr items => OrderedItems items
  | .obj members => Table.Ordered members ∧ OrderedMembers members
  | _ => True

def OrderedItems : List Json → Prop
  | [] => True
  | v :: r => v.Ordered ∧ OrderedItems r

def OrderedMembers : List (String × Json) → Prop
  | [] => True
  | (_, v) :: r => v.Ordered ∧ OrderedMembers r
end

end Json

end Switchboard
