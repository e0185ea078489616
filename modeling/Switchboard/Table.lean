/-!
# Tables

A table is a list of named entries in increasing order of name, each name once. Names are ordered by their
characters, which is also the order of their UTF-8 bytes. `put` keeps the order, so tables with the same entries
are equal.
-/

namespace Switchboard

/-- Named entries in increasing order of name. -/
abbrev Table (α : Type) := List (String × α)

namespace Table

variable {α : Type}

def get? (name : String) : Table α → Option α
  | [] => none
  | (k, v) :: r => if k = name then some v else get? name r

/-- Sets an entry; an earlier entry of that name is replaced. -/
def put (name : String) (value : α) : Table α → Table α
  | [] => [(name, value)]
  | (k, v) :: r =>
    if name < k then (name, value) :: (k, v) :: r
    else if name = k then (name, value) :: r
    else (k, v) :: put name value r

def erase (name : String) : Table α → Table α
  | [] => []
  | (k, v) :: r => if k = name then r else (k, v) :: erase name r

def names (t : Table α) : List String := t.map (·.1)

def has (name : String) (t : Table α) : Bool := (get? name t).isSome

/-- The table that a list of writes leaves behind: of two writes to one name the later counts. -/
def ofWrites (writes : List (String × α)) : Table α :=
  writes.foldl (fun t w => put w.1 w.2 t) []

/-- Names increase from entry to entry. -/
def Ordered (t : Table α) : Prop := t.Pairwise (·.1 < ·.1)

end Table

end Switchboard
