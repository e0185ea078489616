import Switchboard.Json.Basic

/-!
# Layers of JSON

One value is laid over another: objects are merged member by member, and anything else takes the place of what was
there. A null among the members of two merged objects leaves the lower layer as it is; a value that is taken whole
keeps its nulls.
-/

namespace Switchboard.Json

mutual
/-- Lays a value over another. -/
def overlay (lower : Json) : Json → Json
  | .obj upper =>
    match lower with
    | .obj members => .obj (overlayMembers members upper)
    | _ => .obj upper
  | upper => upper

/-- Lays members over others, one after another. -/
def overlayMembers (lower : Table Json) : List (String × Json) → Table Json
  | [] => lower
  | (_, .null) :: rest => overlayMembers lower rest
  | (name, upper) :: rest =>
    match Table.get? name lower with
    | some old => overlayMembers (Table.put name (overlay old upper) lower) rest
    | none => overlayMembers (Table.put name upper lower) rest
end

end Switchboard.Json
