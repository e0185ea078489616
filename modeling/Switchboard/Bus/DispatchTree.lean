import Switchboard.Bus.Error
import Switchboard.Table

/-!
# Dispatch trees

A dispatch tree holds handlers under paths of segments. A node may have a handler, children, or both. Nodes are made
on the way to a new handler, and on the way back from a removed one those that have neither a handler nor children
are pruned, so the shape of a tree depends only on which paths have handlers.

The tree of a client takes paths with or without a prefix that addresses the client; the prefix is cut off.
-/

namespace Switchboard

variable {H : Type}

/-- A node and what hangs under it. -/
inductive DispatchNode (H : Type)
  | mk (handler : Option H) (children : List (String × DispatchNode H))

namespace DispatchNode

def handler : DispatchNode H → Option H
  | mk h _ => h

def children : DispatchNode H → Table (DispatchNode H)
  | mk _ cs => cs

/-- A node with nothing in it. -/
def vacant : DispatchNode H := mk none []

def isVacant : DispatchNode H → Bool
  | mk h cs => h.isNone && cs.isEmpty

/-- The handler at a path. -/
def find? : List String → DispatchNode H → Option H
  | [], n => n.handler
  | s :: path, n => (n.children.get? s).bind (find? path)

/-- Puts a handler at a path, unless there is one. -/
def insert? (h : H) : List String → DispatchNode H → Option (DispatchNode H)
  | [], mk none cs => some (mk (some h) cs)
  | [], mk (some _) _ => none
  | s :: path, mk own cs => do
    let child ← insert? h path ((Table.get? s cs).getD vacant)
    some (mk own (Table.put s child cs))

/-- A table of children after one of them has changed: it is left out if nothing is left of it. -/
def replaceChild (s : String) (child : DispatchNode H) (cs : Table (DispatchNode H)) : Table (DispatchNode H) :=
  if child.isVacant then Table.erase s cs else Table.put s child cs

/-- Takes the handler at a path away if it is chosen, and answers it with what is left. -/
def removeIf (chosen : H → Bool) : List String → DispatchNode H → Option (H × DispatchNode H)
  | [], mk (some h) cs => if chosen h then some (h, mk none cs) else none
  | [], mk none _ => none
  | s :: path, mk own cs => do
    let (h, child) ← removeIf chosen path (← Table.get? s cs)
    some (h, mk own (replaceChild s child cs))

mutual
/-- How many handlers a node and those under it have. -/
def count : DispatchNode H → Nat
  | mk h cs => h.toList.length + countAll cs

def countAll : List (String × DispatchNode H) → Nat
  | [] => 0
  | (_, n) :: r => count n + countAll r
end

end DispatchNode

/-- The handlers of a client. -/
structure DispatchTree (H : Type) where
  owner : Identity
  root : DispatchNode H

namespace DispatchTree

def empty (owner : Identity) : DispatchTree H := ⟨owner, .vacant⟩

/-- Attaches a handler at a path. -/
def add (t : DispatchTree H) (path : List String) (h : H) : Except DispatchError (DispatchTree H) :=
  let relative := t.owner.relative path
  if relative.isEmpty then .error .rootPath
  else
    match t.root.insert? h relative with
    | some root => .ok { t with root := root }
    | none => .error (.alreadyRegistered (Topic.join relative))

/-- The handler at a path. There is never one at the root. -/
def get? (t : DispatchTree H) (path : List String) : Option H :=
  let relative := t.owner.relative path
  if relative.isEmpty then none else t.root.find? relative

/-- Detaches the handler at a path if it is chosen. -/
def removeIf (t : DispatchTree H) (path : List String) (chosen : H → Bool) : Option H × DispatchTree H :=
  let relative := t.owner.relative path
  if relative.isEmpty then (none, t)
  else
    match t.root.removeIf chosen relative with
    | some (h, root) => (some h, { t with root := root })
    | none => (none, t)

/-- Detaches the handler at a path. -/
def remove (t : DispatchTree H) (path : List String) : Option H × DispatchTree H := t.removeIf path fun _ => true

/-- How many handlers are attached. -/
def count (t : DispatchTree H) : Nat := t.root.count

def isEmpty (t : DispatchTree H) : Bool := t.count == 0

end DispatchTree

end Switchboard
