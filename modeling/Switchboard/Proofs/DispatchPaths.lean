import Switchboard.Proofs.DispatchMap
import Switchboard.Proofs.DispatchShape

/-!
# The nodes of dispatch trees

In a pruned tree every node but the root has a handler, or one below it. So the paths of its nodes are the prefixes of
the paths that have a handler, and the root (`DispatchNode.mem_paths_iff`), and two trees in which the same is found
are one (`DispatchNode.eq_of_find?`). Calls keep a tree pruned whether they succeed or fail, so all this holds of
every tree that was empty once (`DispatchTree.nodes_eq_prefixes`).
-/

namespace Switchboard

variable {H : Type}

namespace DispatchNode

variable {n m : DispatchNode H}

mutual
/-- The paths of a node and of all nodes under it, as seen from the node. -/
def paths : DispatchNode H → List (List String)
  | mk _ cs => [] :: pathsAll cs

def pathsAll : List (String × DispatchNode H) → List (List String)
  | [] => []
  | (s, n) :: r => n.paths.map (s :: ·) ++ pathsAll r
end

mutual
/-- A node and those under it without their handlers: all that is left is where there is one. -/
def shape : DispatchNode H → DispatchNode Unit
  | mk h cs => mk (h.map fun _ => ()) (shapeAll cs)

def shapeAll : List (String × DispatchNode H) → List (String × DispatchNode Unit)
  | [] => []
  | (s, n) :: r => (s, n.shape) :: shapeAll r
end

/-! ### Handlers below a node -/

/-- A node that is not vacant has a handler, or one below it. -/
theorem Pruned.exists_find? (hn : n.Pruned) (hvacant : n.isVacant = false) : ∃ path h, find? path n = some h := by
  induction hn with
  | @mk own cs hchildren _ ih =>
    cases own with
    | some h => exact ⟨[], h, rfl⟩
    | none =>
      cases cs with
      | nil => cases hvacant
      | cons e r =>
        obtain ⟨s, child⟩ := e
        obtain ⟨path, h, hfind⟩ := ih (s, child) List.mem_cons_self (hchildren (s, child) List.mem_cons_self)
        refine ⟨s :: path, h, ?_⟩
        rw [find?_cons, Table.get?, if_pos rfl]
        exact hfind

/-! ### Paths -/

theorem mem_pathsAll_iff {cs : List (String × DispatchNode H)} {path : List String} :
    path ∈ pathsAll cs ↔ ∃ e ∈ cs, ∃ rest ∈ e.2.paths, path = e.1 :: rest := by
  induction cs with
  | nil => simp [pathsAll]
  | cons e r ih =>
    obtain ⟨s, child⟩ := e
    simp [pathsAll, ih, eq_comm]

/-- The nodes on the way to a handler are there. -/
theorem mem_paths_of_find? {path bound : List String} {h : H} (hfind : find? bound n = some h)
    (hpath : path <+: bound) : path ∈ n.paths := by
  induction bound generalizing n path with
  | nil =>
    obtain ⟨own, cs⟩ := n
    rw [List.prefix_nil.1 hpath]
    exact List.mem_cons_self
  | cons s bound ih =>
    obtain ⟨own, cs⟩ := n
    cases path with
    | nil => exact List.mem_cons_self
    | cons s' path =>
      obtain ⟨rfl, hrest⟩ := List.cons_prefix_cons.1 hpath
      rw [find?_cons] at hfind
      obtain ⟨child, hchild, hfind⟩ := Option.bind_eq_some_iff.1 hfind
      refine List.mem_cons_of_mem _ (mem_pathsAll_iff.2 ⟨(s', child), Table.mem_of_get? hchild, path, ?_, rfl⟩)
      exact ih hfind hrest

/-- The nodes are the root and those on the way to a handler. -/
theorem mem_paths_iff (ho : n.Ordered) (hp : n.Pruned) {path : List String} :
    path ∈ n.paths ↔ path = [] ∨ ∃ bound h, find? bound n = some h ∧ path <+: bound := by
  constructor
  · intro hmem
    induction path generalizing n with
    | nil => exact .inl rfl
    | cons s path ih =>
      obtain ⟨own, cs⟩ := n
      rw [paths, List.mem_cons] at hmem
      rcases hmem with hnil | hmem
      · cases hnil
      · obtain ⟨⟨s', child⟩, hchild, path', hpath', heq⟩ := mem_pathsAll_iff.1 hmem
        cases heq
        have hget := ho.table.get?_of_mem hchild
        -- the child is not vacant, so there is a handler below it even if the path ends there
        have hbelow : ∃ bound h, find? bound child = some h ∧ path <+: bound := by
          rcases ih (ho.children _ hchild) (hp.children _ hchild) hpath' with rfl | hbelow
          · obtain ⟨bound, h, hfind⟩ := (hp.children _ hchild).exists_find? (hp.isVacant_child _ hchild)
            exact ⟨bound, h, hfind, List.nil_prefix⟩
          · exact hbelow
        obtain ⟨bound, h, hfind, hprefix⟩ := hbelow
        refine .inr ⟨s' :: bound, h, ?_, List.cons_prefix_cons.2 ⟨rfl, hprefix⟩⟩
        rw [find?_cons, hget]
        exact hfind
  · rintro (rfl | ⟨bound, h, hfind, hpath⟩)
    · cases n
      exact List.mem_cons_self
    · exact mem_paths_of_find? hfind hpath

/-- Each node is listed once. -/
theorem Ordered.nodup_paths (hn : n.Ordered) : n.paths.Nodup := by
  induction hn with
  | @mk own cs htable hchildren ih =>
    clear hchildren
    have hall : (pathsAll cs).Nodup := by
      induction cs with
      | nil => exact List.nodup_nil
      | cons e r ihr =>
        obtain ⟨s, child⟩ := e
        have hchild : (child.paths.map (s :: ·)).Nodup :=
          (ih (s, child) List.mem_cons_self).map fun _ _ heq => (List.cons.inj heq).2
        refine List.nodup_append.2 ⟨hchild, ihr htable.tail fun e he => ih e (List.mem_cons_of_mem _ he), ?_⟩
        intro path hpath path' hpath' heq
        obtain ⟨rest, -, rfl⟩ := List.mem_map.1 hpath
        obtain ⟨e, he, rest', -, rfl⟩ := mem_pathsAll_iff.1 hpath'
        exact ne_of_lt (htable.head_lt he) (List.cons.inj heq).1
    refine List.nodup_cons.2 ⟨fun hnil => ?_, hall⟩
    obtain ⟨e, -, rest, -, heq⟩ := mem_pathsAll_iff.1 hnil
    cases heq

/-! ### Shapes -/

theorem shapeAll_eq_map (cs : List (String × DispatchNode H)) :
    shapeAll cs = cs.map fun e => (e.1, e.2.shape) := by
  induction cs with
  | nil => rfl
  | cons e r ih => rw [shapeAll, ih, List.map_cons]

theorem get?_shapeAll (s : String) (cs : List (String × DispatchNode H)) :
    Table.get? s (shapeAll cs) = (Table.get? s cs).map shape := by
  induction cs with
  | nil => rfl
  | cons e r ih =>
    obtain ⟨k, child⟩ := e
    by_cases hk : k = s
    · simp [shapeAll, Table.get?, hk]
    · simp [shapeAll, Table.get?, hk, ih]

theorem find?_shape (path : List String) (n : DispatchNode H) :
    find? path n.shape = (find? path n).map fun _ => () := by
  induction path generalizing n with
  | nil =>
    obtain ⟨own, cs⟩ := n
    rfl
  | cons s path ih =>
    obtain ⟨own, cs⟩ := n
    rw [shape, find?_cons, find?_cons, get?_shapeAll]
    cases Table.get? s cs with
    | none => rfl
    | some child => exact ih child

theorem isVacant_shape (n : DispatchNode H) : n.shape.isVacant = n.isVacant := by
  obtain ⟨own, cs⟩ := n
  cases own <;> cases cs <;> rfl

theorem Ordered.shape (hn : n.Ordered) : n.shape.Ordered := by
  induction hn with
  | @mk own cs htable _ ih =>
    refine .mk ?_ fun e he => ?_
    · rw [shapeAll_eq_map]
      exact htable.map _ fun _ _ hlt => hlt
    · rw [shapeAll_eq_map] at he
      obtain ⟨e', he', rfl⟩ := List.mem_map.1 he
      exact ih e' he'

theorem Pruned.shape (hn : n.Pruned) : n.shape.Pruned := by
  induction hn with
  | @mk own cs hvacant _ ih =>
    refine .mk (fun e he => ?_) fun e he => ?_
    · rw [shapeAll_eq_map] at he
      obtain ⟨e', he', rfl⟩ := List.mem_map.1 he
      rw [isVacant_shape]
      exact hvacant e' he'
    · rw [shapeAll_eq_map] at he
      obtain ⟨e', he', rfl⟩ := List.mem_map.1 he
      exact ih e' he'

/-- Nodes under which the same is found are one: neither has a child that the other lacks, as there would be a handler
below it. -/
theorem eq_of_find? (hn : n.Ordered) (hp : n.Pruned) (hm : m.Ordered) (hq : m.Pruned)
    (hfind : ∀ path, find? path n = find? path m) : n = m := by
  induction hp generalizing m with
  | @mk own cs hvacant hpruned ih =>
    obtain ⟨own', cs'⟩ := m
    have hown : own = own' := hfind []
    have hcs : cs = cs' := by
      apply hn.table.ext hm.table
      intro s
      have hchild : ∀ path, (Table.get? s cs).bind (find? path) = (Table.get? s cs').bind (find? path) :=
        fun path => hfind (s :: path)
      cases hs : Table.get? s cs with
      | none =>
        cases hs' : Table.get? s cs' with
        | none => rfl
        | some child' =>
          have hmem' := Table.mem_of_get? hs'
          obtain ⟨path, h, hbelow⟩ := (hq.children _ hmem').exists_find? (hq.isVacant_child _ hmem')
          have hnone := hchild path
          rw [hs, hs', Option.bind_none, Option.bind_some, hbelow] at hnone
          cases hnone
      | some child =>
        have hmem := Table.mem_of_get? hs
        cases hs' : Table.get? s cs' with
        | none =>
          obtain ⟨path, h, hbelow⟩ := (hpruned _ hmem).exists_find? (hvacant _ hmem)
          have hnone := hchild path
          rw [hs, hs', Option.bind_none, Option.bind_some, hbelow] at hnone
          cases hnone
        | some child' =>
          have hmem' := Table.mem_of_get? hs'
          have heq : child = child' := by
            apply ih _ hmem (hn.children _ hmem) (hm.children _ hmem') (hq.children _ hmem')
            intro path
            simpa [hs, hs'] using hchild path
          rw [heq]
    rw [hown, hcs]

end DispatchNode

namespace DispatchTree

/-- The paths of the nodes of a tree, the root included. -/
def nodes (t : DispatchTree H) : List (List String) := t.root.paths

/-- The tree without its handlers. -/
def shape (t : DispatchTree H) : DispatchNode Unit := t.root.shape

/-- Whatever is called, and whether it succeeds or fails, the tree stays well-formed and pruned. -/
theorem WellFormed.call {t : DispatchTree H} (ht : t.WellFormed) (hp : t.Pruned) (c : DispatchCall H) :
    (t.call c).2.WellFormed ∧ (t.call c).2.Pruned ∧ (t.call c).2.owner = t.owner := by
  cases c with
  | add path h =>
    cases ha : t.add path h with
    | ok t' =>
      simp only [DispatchTree.call, ha]
      exact ⟨ht.add ha, hp.add ht ha, ht.owner_of_add ha⟩
    | error e =>
      have hcall : (t.call (.add path h)).2 = t := by simp only [DispatchTree.call, ha]
      rw [hcall]
      exact ⟨ht, hp, rfl⟩
  | remove path => exact ⟨ht.removeIf path _, hp.removeIf ht path _, ht.owner_of_removeIf path _⟩
  | removeIf path chosen =>
    exact ⟨ht.removeIf path chosen, hp.removeIf ht path chosen, ht.owner_of_removeIf path chosen⟩
  | get path => exact ⟨ht, hp, rfl⟩
  | count => exact ⟨ht, hp, rfl⟩
  | isEmpty => exact ⟨ht, hp, rfl⟩

theorem WellFormed.run {t : DispatchTree H} (ht : t.WellFormed) (hp : t.Pruned) (calls : List (DispatchCall H)) :
    (t.run calls).2.WellFormed ∧ (t.run calls).2.Pruned ∧ (t.run calls).2.owner = t.owner := by
  induction calls generalizing t with
  | nil => exact ⟨ht, hp, rfl⟩
  | cons c calls ih =>
    obtain ⟨ht', hp', howner⟩ := ht.call hp c
    obtain ⟨hlast, hpruned, howner'⟩ := ih ht' hp'
    exact ⟨hlast, hpruned, howner'.trans howner⟩

theorem wellFormed_after (owner : Identity) (calls : List (DispatchCall H)) :
    (after owner calls).WellFormed ∧ (after owner calls).Pruned ∧ (after owner calls).owner = owner :=
  (wellFormed_empty owner).run (pruned_empty owner) calls

/-- Trees in which handlers are found on the same paths have the same shape. -/
theorem WellFormed.shape_eq {t t' : DispatchTree H} (ht : t.WellFormed) (hp : t.Pruned) (ht' : t'.WellFormed)
    (hp' : t'.Pruned) (howner : t'.owner = t.owner) (hbound : ∀ path, (t'.get? path).isSome = (t.get? path).isSome) :
    t'.shape = t.shape := by
  apply DispatchNode.eq_of_find? ht'.ordered.shape hp'.shape ht.ordered.shape hp.shape
  intro path
  have hrelative : t.owner.relative (t.owner.address ++ path) = path :=
    Identity.relative_append t.owner.owns_address path
  have hsame := hbound (t.owner.address ++ path)
  rw [ht'.get?_eq, ht.get?_eq, howner, hrelative] at hsame
  rw [DispatchNode.find?_shape, DispatchNode.find?_shape]
  cases hfind : t.root.find? path <;> cases hfind' : t'.root.find? path <;> simp_all

/-- Whatever has been called since a tree was empty, its nodes are the root and the prefixes of the paths that have a
handler, each once: every other node has a handler at or below it, trees with handlers on the same paths have the same
shape, and a tree without a handler is a bare root. -/
theorem nodes_eq_prefixes (owner : Identity) (calls : List (DispatchCall H)) :
    let t := after owner calls
    t.nodes.Nodup ∧
    (∀ path, path ∈ t.nodes ↔ path = [] ∨ ∃ bound h, t.get? bound = some h ∧ path <+: owner.relative bound) ∧
    (∀ path ∈ t.nodes, path ≠ [] → ∃ rest h, t.get? (owner.address ++ (path ++ rest)) = some h) ∧
    (∀ calls' : List (DispatchCall H), (∀ path, ((after owner calls').get? path).isSome = (t.get? path).isSome) →
      (after owner calls').shape = t.shape) ∧
    ((∀ path, t.get? path = none) → t.root = .vacant) := by
  intro t
  obtain ⟨ht, hp, howner⟩ : t.WellFormed ∧ t.Pruned ∧ t.owner = owner := wellFormed_after owner calls
  have hrelative : ∀ path, owner.relative (owner.address ++ path) = path :=
    Identity.relative_append owner.owns_address
  have hget : ∀ path, t.get? path = t.root.find? (owner.relative path) := by
    intro path
    rw [ht.get?_eq, howner]
  have hfind : ∀ path, t.root.find? path = t.get? (owner.address ++ path) := fun path => by rw [hget, hrelative]
  have hnodes : ∀ path, path ∈ t.nodes ↔ path = [] ∨ ∃ bound h, t.root.find? bound = some h ∧ path <+: bound :=
    fun path => DispatchNode.mem_paths_iff ht.ordered hp
  refine ⟨ht.ordered.nodup_paths, fun path => ?_, fun path hmem hne => ?_, fun calls' hbound => ?_, fun hnone => ?_⟩
  · rw [hnodes]
    apply or_congr_right
    constructor
    · rintro ⟨bound, h, hbound, hprefix⟩
      exact ⟨owner.address ++ bound, h, hfind bound ▸ hbound, by rwa [hrelative]⟩
    · rintro ⟨bound, h, hbound, hprefix⟩
      exact ⟨owner.relative bound, h, hget bound ▸ hbound, hprefix⟩
  · rcases (hnodes path).1 hmem with hnil | ⟨bound, h, hbound, rest, rfl⟩
    · exact absurd hnil hne
    · exact ⟨rest, h, hfind _ ▸ hbound⟩
  · obtain ⟨ht', hp', howner'⟩ := wellFormed_after owner calls'
    exact ht.shape_eq hp ht' hp' (howner'.trans howner.symm) hbound
  · -- a root that is not vacant would have a handler below it
    cases hvacant : t.root.isVacant with
    | true => exact DispatchNode.eq_vacant_of_isVacant hvacant
    | false =>
      obtain ⟨path, h, hbelow⟩ := DispatchNode.Pruned.exists_find? hp hvacant
      rw [hfind, hnone] at hbelow
      cases hbelow

private def crane : Identity := ⟨["yard"], "dock", "east", "crane"⟩

private def lifted : List (DispatchCall Nat) :=
  [.add ["hoist", "up", "fast"] 1, .add ["yard", "dock", "east", "_all", "hoist"] 2, .add ["hoist", "up", "fast"] 3,
    .remove ["hoist", "up", "fast"]]

private theorem find?_alone (name : String) (h : H) (path : List String) :
    DispatchNode.find? path (.mk none [(name, .mk (some h) [])]) = if path = [name] then some h else none := by
  rcases path with _ | ⟨s, path⟩
  · rfl
  · rw [DispatchNode.find?_cons, Table.get?]
    by_cases hs : name = s
    · rw [if_pos hs, Option.bind_some]
      cases path <;> simp [DispatchNode.find?, DispatchNode.handler, DispatchNode.children, Table.get?, hs]
    · simp [hs, Ne.symm hs, Table.get?]

/-- What a longer path needed is gone with it, but for the node of a handler on the way. The tree has the shape of one
that never had more than this handler, and is bare without it. -/
theorem nodes_eq_prefixes_crane :
    (["hoist"] ∈ (after crane lifted).nodes ∧
      ∃ rest h, (after crane lifted).get? (crane.address ++ (["hoist"] ++ rest)) = some h) ∧
    ["hoist", "up"] ∉ (after crane lifted).nodes ∧
    (after crane [.add ["hoist"] 7]).shape = (after crane lifted).shape ∧
    (after crane (lifted ++ [.remove ["hoist"]])).root = .vacant := by
  obtain ⟨-, hnodes, hbelow, hshape, -⟩ := nodes_eq_prefixes crane lifted
  obtain ⟨-, -, -, -, hbare⟩ := nodes_eq_prefixes crane (lifted ++ [.remove ["hoist"]])
  have hmem : ["hoist"] ∈ (after crane lifted).nodes := by
    rw [hnodes]
    exact .inr ⟨["hoist"], 2, by decide, List.prefix_refl _⟩
  have hroot : (after crane lifted).root = .mk none [("hoist", .mk (some 2) [])] := rfl
  have hroot' : (after crane [.add ["hoist"] 7]).root = .mk none [("hoist", .mk (some 7) [])] := rfl
  refine ⟨⟨hmem, hbelow _ hmem (by decide)⟩, by decide, hshape _ fun path => ?_, hbare fun path => ?_⟩
  · rw [(wellFormed_after _ _).1.get?_eq, (wellFormed_after _ _).1.get?_eq, hroot, hroot', find?_alone, find?_alone]
    change (if crane.relative path = ["hoist"] then some 7 else none).isSome =
      (if crane.relative path = ["hoist"] then some 2 else none).isSome
    split <;> rfl
  · rw [(wellFormed_after _ _).1.get?_eq]
    exact DispatchNode.find?_vacant _

end DispatchTree

end Switchboard
