import Mathlib.Data.Finmap
import Switchboard.Proofs.DispatchTree

/-!
# Dispatch trees as finite maps

A dispatch map holds handlers under the relative forms of paths, with no nodes and nothing to prune. A tree and a map
that have seen the same calls give the same answers, whatever the calls and the forms of their paths
(`answers_eq_answers_of_map`).

* (simulation) `Represents` ties a tree to its map, and each call keeps the tie and gives the same answer on both
  sides;
* (run) by induction over the calls this holds of every run from an empty tree.
-/

namespace Switchboard

variable {H : Type}

/-- Handlers under relative paths. -/
abbrev DispatchMap (H : Type) := Finmap fun _ : List String => H

/-- An operation of a dispatch tree. -/
inductive DispatchCall (H : Type)
  | add (path : List String) (h : H)
  | get (path : List String)
  | remove (path : List String)
  | removeIf (path : List String) (chosen : H → Bool)
  | count
  | isEmpty

/-- What an operation answers. -/
inductive DispatchAnswer (H : Type)
  | added (result : Except DispatchError Unit)
  | handler (h : Option H)
  | number (n : Nat)
  | truth (b : Bool)

/-- A refused addition, or a look-up or removal without a result. -/
def DispatchAnswer.Fruitless : DispatchAnswer H → Prop
  | added (.error _) => True
  | handler none => True
  | _ => False

namespace DispatchTree

/-- A call of a tree. -/
def call (t : DispatchTree H) : DispatchCall H → DispatchAnswer H × DispatchTree H
  | .add path h =>
    match t.add path h with
    | .ok t' => (.added (.ok ()), t')
    | .error e => (.added (.error e), t)
  | .get path => (.handler (t.get? path), t)
  | .remove path => (.handler (t.remove path).1, (t.remove path).2)
  | .removeIf path chosen => (.handler (t.removeIf path chosen).1, (t.removeIf path chosen).2)
  | .count => (.number t.count, t)
  | .isEmpty => (.truth t.isEmpty, t)

/-- The answers to a list of calls, and the tree after them. -/
def run (t : DispatchTree H) : List (DispatchCall H) → List (DispatchAnswer H) × DispatchTree H
  | [] => ([], t)
  | c :: r => ((t.call c).1 :: ((t.call c).2.run r).1, ((t.call c).2.run r).2)

end DispatchTree

namespace DispatchMap

/-- A call of the map of a client. -/
def call (owner : Identity) (m : DispatchMap H) : DispatchCall H → DispatchAnswer H × DispatchMap H
  | .add path h =>
    let key := owner.relative path
    if key = [] then (.added (.error .rootPath), m)
    else if key ∈ m then (.added (.error (.alreadyRegistered (Topic.join key))), m)
    else (.added (.ok ()), m.insert key h)
  | .get path => (.handler (m.lookup (owner.relative path)), m)
  | .remove path => (.handler (m.lookup (owner.relative path)), m.erase (owner.relative path))
  | .removeIf path chosen =>
    match m.lookup (owner.relative path) with
    | none => (.handler none, m)
    | some h => if chosen h then (.handler (some h), m.erase (owner.relative path)) else (.handler none, m)
  | .count => (.number m.keys.card, m)
  | .isEmpty => (.truth (m.keys = ∅), m)

/-- The answers to a list of calls, and the map after them. -/
def run (owner : Identity) (m : DispatchMap H) : List (DispatchCall H) → List (DispatchAnswer H) × DispatchMap H
  | [] => ([], m)
  | c :: r => ((call owner m c).1 :: (run owner (call owner m c).2 r).1, (run owner (call owner m c).2 r).2)

end DispatchMap

/-! ### Simulation -/

namespace DispatchTree

/-- The tree holds what the map holds, and counts it right. -/
structure Represents (t : DispatchTree H) (m : DispatchMap H) : Prop where
  wellFormed : t.WellFormed
  find : ∀ path, t.root.find? path = m.lookup path
  count : t.count = m.keys.card

theorem represents_empty (owner : Identity) : (empty owner : DispatchTree H).Represents ∅ :=
  ⟨wellFormed_empty owner, fun path => by rw [Finmap.lookup_empty]; exact DispatchNode.find?_vacant path, rfl⟩

variable {t : DispatchTree H} {m : DispatchMap H}

theorem Represents.get? (h : t.Represents m) (path : List String) :
    t.get? path = m.lookup (t.owner.relative path) := by
  rw [h.wellFormed.get?_eq, h.find]

/-- A tree whose look-ups and count have followed an insertion represents the map after it. -/
private theorem Represents.add (h : t.Represents m) {t' : DispatchTree H} {path : List String} {x : H}
    (ha : t.add path x = .ok t') : t'.Represents (m.insert (t.owner.relative path) x) := by
  have hw := h.wellFormed.add ha
  have hc := h.wellFormed.count_add ha
  have hnone := (h.wellFormed.add_eq_ok ha).2.1
  obtain ⟨-, -, root, hi, rfl⟩ := h.wellFormed.add_eq_ok ha
  refine ⟨hw, fun q => ?_, ?_⟩
  · rw [DispatchNode.find?_insert? hi q]
    split
    · rename_i hq
      rw [← hq, Finmap.lookup_insert]
    · rename_i hq
      rw [Finmap.lookup_insert_of_ne _ (Ne.symm hq), h.find]
  · have hnot : t.owner.relative path ∉ m := by rw [← Finmap.lookup_eq_none, ← h.get?, hnone]
    have hkeys : (m.insert (t.owner.relative path) x).keys = insert (t.owner.relative path) m.keys := by
      ext q
      rw [Finmap.mem_keys, Finmap.mem_insert, Finset.mem_insert, Finmap.mem_keys]
    rw [hc, h.count, hkeys, Finset.card_insert_of_notMem (by rwa [Finmap.mem_keys])]

/-- A tree whose look-ups and count have followed a removal represents the map after it. -/
private theorem Represents.removeIf (h : t.Represents m) {path : List String} {chosen : H → Bool} {x : H}
    {root : DispatchNode H} (hg : t.get? path = some x)
    (hr : t.root.removeIf chosen (t.owner.relative path) = some (x, root))
    (hw : ({ t with root := root } : DispatchTree H).WellFormed) :
    ({ t with root := root } : DispatchTree H).Represents (m.erase (t.owner.relative path)) := by
  refine ⟨hw, fun q => ?_, ?_⟩
  · rw [DispatchNode.find?_removeIf h.wellFormed.ordered hr q]
    split
    · rename_i hq
      rw [← hq, Finmap.lookup_erase]
    · rename_i hq
      rw [Finmap.lookup_erase_ne (Ne.symm hq), h.find]
  · have hmem : t.owner.relative path ∈ m.keys := by
      rw [Finmap.mem_keys]
      exact Finmap.mem_of_lookup_eq_some (b := x) (by rw [← h.get?, hg])
    have hcount : root.count + 1 = t.count := DispatchNode.count_removeIf h.wellFormed.ordered hr
    rw [Finmap.keys_erase, Finset.card_erase_of_mem hmem, ← h.count, ← hcount]
    rfl

private theorem Represents.call_removeIf (h : t.Represents m) (path : List String) (chosen : H → Bool) :
    (t.removeIf path chosen).1 = (m.lookup (t.owner.relative path)).filter chosen ∧
      (t.removeIf path chosen).2.Represents
        (if ((m.lookup (t.owner.relative path)).filter chosen).isSome then m.erase (t.owner.relative path)
          else m) := by
  have hw := h.wellFormed.removeIf path chosen
  rw [← h.get?]
  rcases h.wellFormed.removeIf_cases path chosen with ⟨hn, he⟩ | ⟨x, root, -, hg, hc, hr, he⟩
  · rw [he, hn]
    exact ⟨rfl, h⟩
  · rw [he] at hw ⊢
    rw [hg, Option.filter_some_pos hc]
    exact ⟨rfl, h.removeIf hg hr hw⟩

/-- One call: the answers are the same, and the tie is kept. -/
theorem Represents.call (h : t.Represents m) (c : DispatchCall H) :
    (t.call c).1 = (DispatchMap.call t.owner m c).1 ∧ (t.call c).2.owner = t.owner ∧
      (t.call c).2.Represents (DispatchMap.call t.owner m c).2 := by
  cases c with
  | add path x =>
    rcases h.wellFormed.add_cases path x with ⟨hrel, he⟩ | ⟨hrel, hsome, he⟩ | ⟨hrel, hnone, root, hi, he⟩
    · simp only [DispatchTree.call, DispatchMap.call, he, if_pos hrel]
      exact ⟨trivial, trivial, h⟩
    · have hmem : t.owner.relative path ∈ m := by rwa [h.get?, Finmap.lookup_isSome] at hsome
      simp only [DispatchTree.call, DispatchMap.call, he, if_neg hrel, if_pos hmem]
      exact ⟨trivial, trivial, h⟩
    · have hmem : t.owner.relative path ∉ m := by rwa [h.get?, Finmap.lookup_eq_none] at hnone
      simp only [DispatchTree.call, DispatchMap.call, he, if_neg hrel, if_neg hmem]
      exact ⟨trivial, trivial, h.add he⟩
  | get path => exact ⟨congrArg DispatchAnswer.handler (h.get? path), rfl, h⟩
  | remove path =>
    -- a plain removal is one that chooses every handler
    obtain ⟨hfst, hsnd⟩ := h.call_removeIf path fun _ => true
    have howner := h.wellFormed.owner_of_removeIf path fun _ => true
    rw [show (m.lookup (t.owner.relative path)).filter (fun _ => true) = m.lookup (t.owner.relative path) by
      cases m.lookup (t.owner.relative path) <;> rfl] at hfst hsnd
    refine ⟨congrArg DispatchAnswer.handler hfst, howner, ?_⟩
    simp only [DispatchMap.call]
    split at hsnd
    · exact hsnd
    · rename_i hnot
      -- nothing was there, so to erase it changes nothing
      have herase : m.erase (t.owner.relative path) = m := by
        refine Finmap.ext_lookup fun q => ?_
        by_cases hq : q = t.owner.relative path
        · rw [hq, Finmap.lookup_erase]
          exact (Option.not_isSome_iff_eq_none.1 hnot).symm
        · rw [Finmap.lookup_erase_ne hq]
      rw [herase]
      exact hsnd
  | removeIf path chosen =>
    obtain ⟨hfst, hsnd⟩ := h.call_removeIf path chosen
    have howner := h.wellFormed.owner_of_removeIf path chosen
    simp only [DispatchTree.call, DispatchMap.call, hfst]
    cases hl : m.lookup (t.owner.relative path) with
    | none => exact ⟨rfl, howner, by simpa [hl] using hsnd⟩
    | some x =>
      by_cases hc : chosen x = true
      · simp only [hc, if_true, Option.filter_some_pos hc]
        exact ⟨trivial, howner, by simpa [hl, Option.filter, hc] using hsnd⟩
      · simp only [hc, Option.filter]
        exact ⟨rfl, howner, by simpa [hl, Option.filter, hc] using hsnd⟩
  | count => exact ⟨congrArg DispatchAnswer.number h.count, rfl, h⟩
  | isEmpty =>
    refine ⟨congrArg DispatchAnswer.truth ?_, rfl, h⟩
    simp only [isEmpty, h.count, Finset.card_eq_zero, Bool.beq_eq_decide_eq]

/-! ### Runs -/

/-- A run: the answers are the same, and the tie is kept. -/
theorem Represents.run (h : t.Represents m) (calls : List (DispatchCall H)) :
    (t.run calls).1 = (DispatchMap.run t.owner m calls).1 ∧ (t.run calls).2.owner = t.owner ∧
      (t.run calls).2.Represents (DispatchMap.run t.owner m calls).2 := by
  induction calls generalizing t m with
  | nil => exact ⟨rfl, rfl, h⟩
  | cons c r ih =>
    obtain ⟨hanswer, howner, hnext⟩ := h.call c
    obtain ⟨hanswers, howner', hlast⟩ := ih hnext
    rw [howner] at hanswers howner' hlast
    exact ⟨congrArg₂ List.cons hanswer hanswers, howner', hlast⟩

/-- The tree of a client after a list of calls. -/
def after (owner : Identity) (calls : List (DispatchCall H)) : DispatchTree H := ((empty owner).run calls).2

/-- A fruitless call leaves the tree as it is. -/
private theorem Represents.call_of_fruitless (h : t.Represents m) {c : DispatchCall H}
    (hf : (t.call c).1.Fruitless) : (t.call c).2 = t := by
  have removeIf_fruitless : ∀ path chosen, (DispatchAnswer.handler (t.removeIf path chosen).1).Fruitless →
      (t.removeIf path chosen).2 = t := by
    intro path chosen hf
    rcases h.wellFormed.removeIf_cases path chosen with ⟨-, he⟩ | ⟨x, root, -, -, -, -, he⟩
    · rw [he]
    · rw [he] at hf
      exact hf.elim
  cases c with
  | add path x =>
    rcases h.wellFormed.add_cases path x with ⟨-, he⟩ | ⟨-, -, he⟩ | ⟨-, -, root, -, he⟩
    · simp only [DispatchTree.call, he]
    · simp only [DispatchTree.call, he]
    · simp only [DispatchTree.call, he] at hf
      exact hf.elim
  | remove path => exact removeIf_fruitless path _ hf
  | removeIf path chosen => exact removeIf_fruitless path chosen hf
  | get _ | count | isEmpty => rfl

/-- A dispatch tree behaves as a finite map from relative paths to handlers. After any calls, in any order and on
paths of any form, it has given the answers of the map; additions are refused exactly at the root and at occupied
paths; additions and removals change the look-up of the forms of their own path and of no other, above it or below;
the count is the size of the map; and a call that is refused or finds nothing leaves the tree as it is. -/
theorem answers_eq_answers_of_map (owner : Identity) (calls : List (DispatchCall H)) :
    ((empty owner : DispatchTree H).run calls).1 = (DispatchMap.run owner ∅ calls).1 ∧
    (∀ front rest, owner.Owns front → owner.relative (front ++ rest) = rest) ∧
    (∀ path, (∀ front, owner.Owns front → ¬front <+: path) → owner.relative path = path) ∧
    (∀ path h, (after owner calls : DispatchTree H).add path h = .error .rootPath ↔ owner.relative path = []) ∧
    (∀ path h, (∃ name, (after owner calls : DispatchTree H).add path h = .error (.alreadyRegistered name)) ↔
      ((after owner calls : DispatchTree H).get? path).isSome = true) ∧
    (∀ path (h : H) t', (after owner calls).add path h = .ok t' → ∀ q,
      t'.get? q = if owner.relative path = owner.relative q then some h else (after owner calls).get? q) ∧
    (∀ path (chosen : H → Bool) q, ((after owner calls).removeIf path chosen).2.get? q =
      if owner.relative path = owner.relative q then ((after owner calls).get? path).filter (!chosen ·)
      else (after owner calls).get? q) ∧
    (after owner calls : DispatchTree H).count = (DispatchMap.run (H := H) owner ∅ calls).2.keys.card ∧
    (∀ c : DispatchCall H, ((after owner calls).call c).1.Fruitless →
      ((after owner calls).call c).2 = after owner calls) := by
  obtain ⟨hanswers, howner, h⟩ := (represents_empty owner : (empty owner : DispatchTree H).Represents ∅).run calls
  change (after owner calls).owner = owner at howner
  change (after owner calls).Represents _ at h
  have hw := h.wellFormed
  refine ⟨hanswers, fun front rest hf => Identity.relative_append hf rest, fun path hp =>
    Identity.relative_of_not_owned hp, fun path x => ?_, fun path x => ?_, fun path x t' ha q => ?_,
    fun path chosen q => ?_, h.count, fun c hf => h.call_of_fruitless hf⟩
  · have cases := hw.add_cases path x
    rw [howner] at cases
    constructor
    · intro ha
      rcases cases with ⟨hrel, -⟩ | ⟨-, -, he⟩ | ⟨-, -, root, -, he⟩
      · exact hrel
      · rw [he] at ha; cases ha
      · rw [he] at ha; cases ha
    · intro hrel
      rcases cases with ⟨-, he⟩ | ⟨hne, -⟩ | ⟨hne, -⟩
      · exact he
      · exact absurd hrel hne
      · exact absurd hrel hne
  · rcases hw.add_cases path x with ⟨hrel, he⟩ | ⟨-, hsome, he⟩ | ⟨-, hnone, root, -, he⟩
    · rw [he, get?_of_relative_nil hrel]
      simp
    · rw [he]
      simp [hsome]
    · rw [he, hnone]
      simp
  · rw [hw.get?_add ha, howner]
  · rw [hw.get?_removeIf, howner]

private def plant : Identity := ⟨["lab"], "sim", "plant", "c1"⟩

private def nested : List (DispatchCall Nat) := [.add ["a"] 1, .add ["lab", "sim", "plant", "_all", "a", "b"] 2]

/-- A handler under another one is reached by the bare form of its path, and stays when the upper one goes. -/
theorem answers_eq_answers_of_map_nested :
    plant.Owns ["lab", "sim", "plant", "_all"] ∧
    plant.relative (["lab", "sim", "plant", "_all"] ++ ["a", "b"]) = ["a", "b"] ∧
    (∃ name, (after plant nested).add ["a", "b"] 3 = .error (.alreadyRegistered name)) ∧
    (∃ t', (after plant nested).add ["a", "c"] 3 = .ok t' ∧ t'.get? ["a", "b"] = some 2) ∧
    ((after plant nested).removeIf ["a"] fun _ => true).2.get? ["a", "b"] = some 2 ∧
    ((after plant nested).call (.removeIf ["a"] (· == 7))).2.get? ["a"] = some 1 := by
  obtain ⟨-, hrel, -, -, htaken, hadd, hremove, -, hkeep⟩ := answers_eq_answers_of_map plant nested
  have howns : plant.Owns ["lab", "sim", "plant", "_all"] := ⟨"plant", "_all", .inl rfl, .inr rfl, rfl⟩
  refine ⟨howns, hrel _ _ howns, (htaken _ 3).2 (by decide), ⟨_, rfl, ?_⟩, ?_, ?_⟩
  · rw [hadd ["a", "c"] 3 _ rfl]
    decide
  · rw [hremove]
    decide
  · rw [hkeep (.removeIf ["a"] (· == 7)) (by trivial)]
    decide

end DispatchTree

end Switchboard
