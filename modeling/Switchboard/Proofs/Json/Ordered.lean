import Switchboard.Proofs.Json.Record

/-!
# Values that are read are in order

The reader puts members into tables and values into lists, so in what it reads every name stands once in its object
(`ordered_of_parse?`): of several members with one name only the last is there to be looked up.
-/

namespace Switchboard.Json

theorem ordered_obj_put {t : Table Json} (h : (obj t).Ordered) (name : String) {v : Json} (hv : v.Ordered) :
    (obj (Table.put name v t)).Ordered := by
  refine ⟨h.1.put name v, orderedMembers_iff.2 fun m hm => ?_⟩
  rcases Table.mem_put hm with rfl | hm
  · exact hv
  · exact orderedMembers_iff.1 h.2 m hm

/-- The value under a name is in order. -/
theorem Ordered.get? {t : Table Json} (h : (obj t).Ordered) {name : String} {v : Json}
    (hv : Table.get? name t = some v) :
    v.Ordered :=
  orderedMembers_iff.1 h.2 (name, v) (Table.mem_of_get? hv)

/-- What has been read of an array or object is in order. -/
def Frame.Ordered : Frame → Prop
  | .items read => OrderedItems read
  | .members read _ => (obj read).Ordered

namespace Reader

/-- What has been read is in order. -/
structure Ordered (r : Reader) : Prop where
  stack : ∀ f ∈ r.stack, f.Ordered
  done : ∀ v, r.mode = .done v → v.Ordered

theorem ordered_finish {stack : List Frame} (h : ∀ f ∈ stack, f.Ordered) {v : Json} (hv : v.Ordered) :
    (finish v stack).Ordered := by
  match stack with
  | [] =>
    refine ⟨h, fun w hw => ?_⟩
    cases hw
    exact hv
  | .items read :: rest =>
    rw [List.forall_mem_cons] at h
    have hitems : OrderedItems (read ++ [v]) := by
      refine orderedItems_iff.2 fun w hw => ?_
      rcases List.mem_append.1 hw with hw | hw
      · exact orderedItems_iff.1 h.1 w hw
      · exact List.mem_singleton.1 hw ▸ hv
    exact ⟨List.forall_mem_cons.2 ⟨hitems, h.2⟩, nofun⟩
  | .members read name :: rest =>
    rw [List.forall_mem_cons] at h
    exact ⟨List.forall_mem_cons.2 ⟨ordered_obj_put h.1 name hv, h.2⟩, nofun⟩

theorem ordered_enter? {stack : List Frame} (h : ∀ f ∈ stack, f.Ordered) {frame : Frame} (hframe : frame.Ordered)
    {mode : Mode} {r : Reader} (hstep : enter? mode frame stack = some r) (hmode : ∀ v, mode ≠ .done v) :
    r.Ordered := by
  unfold enter? at hstep
  split at hstep
  · cases hstep
    exact ⟨List.forall_mem_cons.2 ⟨hframe, h⟩, fun v hv => absurd hv (hmode v)⟩
  · cases hstep

theorem ordered_value? {stack : List Frame} (h : ∀ f ∈ stack, f.Ordered) {t : Token} {r : Reader}
    (hstep : value? stack t = some r) : r.Ordered := by
  cases t with
  | null | bool _ | num _ | str _ =>
    cases hstep
    exact ordered_finish h trivial
  | openArray =>
    have hframe : Frame.Ordered (.items []) := trivial
    exact ordered_enter? h hframe hstep nofun
  | openObject =>
    have hframe : Frame.Ordered (.members [] "") := ⟨Table.ordered_nil, trivial⟩
    exact ordered_enter? h hframe hstep nofun
  | closeArray | closeObject | comma | colon => cases hstep

theorem Ordered.step? {r r' : Reader} {t : Token} (h : r.Ordered) (hstep : r.step? t = some r') : r'.Ordered := by
  have hstack := h.stack
  rcases step?_cases hstep with hvalue | ⟨read, rest, hs, -, rfl⟩ | ⟨read, name, rest, hs, -, rfl⟩ |
    ⟨read, name, s, rest, hs, -, rfl⟩ | ⟨-, hs, hmode⟩
  · exact ordered_value? hstack hvalue
  · rw [hs, List.forall_mem_cons] at hstack
    exact ordered_finish hstack.2 hstack.1
  · rw [hs, List.forall_mem_cons] at hstack
    exact ordered_finish hstack.2 hstack.1
  · rw [hs, List.forall_mem_cons] at hstack
    exact ⟨List.forall_mem_cons.2 hstack, nofun⟩
  · exact ⟨hs ▸ hstack, fun v hv => absurd hv (hmode v)⟩

end Reader

theorem ordered_of_ofTokens? {ts : List Token} {v : Json} (h : ofTokens? ts = some v) : v.Ordered := by
  obtain ⟨r, hrun, hmode⟩ := Option.bind_eq_some_iff.1 h
  have hstart : Reader.Ordered ⟨.value, []⟩ := ⟨nofun, nofun⟩
  have hend := Reader.foldlM_of_kept (fun h => h.step?) hstart hrun
  split at hmode
  · rename_i w hdone
    cases hmode
    exact hend.done v hdone
  · cases hmode

/-- In a value read from a text the members of every object are in order, each name once. -/
theorem ordered_of_parse? {s : String} {v : Json} (h : parse? s = some v) : v.Ordered := by
  obtain ⟨ts, -, hts⟩ := Option.bind_eq_some_iff.1 h
  exact ordered_of_ofTokens? hts

end Switchboard.Json
