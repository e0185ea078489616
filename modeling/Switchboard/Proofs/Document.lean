import Switchboard.Codec.Document
import Switchboard.Proofs.Lists

/-!
# What documents carry

A document carries a record if it has the tag of the record, answers each of its fields with what was written there,
and has no other fields (`Document.Carries`). Whoever reads a document that carries a record need not know in which
format it came.

A document that is nested in another one is lower than that (`getObject_height`, `getObjects_height`), so a document
is as high as the record that it carries, or higher (`Carries.height_le`).
-/

namespace Switchboard

/-- A record is not higher than the highest of a list. -/
theorem height_le_heightRecords {records : List Record} {r : Record} (h : r ∈ records) :
    r.height ≤ heightRecords records := by
  induction records with
  | nil => cases h
  | cons q rs ih =>
    rcases List.mem_cons.1 h with rfl | h
    · exact Nat.le_max_left _ _
    · exact Nat.le_trans (ih h) (Nat.le_max_right _ _)

namespace Document

mutual
/-- The document answers as the record does. Whether it counts its tag among the fields is left open. -/
def Carries (d : Document) : Record → Prop
  | .mk tag fields => d.typeTag? = some tag ∧ CarriesFields d fields ∧
    ∀ name, name ≠ Json.tagName → (d.hasField name = true ↔ name ∈ fields.map (·.1))

def CarriesFields (d : Document) : List (String × Field) → Prop
  | [] => True
  | (name, f) :: r => CarriesField d name f ∧ CarriesFields d r

/-- The document answers a field with its value. -/
def CarriesField (d : Document) (name : String) : Field → Prop
  | .bool b => d.getBool name = .ok b
  | .int n => d.getInt name = .ok n
  | .float x => d.getFloat name = .ok x
  | .str s => d.getStr name = .ok s
  | .bytes b => d.getBytes name = .ok b
  | .strList l => d.getStrs name = .ok l
  | .intList l => d.getInts name = .ok l
  | .floatList l => d.getFloats name = .ok l
  | .object r => ∃ child, d.getObject name = .ok child ∧ Carries child r
  | .objectList l => ∃ children, d.getObjects name = .ok children ∧ CarriesAll children l

/-- Documents that carry records, one each. -/
def CarriesAll : List Document → List Record → Prop
  | [], [] => True
  | d :: ds, r :: rs => Carries d r ∧ CarriesAll ds rs
  | _, _ => False
end

/-! ### Heights -/

theorem height_pos (d : Document) : 0 < d.height := by
  cases d with
  | json members => exact Nat.succ_pos _
  | messagePack record =>
    obtain ⟨tag, fields⟩ := record
    exact Nat.succ_pos _

private theorem height_le_of_get?_members {name : String} {members : Table Json} {v : Json}
    (h : Table.get? name members = some v) : v.height ≤ Json.heightMembers members := by
  induction members with
  | nil => cases h
  | cons m r ih =>
    obtain ⟨k, w⟩ := m
    simp only [Table.get?] at h
    split at h
    · cases h
      exact Nat.le_max_left _ _
    · exact Nat.le_trans (ih h) (Nat.le_max_right _ _)

private theorem height_le_of_get?_fields {name : String} {fields : Table Field} {f : Field}
    (h : Table.get? name fields = some f) : f.height ≤ heightFields fields := by
  induction fields with
  | nil => cases h
  | cons m r ih =>
    obtain ⟨k, g⟩ := m
    simp only [Table.get?] at h
    split at h
    · cases h
      exact Nat.le_max_left _ _
    · exact Nat.le_trans (ih h) (Nat.le_max_right _ _)

private theorem height_le_of_mem_items {items : List Json} {v : Json} (h : v ∈ items) :
    v.height ≤ Json.heightItems items := by
  induction items with
  | nil => cases h
  | cons w r ih =>
    rcases List.mem_cons.1 h with rfl | h
    · exact Nat.le_max_left _ _
    · exact Nat.le_trans (ih h) (Nat.le_max_right _ _)

private theorem height_ofJson? {v : Json} {d : Document} (h : ofJson? v = some d) : d.height = v.height := by
  cases v with
  | obj members =>
    cases h
    rfl
  | _ => cases h

theorem expect_eq_ok {α : Type} {name : String} {expected : Shape} {o : Option α} {a : α}
    (h : expect name expected o = .ok a) : o = some a := by
  cases o with
  | none => cases h
  | some b =>
    cases h
    rfl

theorem items_eq_ok {α : Type} {name : String} {expected : Shape} {item? : Json → Option α} {v : Json} {l : List α}
    (h : items name expected item? v = .ok l) : ∃ js, v = .arr js ∧ js.mapM item? = some l := by
  cases v with
  | arr js => exact ⟨js, rfl, expect_eq_ok h⟩
  | _ => cases h

/-- A nested document is lower than the one around it. -/
theorem getObject_height {d child : Document} {name : String} (h : d.getObject name = .ok child) :
    child.height < d.height := by
  unfold getObject field at h
  cases d with
  | json members =>
    cases hv : Table.get? name members with
    | none => simp [hv] at h
    | some v =>
      simp only [hv] at h
      rw [height_ofJson? (expect_eq_ok h)]
      exact Nat.lt_succ_of_le (height_le_of_get?_members hv)
  | messagePack record =>
    obtain ⟨tag, fields⟩ := record
    cases hf : Table.get? name fields with
    | none => simp [Record.fields, hf] at h
    | some f =>
      simp only [Record.fields, hf] at h
      cases f with
      | object r =>
        cases h
        exact Nat.lt_succ_of_le (height_le_of_get?_fields hf)
      | _ => cases h

/-- The documents of a list are lower than the one around them. -/
theorem getObjects_height {d child : Document} {children : List Document} {name : String}
    (h : d.getObjects name = .ok children) (hchild : child ∈ children) : child.height < d.height := by
  unfold getObjects field at h
  cases d with
  | json members =>
    cases hv : Table.get? name members with
    | none => simp [hv] at h
    | some v =>
      simp only [hv] at h
      obtain ⟨js, rfl, hjs⟩ := items_eq_ok h
      obtain ⟨j, hj, hof⟩ := exists_of_mapM_eq_some hjs hchild
      have hle : j.height ≤ Json.heightMembers members :=
        Nat.le_trans (Nat.le_trans (height_le_of_mem_items hj) (Nat.le_succ _)) (height_le_of_get?_members hv)
      rw [height_ofJson? hof]
      exact Nat.lt_succ_of_le hle
  | messagePack record =>
    obtain ⟨tag, fields⟩ := record
    cases hf : Table.get? name fields with
    | none => simp [Record.fields, hf] at h
    | some f =>
      simp only [Record.fields, hf] at h
      cases f with
      | objectList l =>
        cases h
        obtain ⟨r, hr, rfl⟩ := List.mem_map.1 hchild
        have hle : r.height ≤ heightFields fields :=
          Nat.le_trans (height_le_heightRecords hr) (height_le_of_get?_fields hf)
        exact Nat.lt_succ_of_le hle
      | _ => cases h

mutual
/-- A document is at least as high as the record it carries. -/
theorem Carries.height_le {d : Document} {r : Record} (h : d.Carries r) : r.height ≤ d.height := by
  cases r with
  | mk tag fields =>
    obtain ⟨-, hfields, -⟩ := h
    exact CarriesFields.height_lt hfields

theorem CarriesFields.height_lt {d : Document} {fields : List (String × Field)} (h : CarriesFields d fields) :
    heightFields fields < d.height := by
  match fields with
  | [] => exact d.height_pos
  | (name, f) :: r => exact Nat.max_lt.2 ⟨CarriesField.height_lt h.1, CarriesFields.height_lt h.2⟩

theorem CarriesField.height_lt {d : Document} {name : String} {f : Field} (h : CarriesField d name f) :
    f.height < d.height := by
  cases f with
  | object r =>
    obtain ⟨child, hchild, hcarries⟩ := h
    exact Nat.lt_of_le_of_lt hcarries.height_le (getObject_height hchild)
  | objectList l =>
    obtain ⟨children, hchildren, hcarries⟩ := h
    exact CarriesAll.height_lt hcarries d.height_pos fun child hchild => getObjects_height hchildren hchild
  | _ => exact d.height_pos

theorem CarriesAll.height_lt {children : List Document} {records : List Record} (h : CarriesAll children records)
    {bound : Nat} (hpos : 0 < bound) (hbound : ∀ child ∈ children, child.height < bound) :
    heightRecords records < bound := by
  match children, records with
  | [], [] => exact hpos
  | child :: children, r :: rs =>
    refine Nat.max_lt.2 ⟨Nat.lt_of_le_of_lt h.1.height_le (hbound child List.mem_cons_self), ?_⟩
    exact CarriesAll.height_lt h.2 hpos fun c hc => hbound c (List.mem_cons_of_mem _ hc)
  | [], _ :: _ => exact h.elim
  | _ :: _, [] => exact h.elim
end

end Document

end Switchboard
