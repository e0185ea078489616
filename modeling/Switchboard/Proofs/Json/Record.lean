import Switchboard.Proofs.Base64
import Switchboard.Proofs.Document
import Switchboard.Proofs.Json.Text
import Switchboard.Proofs.Record

/-!
# Reading records back from JSON

Writing a record is refused for the first of its floats that is infinite or no number, and otherwise its members are a
plain function of the record (`membersOf_eq`, `write_eq_ok`). They can be printed and read back (`ordered_members`,
`readsBack_members`), they are as high as the record nests (`height_members`), and they carry the record if its names
are plain (`carries_members`).
-/

namespace Switchboard

mutual
/-- The floats anywhere in a record. -/
def Record.floats : Record → List Binary64
  | .mk _ fields => floatsOfFields fields

def floatsOfFields : List (String × Field) → List Binary64
  | [] => []
  | (_, f) :: r => f.floats ++ floatsOfFields r

def Field.floats : Field → List Binary64
  | .float x => [x]
  | .floatList l => l
  | .object r => r.floats
  | .objectList l => floatsOfRecords l
  | _ => []

def floatsOfRecords : List Record → List Binary64
  | [] => []
  | r :: rs => r.floats ++ floatsOfRecords rs
end

mutual
/-- The floats anywhere in a record in the order of writing, each with the name of the field that holds it. -/
def Record.namedFloats : Record → List (String × Binary64)
  | .mk _ fields => namedFloatsOfFields fields

def namedFloatsOfFields : List (String × Field) → List (String × Binary64)
  | [] => []
  | (name, f) :: r => f.namedFloats name ++ namedFloatsOfFields r

def Field.namedFloats (name : String) : Field → List (String × Binary64)
  | .float x => [(name, x)]
  | .floatList l => l.map fun x => (name, x)
  | .object r => r.namedFloats
  | .objectList l => namedFloatsOfRecords l
  | _ => []

def namedFloatsOfRecords : List Record → List (String × Binary64)
  | [] => []
  | r :: rs => r.namedFloats ++ namedFloatsOfRecords rs
end

mutual
theorem Record.map_snd_namedFloats (r : Record) : r.namedFloats.map (·.2) = r.floats := by
  match r with
  | .mk tag fields =>
    rw [Record.namedFloats, Record.floats]
    exact map_snd_namedFloatsOfFields fields

theorem map_snd_namedFloatsOfFields (fields : List (String × Field)) :
    (namedFloatsOfFields fields).map (·.2) = floatsOfFields fields := by
  match fields with
  | [] => rw [namedFloatsOfFields, floatsOfFields, List.map_nil]
  | (name, f) :: r =>
    rw [namedFloatsOfFields, floatsOfFields, List.map_append, f.map_snd_namedFloats, map_snd_namedFloatsOfFields r]

theorem Field.map_snd_namedFloats (f : Field) (name : String) : (f.namedFloats name).map (·.2) = f.floats := by
  cases f with
  | floatList l => simp [Field.namedFloats, Field.floats, Function.comp_def]
  | object r => exact r.map_snd_namedFloats
  | objectList l => exact map_snd_namedFloatsOfRecords l
  | _ => rfl

theorem map_snd_namedFloatsOfRecords (l : List Record) : (namedFloatsOfRecords l).map (·.2) = floatsOfRecords l := by
  match l with
  | [] => rw [namedFloatsOfRecords, floatsOfRecords, List.map_nil]
  | r :: rs =>
    rw [namedFloatsOfRecords, floatsOfRecords, List.map_append, r.map_snd_namedFloats,
      map_snd_namedFloatsOfRecords rs]
end

namespace Json

/-! ### Writing -/

/-- The first float of a list that has no text. -/
def firstUnwritable (l : List (String × Binary64)) : Option (String × Binary64) := l.find? fun m => !m.2.isFinite

/-- A value, unless a float was found that has no text: then this float is refused. -/
def unlessFound {α : Type} : Option (String × Binary64) → α → Except CodecError α
  | some (name, x), _ => .error (.invalidField name (.notFinite x))
  | none, a => .ok a

mutual
/-- The members of a record, if its floats are finite. -/
def members : Record → Table Json
  | .mk tag fields => Table.putAll (writes fields) [(tagName, .str tag)]

def writes : List (String × Field) → List (String × Json)
  | [] => []
  | (name, f) :: r => (name, value f) :: writes r

def value : Field → Json
  | .bool b => .bool b
  | .int n => .int n.toInt
  | .float x => .num (.float x)
  | .str s => .str s
  | .bytes b => .str (Base64.encode b)
  | .strList l => .strings l
  | .intList l => .arr (l.map fun n => .int n.toInt)
  | .floatList l => .arr (l.map fun x => .num (.float x))
  | .object r => .obj (members r)
  | .objectList l => .arr (values l)

def values : List Record → List Json
  | [] => []
  | r :: rs => .obj (members r) :: values rs
end

theorem firstUnwritable_append (l l' : List (String × Binary64)) :
    firstUnwritable (l ++ l') = (firstUnwritable l).or (firstUnwritable l') := List.find?_append

/-- Of two things written one after the other, the second is refused only if the first is not. -/
theorem unlessFound_bind {α β : Type} (o o' : Option (String × Binary64)) (a : α) {b : β}
    {next : α → Except CodecError β} (h : next a = unlessFound o' b) :
    unlessFound o a >>= next = unlessFound (o.or o') b := by
  cases o with
  | none => exact h
  | some m => rfl

theorem unlessFound_map {α β : Type} (o : Option (String × Binary64)) (a : α) (f : α → β) :
    f <$> unlessFound o a = unlessFound o (f a) := by
  cases o <;> rfl

theorem ofFloat_eq (name : String) (x : Binary64) :
    ofFloat name x = unlessFound (firstUnwritable [(name, x)]) (.num (.float x)) := by
  cases h : x.isFinite <;> simp [ofFloat, firstUnwritable, h, unlessFound]

theorem mapM_ofFloat_eq (name : String) (l : List Binary64) :
    l.mapM (ofFloat name) =
      unlessFound (firstUnwritable (l.map fun x => (name, x))) (l.map fun x => .num (.float x)) := by
  induction l with
  | nil => rfl
  | cons x l ih =>
    have hcons : (x :: l).map (fun x => (name, x)) = [(name, x)] ++ l.map fun x => (name, x) := rfl
    rw [List.mapM_cons, ofFloat_eq, ih, hcons, firstUnwritable_append]
    exact unlessFound_bind _ _ _ ((bind_pure_comp _ _).trans (unlessFound_map _ _ _))

mutual
/-- A record is refused for the first of its floats that has no text. -/
theorem membersOf_eq (r : Record) : membersOf r = unlessFound (firstUnwritable r.namedFloats) (members r) := by
  match r with
  | .mk tag fields =>
    rw [membersOf, members, Record.namedFloats]
    exact putFields_eq fields _

theorem putFields_eq (fields : List (String × Field)) (written : Table Json) : putFields written fields =
    unlessFound (firstUnwritable (namedFloatsOfFields fields)) (Table.putAll (writes fields) written) := by
  match fields with
  | [] => rfl
  | (name, f) :: r =>
    rw [putFields, ofField_eq f name, namedFloatsOfFields, firstUnwritable_append]
    exact unlessFound_bind _ _ _ (putFields_eq r _)

theorem ofField_eq (f : Field) (name : String) :
    ofField name f = unlessFound (firstUnwritable (f.namedFloats name)) (value f) := by
  cases f with
  | float x => exact ofFloat_eq name x
  | floatList l => rw [ofField, mapM_ofFloat_eq, unlessFound_map, Field.namedFloats, value]
  | object r => rw [ofField, membersOf_eq r, unlessFound_map, Field.namedFloats, value]
  | objectList l => rw [ofField, ofRecords_eq l, unlessFound_map, Field.namedFloats, value]
  | _ => rfl

theorem ofRecords_eq (l : List Record) :
    ofRecords l = unlessFound (firstUnwritable (namedFloatsOfRecords l)) (values l) := by
  match l with
  | [] => rfl
  | r :: rs =>
    rw [ofRecords, membersOf_eq r, ofRecords_eq rs, namedFloatsOfRecords, firstUnwritable_append, values]
    exact unlessFound_bind _ _ _ ((bind_pure_comp _ _).trans (unlessFound_map _ _ _))
end

/-- The text of a record is that of its members, unless one of its floats has no text. -/
theorem write_eq (r : Record) : Codec.json.write r =
    unlessFound (firstUnwritable r.namedFloats) (Utf8.encodeChars (obj (members r)).print) := by
  rw [Codec.write, ofRecord, membersOf_eq]
  cases firstUnwritable r.namedFloats <;> rfl

/-- Writing a record of finite floats does not fail. -/
theorem write_eq_ok {r : Record} (h : ∀ x ∈ r.floats, x.isFinite = true) :
    Codec.json.write r = .ok (Utf8.encodeChars (obj (members r)).print) := by
  have hnone : firstUnwritable r.namedFloats = none := by
    rw [firstUnwritable, List.find?_eq_none]
    intro m hm
    have hx : m.2 ∈ r.floats := r.map_snd_namedFloats ▸ List.mem_map_of_mem hm
    simp [h m.2 hx]
  rw [write_eq, hnone, unlessFound]

/-- Whatever is written is the text of the members. -/
theorem eq_of_write {r : Record} {bytes : Bytes} (h : Codec.json.write r = .ok bytes) :
    bytes = Utf8.encodeChars (obj (members r)).print := by
  rw [write_eq] at h
  cases hfirst : firstUnwritable r.namedFloats with
  | none =>
    rw [hfirst] at h
    exact (Except.ok.inj h).symm
  | some m =>
    rw [hfirst] at h
    cases h

/-! ### Lists of values -/

theorem heightItems_map {α : Type} {write : α → Json} (h : ∀ a, (write a).height = 0) (l : List α) :
    heightItems (l.map write) = 0 := by
  induction l with
  | nil => rfl
  | cons a l ih => rw [List.map_cons, heightItems, h, ih, Nat.max_self]

theorem orderedItems_iff {items : List Json} : OrderedItems items ↔ ∀ v ∈ items, v.Ordered := by
  induction items with
  | nil => simp [OrderedItems]
  | cons v r ih => simp [OrderedItems, ih]

theorem orderedMembers_iff {members : List (String × Json)} :
    OrderedMembers members ↔ ∀ m ∈ members, m.2.Ordered := by
  induction members with
  | nil => simp [OrderedMembers]
  | cons m r ih =>
    obtain ⟨k, v⟩ := m
    simp [OrderedMembers, ih]

theorem itemsReadBack_iff {items : List Json} : ItemsReadBack items ↔ ∀ v ∈ items, v.ReadsBack := by
  induction items with
  | nil => simp [ItemsReadBack]
  | cons v r ih => simp [ItemsReadBack, ih]

theorem membersReadBack_iff {members : List (String × Json)} :
    MembersReadBack members ↔ ∀ m ∈ members, m.2.ReadsBack := by
  induction members with
  | nil => simp [MembersReadBack]
  | cons m r ih =>
    obtain ⟨k, v⟩ := m
    simp [MembersReadBack, ih]

/-! ### Order -/

/-- Names come in order when the tag is in front and fields are put in. -/
theorem ordered_putAll {writes : List (String × Json)} (h : OrderedMembers writes) (tag : String) :
    (obj (Table.putAll writes [(tagName, .str tag)])).Ordered := by
  refine ⟨Table.Ordered.putAll (List.pairwise_singleton _ _) _, orderedMembers_iff.2 fun m hm => ?_⟩
  rcases Table.mem_putAll hm with hm | hm
  · exact orderedMembers_iff.1 h m hm
  · obtain rfl := List.mem_singleton.1 hm
    trivial

mutual
theorem ordered_members (r : Record) : (obj (members r)).Ordered := by
  match r with
  | .mk tag fields =>
    rw [members]
    exact ordered_putAll (orderedMembers_writes fields) tag

theorem orderedMembers_writes (fields : List (String × Field)) : OrderedMembers (writes fields) := by
  match fields with
  | [] => trivial
  | (name, f) :: r => exact ⟨ordered_value f, orderedMembers_writes r⟩

theorem ordered_value (f : Field) : (value f).Ordered := by
  cases f with
  | strList l => exact orderedItems_iff.2 (List.forall_mem_map.2 fun _ _ => trivial)
  | intList l => exact orderedItems_iff.2 (List.forall_mem_map.2 fun _ _ => trivial)
  | floatList l => exact orderedItems_iff.2 (List.forall_mem_map.2 fun _ _ => trivial)
  | object r => exact ordered_members r
  | objectList l => exact orderedItems_values l
  | _ => trivial

theorem orderedItems_values (l : List Record) : OrderedItems (values l) := by
  match l with
  | [] => trivial
  | r :: rs => exact ⟨ordered_members r, orderedItems_values rs⟩
end

/-! ### Numbers -/

/-- The float reads back from its text. -/
def FloatReadsBack (x : Binary64) : Prop := JsonNumber.ofText? (JsonNumber.text (.float x)) = some (.float x)

theorem readsBack_int (n : Int64) : (Json.int n.toInt).ReadsBack :=
  JsonNumber.ofText?_int n.minValue_le_toInt (Int.lt_of_le_of_lt n.toInt_le (by decide))

theorem readsBack_putAll {writes : List (String × Json)} (h : MembersReadBack writes) (tag : String) :
    (obj (Table.putAll writes [(tagName, .str tag)])).ReadsBack := by
  refine membersReadBack_iff.2 fun m hm => ?_
  rcases Table.mem_putAll hm with hm | hm
  · exact membersReadBack_iff.1 h m hm
  · obtain rfl := List.mem_singleton.1 hm
    trivial

mutual
/-- The numbers in a record read back if its floats do. -/
theorem readsBack_members (r : Record) (h : ∀ x ∈ r.floats, FloatReadsBack x) : (obj (members r)).ReadsBack := by
  match r with
  | .mk tag fields =>
    rw [members]
    exact readsBack_putAll (membersReadBack_writes fields h) tag

theorem membersReadBack_writes (fields : List (String × Field)) (h : ∀ x ∈ floatsOfFields fields, FloatReadsBack x) :
    MembersReadBack (writes fields) := by
  match fields with
  | [] => trivial
  | (name, f) :: r =>
    exact ⟨readsBack_value f fun x hx => h x (List.mem_append_left _ hx),
      membersReadBack_writes r fun x hx => h x (List.mem_append_right _ hx)⟩

theorem readsBack_value (f : Field) (h : ∀ x ∈ f.floats, FloatReadsBack x) : (value f).ReadsBack := by
  cases f with
  | int n => exact readsBack_int n
  | float x => exact h x List.mem_cons_self
  | strList l => exact itemsReadBack_iff.2 (List.forall_mem_map.2 fun _ _ => trivial)
  | intList l => exact itemsReadBack_iff.2 (List.forall_mem_map.2 fun n _ => readsBack_int n)
  | floatList l => exact itemsReadBack_iff.2 (List.forall_mem_map.2 h)
  | object r => exact readsBack_members r h
  | objectList l => exact itemsReadBack_values l h
  | _ => trivial

theorem itemsReadBack_values (l : List Record) (h : ∀ x ∈ floatsOfRecords l, FloatReadsBack x) :
    ItemsReadBack (values l) := by
  match l with
  | [] => trivial
  | r :: rs =>
    exact ⟨readsBack_members r fun x hx => h x (List.mem_append_left _ hx),
      itemsReadBack_values rs fun x hx => h x (List.mem_append_right _ hx)⟩
end

/-! ### Heights -/

theorem heightMembers_put {name : String} {t : Table Json} (h : ∀ e ∈ t, e.1 ≠ name) (v : Json) :
    heightMembers (Table.put name v t) = max v.height (heightMembers t) := by
  induction t with
  | nil => rfl
  | cons e r ih =>
    obtain ⟨k, w⟩ := e
    have hne : name ≠ k := Ne.symm (h (k, w) List.mem_cons_self)
    have hr := ih fun e he => h e (List.mem_cons_of_mem _ he)
    unfold Table.put
    split
    · rw [heightMembers]
    · simp only [heightMembers, hr]
      omega

/-- Nothing is lost where every name is new. -/
theorem heightMembers_putAll {writes : List (String × Json)} {t : Table Json}
    (hnodup : (writes.map (·.1)).Nodup) (hnew : ∀ e ∈ t, e.1 ∉ writes.map (·.1)) :
    heightMembers (Table.putAll writes t) = max (heightMembers writes) (heightMembers t) := by
  induction writes generalizing t with
  | nil => exact (Nat.zero_max _).symm
  | cons w r ih =>
    obtain ⟨name, v⟩ := w
    rw [List.map_cons, List.nodup_cons] at hnodup
    have hput := heightMembers_put (fun e he hname => hnew e he (hname ▸ List.mem_cons_self)) v
    have hr : ∀ e ∈ Table.put name v t, e.1 ∉ r.map (·.1) := by
      intro e he
      rcases Table.mem_put he with rfl | he
      · exact hnodup.1
      · exact fun hmem => hnew e he (List.mem_cons_of_mem _ hmem)
    refine (ih hnodup.2 hr).trans ?_
    rw [hput, heightMembers]
    omega

theorem writes_eq_map (fields : List (String × Field)) : writes fields = fields.map fun e => (e.1, value e.2) := by
  induction fields with
  | nil => rfl
  | cons e r ih =>
    obtain ⟨name, f⟩ := e
    rw [writes, ih, List.map_cons]

theorem map_fst_writes (fields : List (String × Field)) : (writes fields).map (·.1) = fields.map (·.1) := by
  rw [writes_eq_map, List.map_map]
  rfl

mutual
/-- The members of a plain record are as high as the record nests. -/
theorem height_members (r : Record) (h : ∀ q ∈ r.within, q.Plain) :
    (obj (members r)).height = Codec.json.nesting r := by
  match r with
  | .mk tag fields =>
    obtain ⟨-, hnodup, htag, -⟩ := h _ (Record.mem_within_self _)
    -- no field takes the place of the tag or of another field
    have hnew : ∀ e ∈ [(tagName, Json.str tag)], e.1 ∉ (writes fields).map (·.1) := by
      intro e he
      rw [List.mem_singleton.1 he, map_fst_writes]
      exact htag
    have hwrites := heightMembers_writes fields fun q hq => h q (List.mem_cons_of_mem _ hq)
    rw [members, height, heightMembers_putAll (map_fst_writes fields ▸ hnodup) hnew, hwrites]
    exact congrArg (· + 1) (Nat.max_zero _)

theorem heightMembers_writes (fields : List (String × Field)) (h : ∀ q ∈ withinFields fields, q.Plain) :
    heightMembers (writes fields) = Codec.json.nestingFields fields := by
  match fields with
  | [] => rfl
  | (name, f) :: r =>
    rw [writes, heightMembers, height_value f (fun q hq => h q (List.mem_append_left _ hq)),
      heightMembers_writes r (fun q hq => h q (List.mem_append_right _ hq))]
    rfl

theorem height_value (f : Field) (h : ∀ q ∈ f.within, q.Plain) : (value f).height = Codec.json.nestingField f := by
  cases f with
  | strList l => exact congrArg (· + 1) (heightItems_map (fun _ => rfl) l)
  | intList l => exact congrArg (· + 1) (heightItems_map (fun _ => rfl) l)
  | floatList l => exact congrArg (· + 1) (heightItems_map (fun _ => rfl) l)
  | object r => exact height_members r h
  | objectList l => exact congrArg (· + 1) (heightItems_values l h)
  | _ => rfl

theorem heightItems_values (l : List Record) (h : ∀ q ∈ withinRecords l, q.Plain) :
    heightItems (values l) = Codec.json.nestingRecords l := by
  match l with
  | [] => rfl
  | r :: rs =>
    rw [values, heightItems, height_members r (fun q hq => h q (List.mem_append_left _ hq)),
      heightItems_values rs (fun q hq => h q (List.mem_append_right _ hq))]
    rfl
end

/-! ### Documents -/

theorem int64?_int (n : Int64) : Document.int64? (.int n.toInt) = some n := by
  simp only [Document.int64?, Json.int, getInt?, Option.bind_eq_bind, Option.bind_some]
  rw [if_pos ⟨n.minValue_le_toInt, n.toInt_le⟩, Int64.ofInt_toInt]

theorem items_arr {α : Type} {item? : Json → Option α} {vs : List Json} {l : List α} (h : vs.mapM item? = some l)
    (name : String) (expected : Shape) : Document.items name expected item? (.arr vs) = .ok l := by
  have hexpect : Document.expect name expected (vs.mapM item?) = .ok l := by
    rw [h]
    rfl
  exact hexpect

/-- An array reads back if its items do. -/
theorem items_map {α : Type} {item? : Json → Option α} {write : α → Json} (h : ∀ a, item? (write a) = some a)
    (name : String) (expected : Shape) (l : List α) :
    Document.items name expected item? (.arr (l.map write)) = .ok l :=
  items_arr (mapM_map_eq_pure fun a _ => h a) name expected

theorem mapM_ofJson?_values (l : List Record) :
    (values l).mapM Document.ofJson? = some (l.map fun r => .json (members r)) := by
  induction l with
  | nil => rfl
  | cons r rs ih =>
    rw [values, List.mapM_cons, ih]
    rfl

mutual
/-- The members of a plain record carry the record. -/
theorem carries_members (r : Record) (h : ∀ q ∈ r.within, q.Plain) : (Document.json (members r)).Carries r := by
  match r with
  | .mk tag fields =>
    obtain ⟨-, hnodup, htag, -⟩ := h _ (Record.mem_within_self _)
    have hnames := map_fst_writes fields
    have hget : ∀ e ∈ fields, Table.get? e.1 (members (.mk tag fields)) = some (value e.2) := by
      intro e he
      have hwrite : (e.1, value e.2) ∈ writes fields := writes_eq_map fields ▸ List.mem_map_of_mem he
      rw [members]
      exact Table.get?_putAll_of_mem (hnames ▸ hnodup) hwrite _
    refine ⟨?_, carriesFields_writes fields (fun q hq => h q (List.mem_cons_of_mem _ hq)) hget, fun name hname => ?_⟩
    · have htagged : Table.get? tagName (members (.mk tag fields)) = some (.str tag) := by
        rw [members, Table.get?_putAll_of_not_mem (hnames ▸ htag)]
        rfl
      simp only [Document.typeTag?, htagged]
      rfl
    · have hother : Table.has name [(tagName, Json.str tag)] = false := by
        simp [Table.has, Table.get?, hname.symm]
      simp only [Document.hasField, members, Table.has_putAll, hnames, hother]
      simp

theorem carriesFields_writes {table : Table Json} (fields : List (String × Field))
    (h : ∀ q ∈ withinFields fields, q.Plain) (hget : ∀ e ∈ fields, Table.get? e.1 table = some (value e.2)) :
    Document.CarriesFields (.json table) fields := by
  match fields with
  | [] => trivial
  | (name, f) :: r =>
    exact ⟨carriesField_value f (fun q hq => h q (List.mem_append_left _ hq)) (hget (name, f) List.mem_cons_self),
      carriesFields_writes r (fun q hq => h q (List.mem_append_right _ hq))
        fun e he => hget e (List.mem_cons_of_mem _ he)⟩

theorem carriesField_value {name : String} {table : Table Json} (f : Field) (h : ∀ q ∈ f.within, q.Plain)
    (hget : Table.get? name table = some (value f)) : Document.CarriesField (.json table) name f := by
  have hfield : ∀ {α : Type} (fromJson : Json → Except CodecError α) (fromField : Field → Except CodecError α),
      (Document.json table).field name fromJson fromField = fromJson (value f) := by
    intro α fromJson fromField
    simp only [Document.field, hget]
  cases f with
  | bool b => exact hfield _ _
  | int n =>
    refine (hfield _ _).trans ?_
    rw [value, int64?_int]
    rfl
  | float x => exact hfield _ _
  | str s => exact hfield _ _
  | bytes b =>
    refine (hfield _ _).trans ?_
    simp only [value, getStr?, Document.expect, bind, Except.bind, Base64.decode?_encode]
  | strList l =>
    have hstr : ∀ s : String, getStr? (.str s) = some s := fun _ => rfl
    exact (hfield _ _).trans (items_map hstr name _ l)
  | intList l => exact (hfield _ _).trans (items_map int64?_int name _ l)
  | floatList l =>
    have hfloat : ∀ x : Binary64, Document.binary64? (.num (.float x)) = some x := fun _ => rfl
    exact (hfield _ _).trans (items_map hfloat name _ l)
  | object r => exact ⟨.json (members r), hfield _ _, carries_members r h⟩
  | objectList l =>
    exact ⟨l.map fun r => .json (members r), (hfield _ _).trans (items_arr (mapM_ofJson?_values l) name _),
      carriesAll_values l h⟩

theorem carriesAll_values (l : List Record) (h : ∀ q ∈ withinRecords l, q.Plain) :
    Document.CarriesAll (l.map fun r => .json (members r)) l := by
  match l with
  | [] => trivial
  | r :: rs =>
    exact ⟨carries_members r fun q hq => h q (List.mem_append_left _ hq),
      carriesAll_values rs fun q hq => h q (List.mem_append_right _ hq)⟩
end

end Json

end Switchboard
