import Switchboard.Proofs.Codec.Pool
import Switchboard.Proofs.Json.Members
import Switchboard.Proofs.MessagePack.RoundTrip

/-!
# Records as stores of fields

Whatever fields are written into a record, under whatever names and in whatever order, a reader of its bytes finds the
type tag, exactly the names that were written, and under each of them the value that was written last. So it does in
every record inside the record, as far as getters lead (`Document.Finds`). In MessagePack each getter of another kind
says that the field is not of its type. And the bytes tell nothing of how the fields came to be what they are: records
that agree are written alike (`Codec.stores_fields`).
-/

namespace Switchboard

open MessagePack (Kind FitsRecord)

/-- The kind of a value. -/
def Field.kind : Field → Kind
  | .bool _ => .bool
  | .int _ => .int
  | .float _ => .float
  | .str _ => .str
  | .bytes _ => .bytes
  | .strList _ => .strList
  | .intList _ => .intList
  | .floatList _ => .floatList
  | .object _ => .object
  | .objectList _ => .objectList

/-- What a field says in JSON if it is taken for the type tag. -/
def Field.asTag? : Field → Option String
  | .str s => some s
  | .bytes b => some (Base64.encode b)
  | _ => none

theorem Field.getStr?_value (f : Field) : (Json.value f).getStr? = f.asTag? := by
  cases f <;> rfl

namespace Document

/-! ### What getters answer -/

/-- The getters of its kind answer a field with its value. Of records only their number is asked for. -/
def Answers (d : Document) (name : String) : Field → Prop
  | .bool b => d.getBool name = .ok b
  | .int n => d.getInt name = .ok n
  | .float x => d.getFloat name = .ok x
  | .str s => d.getStr name = .ok s ∧ d.getStr? name = .ok (some s)
  | .bytes b => d.getBytes name = .ok b
  | .strList l => d.getStrs name = .ok l
  | .intList l => d.getInts name = .ok l
  | .floatList l => d.getFloats name = .ok l
  | .object _ => ∃ child, d.getObject name = .ok child
  | .objectList l => ∃ children, d.getObjects name = .ok children ∧ children.length = l.length

/-- The getters of a kind answer that the field is not of their type. -/
def Refuses (d : Document) (name : String) : Kind → Prop
  | .bool => d.getBool name = .error (.wrongFieldType name .boolean)
  | .int => d.getInt name = .error (.wrongFieldType name .integer)
  | .float => d.getFloat name = .error (.wrongFieldType name .float)
  | .str => d.getStr name = .error (.wrongFieldType name .string) ∧
      d.getStr? name = .error (.wrongFieldType name .string)
  | .bytes => d.getBytes name = .error (.wrongFieldType name .bytes)
  | .strList => d.getStrs name = .error (.wrongFieldType name .strings)
  | .intList => d.getInts name = .error (.wrongFieldType name .integers)
  | .floatList => d.getFloats name = .error (.wrongFieldType name .floats)
  | .object => d.getObject name = .error (.wrongFieldType name .object)
  | .objectList => d.getObjects name = .error (.wrongFieldType name .objects)

/-- From the document of a record the getters of objects and of lists of objects lead to the document of a record
inside it, always by way of what was written last under a name. -/
inductive Finds : Document → Record → Document → Record → Prop
  | here (d : Document) (r : Record) : Finds d r d r
  | object {d child d' : Document} {r r' q : Record} {name : String} (held : r.held? name = some (.object r'))
    (get : d.getObject name = .ok child) (h : Finds child r' d' q) : Finds d r d' q
  | item {d child d' : Document} {r r' q : Record} {name : String} {l : List Record}
    {children : List Document} {i : Nat} (held : r.held? name = some (.objectList l))
    (get : d.getObjects name = .ok children) (heldItem : l[i]? = some r')
    (getItem : children[i]? = some child) (h : Finds child r' d' q) : Finds d r d' q

/-- A document shows a record if it answers all questions about it. -/
structure Shows (c : Codec) (d : Document) (r : Record) : Prop where
  tag : d.typeTag? = some r.tag
  names : ∀ name, name ≠ Json.tagName → (d.hasField name = true ↔ name ∈ r.names)
  values : ∀ name f, r.held? name = some f → d.Answers name f
  kinds : c = .messagePack → ∀ name f, r.held? name = some f → ∀ k, k ≠ f.kind → d.Refuses name k

end Document

namespace Codec

/-- The document that is read from the bytes of a record. -/
def documentOf (c : Codec) (r : Record) : Document :=
  match c with
  | json => .json (Json.members r)
  | messagePack => .messagePack r.canonical

/-- The record keeps to the limits of a format: on nesting, as its reader has them; in JSON on floats, which need a
text that is read as the same float; in MessagePack on lengths, which are to stay below `2 ^ 32`. -/
structure Keeps (c : Codec) (r : Record) : Prop where
  nesting : c.nesting r.canonical ≤ c.maxNesting
  floats : c = json → ∀ x ∈ r.floats, x.isFinite = true ∧ Json.FloatReadsBack x
  lengths : c = messagePack → ∀ q ∈ r.canonical.within, FitsRecord q

variable {c : Codec} {r q : Record} {name : String}

theorem Keeps.read_write (h : c.Keeps r) :
    ∃ bytes, c.write r = .ok bytes ∧ c.read bytes = .ok (c.documentOf r) := by
  cases c with
  | json =>
    have hfloats := h.floats rfl
    exact ⟨_, Json.write_eq_ok fun x hx => (hfloats x hx).1,
      Json.read_print_members (fun x hx => (hfloats x hx).2) h.nesting⟩
  | messagePack =>
    refine ⟨_, rfl, ?_⟩
    rw [read, MessagePack.decode?_encode_of_canonical (h.lengths rfl) h.nesting, documentOf]

/-! ### Single documents -/

theorem field_documentOf {α : Type} {f : Field} (h : q.held? name = some f) (fromJson : Json → Except CodecError α)
    (fromField : Field → Except CodecError α) :
    (c.documentOf q).field name fromJson fromField =
      match c with
      | json => fromJson (Json.value f)
      | messagePack => fromField f.canonical := by
  cases c with
  | json => simp only [documentOf, Document.field, Json.get?_members_of_held h]
  | messagePack => simp only [documentOf, Document.field, Record.get?_fields_canonical, h, Option.map_some]

theorem getObject_documentOf (h : q.held? name = some (.object r)) :
    (c.documentOf q).getObject name = .ok (c.documentOf r) := by
  rw [Document.getObject, field_documentOf h]
  cases c <;> rfl

theorem getObjects_documentOf {l : List Record} (h : q.held? name = some (.objectList l)) :
    (c.documentOf q).getObjects name = .ok (l.map c.documentOf) := by
  rw [Document.getObjects, field_documentOf h]
  cases c with
  | json => exact Json.items_arr (Json.mapM_ofJson?_values l) name _
  | messagePack =>
    simp only [Field.canonical, canonicalRecords_eq_map, List.map_map]
    rfl

theorem getStr?_documentOf {f : Field} (h : q.held? name = some f) :
    (c.documentOf q).getStr? name = some <$> (c.documentOf q).getStr name := by
  refine if_pos ?_
  cases c with
  | json => rw [documentOf, Document.hasField, Table.has, Json.get?_members_of_held h, Option.isSome_some]
  | messagePack =>
    rw [documentOf, Document.hasField, Table.has, Record.get?_fields_canonical, h, Option.map_some,
      Option.isSome_some]

theorem answers_documentOf {f : Field} (h : q.held? name = some f) : (c.documentOf q).Answers name f := by
  have hfield {α : Type} := field_documentOf (α := α) (c := c) h
  cases f with
  | object r => exact ⟨_, getObject_documentOf h⟩
  | objectList l => exact ⟨_, getObjects_documentOf h, List.length_map _⟩
  | str s =>
    have hget : (c.documentOf q).getStr name = .ok s := (hfield _ _).trans (by cases c <;> rfl)
    refine ⟨hget, ?_⟩
    rw [getStr?_documentOf h, hget]
    rfl
  | _ =>
    cases c with
    | json => exact Json.carriesField_value _ (fun _ hr => (List.not_mem_nil hr).elim) (Json.get?_members_of_held h)
    | messagePack => exact hfield _ _

/-- In MessagePack a getter of another kind refuses the field. -/
theorem refuses_documentOf {f : Field} (h : q.held? name = some f) {k : Kind} (hk : k ≠ f.kind) :
    (messagePack.documentOf q).Refuses name k := by
  have hfield {α : Type} := field_documentOf (α := α) (c := messagePack) h
  cases k with
  | str =>
    have hget : (messagePack.documentOf q).getStr name = .error (.wrongFieldType name .string) := by
      refine (hfield _ _).trans ?_
      cases f <;> first | exact absurd rfl hk | rfl
    refine ⟨hget, ?_⟩
    rw [getStr?_documentOf h, hget]
    rfl
  | _ =>
    refine (hfield _ _).trans ?_
    cases f <;> first | exact absurd rfl hk | rfl

/-! ### Documents inside documents -/

/-- Getters lead to the documents of the records that are there. -/
theorem eq_documentOf_of_finds {d d' : Document} (h : d.Finds r d' q) (hd : d = c.documentOf r) :
    d' = c.documentOf q ∧ q ∈ r.within := by
  induction h with
  | here d r => exact ⟨hd, r.mem_within_self⟩
  | object held get _ ih =>
    rw [hd, getObject_documentOf held] at get
    obtain ⟨hd', hq⟩ := ih (Except.ok.inj get).symm
    exact ⟨hd', Record.mem_within_of_held? held hq⟩
  | item held get heldItem getItem _ ih =>
    rw [hd, getObjects_documentOf held] at get
    rw [← Except.ok.inj get, List.getElem?_map, heldItem] at getItem
    obtain ⟨hd', hq⟩ := ih (Option.some.inj getItem).symm
    exact ⟨hd', Record.mem_within_of_held? held (mem_withinRecords.2 ⟨_, List.mem_of_getElem? heldItem, hq⟩)⟩

/-! ### Answers about a record -/

/-- The type tag that is read for a record. In JSON a field of its name takes its place. -/
def tagOf (c : Codec) (r : Record) : Option String :=
  match c with
  | json =>
    match r.held? Json.tagName with
    | some f => f.asTag?
    | none => some r.tag
  | messagePack => some r.tag

theorem tagOf_eq_tag (h : c = messagePack ∨ Json.tagName ∉ r.names) : c.tagOf r = some r.tag := by
  cases c with
  | json =>
    have hnames : Json.tagName ∉ r.names := h.resolve_left nofun
    simp only [tagOf, Record.held?_eq_none hnames]
  | messagePack => rfl

theorem typeTag?_documentOf (htag : q.tag ≠ "") : (c.documentOf q).typeTag? = c.tagOf q := by
  cases c with
  | json =>
    have hget := Json.get?_members q Json.tagName
    rw [if_pos rfl] at hget
    rw [documentOf, Document.typeTag?, hget, tagOf]
    cases q.held? Json.tagName with
    | none => rfl
    | some f => exact f.getStr?_value
  | messagePack =>
    rw [documentOf, Document.typeTag?, Record.canonical_eq]
    exact if_neg (by simpa [Record.tag] using htag)

theorem hasField_documentOf (hname : name ≠ Json.tagName) :
    (c.documentOf q).hasField name = true ↔ name ∈ q.names := by
  rw [← Record.isSome_held?]
  cases c with
  | json =>
    rw [documentOf, Document.hasField, Table.has, Json.get?_members, if_neg (Ne.symm hname), Option.or_none,
      Option.isSome_map]
  | messagePack => rw [documentOf, Document.hasField, Table.has, Record.get?_fields_canonical, Option.isSome_map]

theorem shows_documentOf (htag : q.tag ≠ "") (hnames : Json.tagName ∉ q.names) :
    (c.documentOf q).Shows c q := by
  refine ⟨?_, fun name => hasField_documentOf, fun name f => answers_documentOf, ?_⟩
  · rw [typeTag?_documentOf htag, tagOf_eq_tag (.inr hnames)]
  · rintro rfl name f h k
    exact refuses_documentOf h

/-! ### The law -/

/-- Records that agree are written alike. -/
theorem write_eq_of_agrees {r r' : Record} (h : r.Agrees r')
    (hfinite : c = json → ∀ x ∈ r.floats ++ r'.floats, x.isFinite = true) : c.write r = c.write r' := by
  cases c with
  | json =>
    rw [Json.write_eq_ok fun x hx => hfinite rfl x (List.mem_append_left _ hx),
      Json.write_eq_ok fun x hx => hfinite rfl x (List.mem_append_right _ hx), ← Json.members_canonical r,
      ← Json.members_canonical r', h.canonical_eq]
  | messagePack =>
    simp only [write, MessagePack.encode, h.canonical_eq]

/-- Reading the bytes of a record gives a document that shows the record, and so does every document that getters find
in it; and records that agree have the same bytes. In JSON the tag is one of the names, so no field may have that name
here. -/
theorem stores_fields (c : Codec) :
    (∀ r : Record, (∀ q ∈ r.within, q.tag ≠ "" ∧ Json.tagName ∉ q.names) → c.Keeps r →
      ∃ bytes d, c.write r = .ok bytes ∧ c.read bytes = .ok d ∧ ∀ d' q, d.Finds r d' q → d'.Shows c q) ∧
    ∀ r r' : Record, r.Agrees r' → (c = json → ∀ x ∈ r.floats ++ r'.floats, x.isFinite = true) →
      c.write r = c.write r' := by
  refine ⟨fun r hnamed hkeeps => ?_, fun r r' => write_eq_of_agrees⟩
  obtain ⟨bytes, hwrite, hread⟩ := hkeeps.read_write
  refine ⟨bytes, _, hwrite, hread, fun d' q hfinds => ?_⟩
  obtain ⟨rfl, hq⟩ := eq_documentOf_of_finds hfinds rfl
  obtain ⟨htag, hnames⟩ := hnamed q hq
  exact shows_documentOf htag hnames

/-- A gauge of which the level was first an integer, and of which one valve was opened late. -/
private def rewritten : Record :=
  .mk "Gauge" [("level", .int 3), ("säure", .strList []), ("level", .float ⟨0x4035000000000000⟩),
    ("parts", .objectList [.mk "Valve" [("open", .bool false), ("open", .bool true)], .mk "Valve" []])]

/-- The same gauge, written in another order. -/
private def tidy : Record :=
  .mk "Gauge" [("parts", .objectList [.mk "Valve" [("open", .bool true)], .mk "Valve" []]), ("säure", .strList []),
    ("level", .float ⟨0x4035000000000000⟩)]

private theorem agrees_tidy : rewritten.Agrees tidy := by
  have hvalve : (Record.mk "Valve" [("open", .bool false), ("open", .bool true)]).Agrees
      (.mk "Valve" [("open", .bool true)]) := by
    refine .of_names rfl (by simp [Record.names, Record.fields]) fun name hname => ?_
    obtain rfl : name = "open" := by simpa [Record.names, Record.fields] using hname
    exact ⟨_, _, rfl, rfl, .same _⟩
  refine .of_names rfl (fun name => ?_) fun name hname => ?_
  · simp only [rewritten, tidy, Record.names, Record.fields, List.map_cons, List.map_nil, List.mem_cons]
    tauto
  · simp only [rewritten, Record.names, Record.fields, List.map_cons, List.map_nil, List.mem_cons, List.not_mem_nil,
      or_false] at hname
    rcases hname with rfl | rfl | rfl | rfl
    · exact ⟨_, _, rfl, rfl, .same _⟩
    · exact ⟨_, _, rfl, rfl, .same _⟩
    · exact ⟨_, _, rfl, rfl, .same _⟩
    · exact ⟨_, _, rfl, rfl, .objectList (.cons hvalve (.cons (.refl _) .nil))⟩

theorem stores_fields_rewritten :
    (∃ bytes d, json.write rewritten = .ok bytes ∧ json.read bytes = .ok d ∧ d.typeTag? = some "Gauge" ∧
        d.getFloat "level" = .ok ⟨0x4035000000000000⟩) ∧
      (∃ bytes d, messagePack.write rewritten = .ok bytes ∧ messagePack.read bytes = .ok d ∧
        d.typeTag? = some "Gauge" ∧ d.getInt "level" = .error (.wrongFieldType "level" .integer)) ∧
      json.write rewritten = json.write tidy ∧ messagePack.write rewritten = messagePack.write tidy := by
  have hnamed : ∀ q ∈ rewritten.within, q.tag ≠ "" ∧ Json.tagName ∉ q.names := by decide +kernel
  have hfloats : ∀ x ∈ rewritten.floats, x.isFinite = true ∧ Json.FloatReadsBack x := by
    unfold Json.FloatReadsBack
    decide +kernel
  have hlengths : ∀ q ∈ rewritten.canonical.within, FitsRecord q := by decide +kernel
  have hlevel : rewritten.held? "level" = some (.float ⟨0x4035000000000000⟩) := by rfl
  obtain ⟨hjson, hjsonAgrees⟩ := stores_fields json
  obtain ⟨hpack, hpackAgrees⟩ := stores_fields messagePack
  obtain ⟨text, d, hwrite, hread, hd⟩ := hjson rewritten hnamed ⟨by decide +kernel, fun _ => hfloats, nofun⟩
  obtain ⟨bytes, d', hwrite', hread', hd'⟩ := hpack rewritten hnamed ⟨by decide +kernel, nofun, fun _ => hlengths⟩
  have hshows := hd d rewritten (.here d rewritten)
  have hshows' := hd' d' rewritten (.here d' rewritten)
  refine ⟨⟨text, d, hwrite, hread, hshows.tag, hshows.values "level" _ hlevel⟩,
    ⟨bytes, d', hwrite', hread', hshows'.tag, hshows'.kinds rfl "level" _ hlevel .int nofun⟩, ?_, ?_⟩
  · exact hjsonAgrees rewritten tidy agrees_tidy fun _ => by decide +kernel
  · exact hpackAgrees rewritten tidy agrees_tidy nofun

end Codec

end Switchboard
