import Switchboard.Json.Text
import Switchboard.Proofs.Json.Token
import Switchboard.Proofs.Table
import Switchboard.Proofs.Utf8

/-!
# JSON texts read back

A value is read from its text with its members put in order (`asRead`), provided that its numbers read back from
theirs and that it nests no deeper than the reader goes (`parse?_render`); if its members are in order already, it
reads back as it was (`parseBytes?_print`). The reader takes the tokens of a value to what it would be with the value
already finished (`foldlM_tokens`), whatever it is in the middle of.
-/

namespace Switchboard.Json

mutual
/-- What is read from the text of a value: members are put in order, of several with one name the last. -/
def asRead : Json → Json
  | .arr items => .arr (asReadItems items)
  | .obj members => .obj (Table.ofWrites (asReadMembers members))
  | v => v

def asReadItems : List Json → List Json
  | [] => []
  | v :: r => v.asRead :: asReadItems r

def asReadMembers : List (String × Json) → List (String × Json)
  | [] => []
  | (k, v) :: r => (k, v.asRead) :: asReadMembers r
end

mutual
/-- A value whose members are in order is read as it is. -/
theorem asRead_of_ordered (v : Json) (h : v.Ordered) : v.asRead = v := by
  cases v with
  | arr items => rw [asRead, asReadItems_of_ordered items h]
  | obj members =>
    rw [asRead, asReadMembers_of_ordered members h.2, Table.ofWrites_of_ordered h.1]
  | _ => rfl

theorem asReadItems_of_ordered (items : List Json) (h : OrderedItems items) : asReadItems items = items := by
  cases items with
  | nil => rfl
  | cons v r => rw [asReadItems, asRead_of_ordered v h.1, asReadItems_of_ordered r h.2]

theorem asReadMembers_of_ordered (members : List (String × Json)) (h : OrderedMembers members) :
    asReadMembers members = members := by
  cases members with
  | nil => rfl
  | cons m r =>
    obtain ⟨k, v⟩ := m
    rw [asReadMembers, asRead_of_ordered v h.1, asReadMembers_of_ordered r h.2]
end

mutual
/-- The numbers inside read back from their texts. -/
def ReadsBack : Json → Prop
  | .num n => JsonNumber.ofText? n.text = some n
  | .arr items => ItemsReadBack items
  | .obj members => MembersReadBack members
  | _ => True

def ItemsReadBack : List Json → Prop
  | [] => True
  | v :: r => v.ReadsBack ∧ ItemsReadBack r

def MembersReadBack : List (String × Json) → Prop
  | [] => True
  | (_, v) :: r => v.ReadsBack ∧ MembersReadBack r
end

/-! ### The tokens of a value -/

/-- A token that is no number can stand in front of anything. -/
theorem Printable.cons {t : Token} {ts : List Token} (hts : Printable ts) (h : ∀ n, t ≠ .num n) :
    Printable (t :: ts) := by
  refine ⟨?_, fun ⟨n, hn⟩ => absurd hn (h n), hts⟩
  cases t with
  | num n => exact absurd rfl (h n)
  | _ => trivial

mutual
/-- A value can be printed in front of a bracket or separator. -/
theorem printable_tokens (v : Json) (h : v.ReadsBack) {ts : List Token} (hts : Printable ts)
    (hmark : ∀ u ∈ ts.head?, u.IsMark) : Printable (v.tokens ++ ts) := by
  cases v with
  | null => exact hts.cons nofun
  | bool b => exact hts.cons nofun
  | num n => exact ⟨h, fun _ => hmark, hts⟩
  | str s => exact hts.cons nofun
  | arr items => exact (printable_itemTokens items h hts).cons nofun
  | obj members => exact (printable_memberTokens members h hts).cons nofun

theorem printable_itemTokens (items : List Json) (h : ItemsReadBack items) {ts : List Token} (hts : Printable ts) :
    Printable (itemTokens items ++ ts) := by
  have hclose : Printable (.closeArray :: ts) := hts.cons nofun
  match items with
  | [] => exact hclose
  | [v] =>
    rw [itemTokens, List.append_assoc]
    exact printable_tokens v h.1 hclose fun u hu => by cases hu; trivial
  | v :: w :: r =>
    have hcomma : Printable (.comma :: (itemTokens (w :: r) ++ ts)) :=
      (printable_itemTokens (w :: r) h.2 hts).cons nofun
    rw [itemTokens, List.append_assoc]
    exact printable_tokens v h.1 hcomma fun u hu => by cases hu; trivial

theorem printable_memberTokens (members : List (String × Json)) (h : MembersReadBack members) {ts : List Token}
    (hts : Printable ts) : Printable (memberTokens members ++ ts) := by
  have hclose : Printable (.closeObject :: ts) := hts.cons nofun
  match members with
  | [] => exact hclose
  | [(k, v)] =>
    have hv := printable_tokens v h.1 hclose fun u hu => by cases hu; trivial
    rw [memberTokens, List.append_assoc]
    exact Printable.cons (hv.cons nofun) nofun
  | (k, v) :: m :: r =>
    have hcomma : Printable (.comma :: (memberTokens (m :: r) ++ ts)) :=
      (printable_memberTokens (m :: r) h.2 hts).cons nofun
    have hv := printable_tokens v h.1 hcomma fun u hu => by cases hu; trivial
    rw [memberTokens, List.append_assoc]
    exact Printable.cons (hv.cons nofun) nofun
end

/-! ### Reading the tokens -/

namespace Reader

theorem enter?_of_lt {mode : Mode} {frame : Frame} {stack : List Frame} (h : stack.length < maxNesting) :
    enter? mode frame stack = some ⟨mode, frame :: stack⟩ := if_pos h

theorem foldlM_of_step? {r r' : Reader} {t : Token} (h : step? r t = some r') (ts : List Token) :
    (t :: ts).foldlM step? r = ts.foldlM step? r' := by
  rw [List.foldlM_cons, h]
  rfl

theorem step?_str (s : String) (stack : List Frame) :
    step? ⟨.value, stack⟩ (.str s.toList) = some (finish (.str s) stack) := by
  rw [← String.ofList_toList (s := s), String.toList_ofList]
  rfl

theorem step?_name (k name : String) (read : Table Json) (stack : List Frame) :
    step? ⟨.name, .members read name :: stack⟩ (.str k.toList) = some ⟨.colon, .members read k :: stack⟩ := by
  rw [← String.ofList_toList (s := k), String.toList_ofList]
  rfl

theorem step?_colon (k : String) (read : Table Json) (stack : List Frame) :
    step? ⟨.colon, .members read k :: stack⟩ .colon = some ⟨.value, .members read k :: stack⟩ := rfl

/-- Items start with a token that closes nothing. -/
theorem exists_itemTokens_eq_cons (v : Json) (r : List Json) :
    ∃ t ts, itemTokens (v :: r) = t :: ts ∧ t ≠ .closeArray := by
  cases r <;> cases v <;> exact ⟨_, _, rfl, nofun⟩

/-- Such a token is read where an array might end as anywhere else. -/
theorem foldlM_valueOrClose {t : Token} (h : t ≠ .closeArray) (ts : List Token) (stack : List Frame) :
    (t :: ts).foldlM step? ⟨.valueOrClose, stack⟩ = (t :: ts).foldlM step? ⟨.value, stack⟩ := by
  cases t with
  | closeArray => exact absurd rfl h
  | _ => rfl

/-- Members start with a name, which is read where an object might end as anywhere else. -/
theorem foldlM_nameOrClose (m : String × Json) (r : List (String × Json)) (ts : List Token) (frame : Frame)
    (stack : List Frame) :
    (memberTokens (m :: r) ++ ts).foldlM step? ⟨.nameOrClose, frame :: stack⟩ =
      (memberTokens (m :: r) ++ ts).foldlM step? ⟨.name, frame :: stack⟩ := by
  cases r <;> cases frame <;> rfl

/-- What a token does: it begins a value, closes the innermost array or object, names a member, or only changes what
is awaited. -/
theorem step?_cases {r r' : Reader} {t : Token} (h : r.step? t = some r') :
    value? r.stack t = some r' ∨
    (∃ read rest, r.stack = .items read :: rest ∧ t = .closeArray ∧ r' = finish (.arr read) rest) ∨
    (∃ read name rest, r.stack = .members read name :: rest ∧ t = .closeObject ∧ r' = finish (.obj read) rest) ∨
    (∃ read name s rest, r.stack = .members read name :: rest ∧ t = .str s ∧
      r' = ⟨.colon, .members read (String.ofList s) :: rest⟩) ∨
    ((t = .colon ∨ t = .comma) ∧ r'.stack = r.stack ∧ ∀ v, r'.mode ≠ .done v) := by
  obtain ⟨mode, stack⟩ := r
  unfold step? at h
  split at h
  · exact .inl h
  · rename_i hs
    cases h
    exact .inr (.inl ⟨_, _, hs, rfl, rfl⟩)
  · exact .inl h
  · rename_i hs
    cases h
    exact .inr (.inr (.inr (.inl ⟨_, _, _, _, hs, rfl, rfl⟩)))
  · rename_i hs
    cases h
    exact .inr (.inr (.inr (.inl ⟨_, _, _, _, hs, rfl, rfl⟩)))
  · rename_i hs
    cases h
    exact .inr (.inr (.inl ⟨_, _, _, hs, rfl, rfl⟩))
  · cases h
    exact .inr (.inr (.inr (.inr ⟨.inl rfl, rfl, nofun⟩)))
  · rename_i hs
    cases h
    exact .inr (.inr (.inr (.inr ⟨.inr rfl, hs.symm, nofun⟩)))
  · rename_i hs
    cases h
    exact .inr (.inl ⟨_, _, hs, rfl, rfl⟩)
  · rename_i hs
    cases h
    exact .inr (.inr (.inr (.inr ⟨.inr rfl, hs.symm, nofun⟩)))
  · rename_i hs
    cases h
    exact .inr (.inr (.inl ⟨_, _, _, hs, rfl, rfl⟩))
  · cases h

/-- What every token keeps holds after all of them. -/
theorem foldlM_of_kept {P : Reader → Prop} (hkept : ∀ {r r' t}, P r → r.step? t = some r' → P r') {ts : List Token}
    {r r' : Reader} (h : P r) (hrun : ts.foldlM step? r = some r') : P r' := by
  induction ts generalizing r with
  | nil =>
    cases hrun
    exact h
  | cons t ts ih =>
    rw [List.foldlM_cons] at hrun
    obtain ⟨r₁, hstep, hrest⟩ := Option.bind_eq_some_iff.1 hrun
    exact ih (hkept h hstep) hrest

mutual
/-- The reader takes the tokens of a value as the value with its members in order. -/
theorem foldlM_tokens (v : Json) (stack : List Frame) (hroom : stack.length + v.height ≤ maxNesting)
    (rest : List Token) :
    (v.tokens ++ rest).foldlM step? ⟨.value, stack⟩ = rest.foldlM step? (finish v.asRead stack) := by
  cases v with
  -- a value of one token is finished in one step
  | null => rfl
  | bool b => rfl
  | num n => rfl
  | str s => exact foldlM_of_step? (step?_str s stack) rest
  | arr items =>
    rw [height] at hroom
    have hlt : stack.length < maxNesting := by omega
    have hopen : step? ⟨.value, stack⟩ .openArray = some ⟨.valueOrClose, .items [] :: stack⟩ := enter?_of_lt hlt
    rw [tokens, List.cons_append, foldlM_of_step? hopen]
    cases items with
    | nil => rfl
    | cons v r =>
      have hitems := foldlM_itemTokens [] (v :: r) nofun stack (by omega) rest
      obtain ⟨t, ts, hts, hclose⟩ := exists_itemTokens_eq_cons v r
      rw [hts, List.cons_append] at hitems ⊢
      rw [foldlM_valueOrClose hclose, hitems, List.nil_append, asRead]
  | obj members =>
    rw [height] at hroom
    have hlt : stack.length < maxNesting := by omega
    have hopen : step? ⟨.value, stack⟩ .openObject = some ⟨.nameOrClose, .members [] "" :: stack⟩ := enter?_of_lt hlt
    rw [tokens, List.cons_append, foldlM_of_step? hopen]
    cases members with
    | nil => rfl
    | cons m r =>
      have hmembers := foldlM_memberTokens [] "" (m :: r) nofun stack (by omega) rest
      rw [foldlM_nameOrClose, hmembers]
      rfl

/-- The reader takes the tokens of items as these, behind those already read. -/
theorem foldlM_itemTokens (read items : List Json) (hne : items ≠ []) (stack : List Frame)
    (hroom : stack.length + 1 + heightItems items ≤ maxNesting) (rest : List Token) :
    (itemTokens items ++ rest).foldlM step? ⟨.value, .items read :: stack⟩ =
      rest.foldlM step? (finish (.arr (read ++ asReadItems items)) stack) := by
  match items with
  | [] => exact absurd rfl hne
  | [v] =>
    rw [heightItems] at hroom
    have hv := foldlM_tokens v (.items read :: stack) (by rw [List.length_cons]; omega)
    rw [itemTokens, List.append_assoc, hv]
    rfl
  | v :: w :: r =>
    rw [heightItems] at hroom
    have hv := foldlM_tokens v (.items read :: stack) (by rw [List.length_cons]; omega)
    -- once `v` is read and the comma behind it, the others follow
    have hr := foldlM_itemTokens (read ++ [v.asRead]) (w :: r) nofun stack (by omega) rest
    rw [itemTokens, List.append_assoc, hv]
    rw [List.append_assoc, List.singleton_append] at hr
    exact hr

/-- The reader puts the members whose tokens it takes to those already read. -/
theorem foldlM_memberTokens (read : Table Json) (name : String) (members : List (String × Json)) (hne : members ≠ [])
    (stack : List Frame) (hroom : stack.length + 1 + heightMembers members ≤ maxNesting) (rest : List Token) :
    (memberTokens members ++ rest).foldlM step? ⟨.name, .members read name :: stack⟩ =
      rest.foldlM step? (finish (.obj (Table.putAll (asReadMembers members) read)) stack) := by
  match members with
  | [] => exact absurd rfl hne
  | [(k, v)] =>
    rw [heightMembers] at hroom
    have hv := foldlM_tokens v (.members read k :: stack) (by rw [List.length_cons]; omega)
    rw [memberTokens, List.append_assoc, List.cons_append, foldlM_of_step? (step?_name k name read stack),
      List.cons_append, foldlM_of_step? (step?_colon k read stack), hv]
    rfl
  | (k, v) :: m :: r =>
    rw [heightMembers] at hroom
    have hv := foldlM_tokens v (.members read k :: stack) (by rw [List.length_cons]; omega)
    have hr := foldlM_memberTokens (Table.put k v.asRead read) k (m :: r) nofun stack (by omega) rest
    rw [memberTokens, List.append_assoc, List.cons_append, foldlM_of_step? (step?_name k name read stack),
      List.cons_append, foldlM_of_step? (step?_colon k read stack), hv]
    exact hr
end

end Reader

/-! ### Texts -/

/-- A value is read from its text with its members in order. -/
theorem parseChars?_print {v : Json} (hnumbers : v.ReadsBack) (hdeep : v.height ≤ maxNesting) :
    parseChars? v.print = some v.asRead := by
  have hempty : Printable [] := trivial
  have hprintable := printable_tokens v hnumbers hempty nofun
  have hfold := Reader.foldlM_tokens v [] (by simpa using hdeep) []
  rw [List.append_nil] at hprintable hfold
  rw [parseChars?, print, lex?_flatMap_text hprintable, Option.bind_eq_bind, Option.bind_some, ofTokens?, hfold]
  rfl

theorem parse?_render {v : Json} (hnumbers : v.ReadsBack) (hdeep : v.height ≤ maxNesting) :
    parse? v.render = some v.asRead := by
  rw [parse?, render, String.toList_ofList, parseChars?_print hnumbers hdeep]

/-- A value whose members are in order reads back from the UTF-8 bytes of its text. -/
theorem parseBytes?_print {v : Json} (ho : v.Ordered) (hnumbers : v.ReadsBack) (hdeep : v.height ≤ maxNesting) :
    parseBytes? (Utf8.encodeChars v.print) = some v := by
  rw [parseBytes?, Utf8.decodeChars?_encodeChars, Option.bind_eq_bind, Option.bind_some,
    parseChars?_print hnumbers hdeep, asRead_of_ordered v ho]

end Switchboard.Json
