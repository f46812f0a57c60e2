/-
Module: QasmDiagram.Proofs.Json.Faithful
Purpose: Encodings that a decoder undoes and whose texts are read back: words, choices, lists, and
  records with fields that may be left out.
Trusted boundary: none
Main exports: Json.fieldsOf, Json.field?_fieldsOf, Json.LegibleRows, Json.Legible.record,
  Json.ifPresent_row, Json.withDefault_row, Json.optional_row, Json.Parts.settle_eq,
  Json.Faithful, Json.Faithful.list, Json.Faithful.text
-/
import QasmDiagram.Circuit.Encoding
import QasmDiagram.Proofs.Json.Legible

namespace QasmDiagram

namespace Json

/-! ### Records with rows that may be empty -/

/-- The fields of a record with the given rows: the rows without a value are left out. -/
def fieldsOf (rows : List (String × Option Json)) : List (String × Json) :=
  rows.flatMap fun row => fieldIfSome row.1 row.2

theorem fieldsOf_cons (name : String) (value : Option Json) (rows : List (String × Option Json)) :
    fieldsOf ((name, value) :: rows) = fieldIfSome name value ++ fieldsOf rows :=
  List.flatMap_cons

theorem fieldUnless_eq (omitted : Bool) (name : String) (value : Json) :
    fieldUnless omitted name value = fieldIfSome name (if omitted then none else some value) := by
  cases omitted <;> rfl

/-- A field is looked for among the later fields first. -/
theorem field?_append (name : String) (fields later : List (String × Json)) :
    field? name (fields ++ later) = (field? name later).or (field? name fields) := by
  simp only [field?, List.reverse_append, List.find?_append, Option.map_or]

theorem field?_ifSome (name other : String) (value : Option Json) :
    field? name (fieldIfSome other value) = if other = name then value else none := by
  cases value with
  | none => simp [fieldIfSome, field?]
  | some value => by_cases same : other = name <;> simp [fieldIfSome, field?, same]

section

variable {rows : List (String × Option Json)}

/-- Each name of a record finds the value of its row. -/
theorem field?_fieldsOf (distinct : (rows.map Prod.fst).Nodup) (name : String) :
    field? name (fieldsOf rows) = (rows.lookup name).join := by
  induction rows with
  | nil => rfl
  | cons row rows ih =>
      obtain ⟨other, value⟩ := row
      rw [List.map_cons, List.nodup_cons] at distinct
      rw [fieldsOf_cons, field?_append, ih distinct.2, field?_ifSome, List.lookup_cons]
      by_cases same : other = name
      · subst same
        have absent : rows.lookup other = none := by
          rw [List.lookup_eq_none_iff]
          intro row member
          rw [bne_iff_ne]
          intro named
          exact distinct.1 (List.mem_map.mpr ⟨row, member, named.symm⟩)
        simp [absent]
      · have differs : (name == other) = false := beq_false_of_ne (Ne.symm same)
        rw [if_neg same, Option.or_none, differs]

/-- The fields of a record have their names in the order of its rows. -/
theorem sublist_names (rows : List (String × Option Json)) :
    ((fieldsOf rows).map Prod.fst).Sublist (rows.map Prod.fst) := by
  induction rows with
  | nil => exact .refl []
  | cons row rows ih =>
      obtain ⟨name, value⟩ := row
      rw [fieldsOf_cons, List.map_append]
      cases value with
      | none => exact ih.cons name
      | some value => exact ih.cons_cons name

/-- The values of the rows that have one are legible. -/
def LegibleRows (room : Nat) (rows : List (String × Option Json)) : Prop :=
  ∀ row ∈ rows, ∀ value ∈ row.2, Legible room value

namespace LegibleRows

variable {room : Nat} {name : String}

theorem nil : LegibleRows room [] :=
  List.forall_mem_nil _

theorem cons {value : Option Json} (h : ∀ v ∈ value, Legible room v) (others : LegibleRows room rows) :
    LegibleRows room ((name, value) :: rows) :=
  List.forall_mem_cons.mpr ⟨h, others⟩

/-- A row that may be left out is legible if its value is. -/
theorem consUnless {value : Json} {omitted : Bool} (h : Legible room value)
    (others : LegibleRows room rows) :
    LegibleRows room ((name, if omitted then none else some value) :: rows) := by
  refine cons ?_ others
  intro v given
  cases omitted with
  | true => cases given
  | false =>
      cases given
      exact h

end LegibleRows

/-- A record of legible values is legible if no name is given twice. -/
theorem Legible.record {room : Nat} (distinct : (rows.map Prod.fst).Nodup)
    (legible : LegibleRows room rows) : Legible (room + 1) (.object (fieldsOf rows)) := by
  refine .object ?_ (distinct.sublist (sublist_names rows))
  intro field member
  obtain ⟨⟨name, value⟩, row, given⟩ := List.mem_flatMap.mp member
  cases value with
  | none => cases given
  | some value =>
      rw [List.mem_singleton.mp given]
      exact legible _ row value rfl

end

/-! ### Decoding a row -/

section

variable {α : Type} {content : Json → Except DecodeError α} {rows : List (String × Option Json)}
  {name : String}

theorem fieldPart?_val (name : String) (fields : List (String × Json)) :
    (fieldPart? name fields).map Subtype.val = field? name fields := by
  unfold fieldPart? field?
  split
  · rename_i missing
    rw [missing]
    rfl
  · rename_i entry found
    simp only [found, Option.map_some]

/-- A row with a value is found as a part. -/
theorem fieldPart?_some {value : Json} (distinct : (rows.map Prod.fst).Nodup)
    (row : rows.lookup name = some (some value)) :
    ∃ part, fieldPart? name (fieldsOf rows) = some part ∧ part.1 = value := by
  have found := fieldPart?_val name (fieldsOf rows)
  rw [field?_fieldsOf distinct, row] at found
  exact Option.map_eq_some_iff.mp found

/-- A row without a value is missing. -/
theorem fieldPart?_none (distinct : (rows.map Prod.fst).Nodup)
    (row : rows.lookup name = some none) : fieldPart? name (fieldsOf rows) = none := by
  have found := fieldPart?_val name (fieldsOf rows)
  rw [field?_fieldsOf distinct, row] at found
  simpa using found

/-- A row that has a value is decoded. -/
theorem ifPresent_row {value : Json} {x : α} (distinct : (rows.map Prod.fst).Nodup)
    (row : rows.lookup name = some (some value)) (decoded : content value = .ok x) :
    ifPresent content (fieldPart? name (fieldsOf rows)) = .ok (some x) := by
  obtain ⟨part, found, rfl⟩ := fieldPart?_some distinct row
  rw [found, ifPresent, decoded]
  rfl

/-- A row that is empty where it holds its default is decoded, or replaced by the default. -/
theorem withDefault_row {value : Json} {omitted : Bool} {absent x : α}
    (distinct : (rows.map Prod.fst).Nodup)
    (row : rows.lookup name = some (if omitted then none else some value))
    (default : omitted = true → x = absent) (decoded : content value = .ok x) :
    withDefault absent content (fieldPart? name (fieldsOf rows)) = .ok x := by
  cases omitted with
  | false =>
      rw [withDefault, ifPresent_row distinct row decoded]
      rfl
  | true =>
      rw [fieldPart?_none distinct row, default rfl]
      rfl

/-- A row that is empty where there is no value is decoded to the optional value. -/
theorem optional_row {encode : α → Json} {x : Option α} (distinct : (rows.map Prod.fst).Nodup)
    (row : rows.lookup name = some (x.map encode)) (decoded : ∀ x, content (encode x) = .ok x)
    (notNull : ∀ x, encode x ≠ .null) :
    optional content (fieldPart? name (fieldsOf rows)) = .ok x := by
  cases x with
  | none =>
      rw [fieldPart?_none distinct row]
      rfl
  | some x =>
      obtain ⟨⟨value, smaller⟩, found, same⟩ := fieldPart?_some distinct row
      have read : content value = .ok x := by rw [← decoded x, ← same]
      have notNull : value ≠ .null := fun null => notNull x (same.symm.trans null)
      rw [found]
      cases value with
      | null => exact absurd rfl notNull
      | _ =>
          simp only [optional, read]
          rfl

end

/-- A record without faulty parts and without a surplus passes. -/
theorem Parts.settle_eq {whole : Json} {p : Parts whole}
    {faults : List (String × Option DecodeError)} (complete : p.surplus = false)
    (sound : ∀ fault ∈ faults, fault.2 = none) : p.settle faults = .ok () := by
  have none : (p.order.findSome? fun name => (faults.lookup name).join) = none := by
    rw [List.findSome?_eq_none_iff]
    intro name _
    cases found : faults.lookup name with
    | none => rfl
    | some fault =>
        obtain ⟨before, after, given, _⟩ := List.lookup_eq_some_iff.mp found
        exact sound (name, fault) (by rw [given]; simp)
  rw [settle, none, complete]
  rfl

/-! ### Faithful encodings -/

theorem asNatBelow_natural {n limit : Nat} (h : n < limit) :
    asNatBelow limit (.integer n) = .ok n := by
  have inRange : (0 : Int) ≤ n ∧ (n : Int) < limit := by omega
  rw [asNatBelow, if_pos inRange, Int.toNat_natCast]

/-- A whole number of 32 bits is read back as that number. -/
theorem asWord_ofWord (word : UInt32) : asWord (ofWord word) = .ok word := by
  rw [asWord, ofWord, asNatBelow_natural word.toNat_lt_size]
  change Except.ok (UInt32.ofNat word.toNat) = _
  rw [UInt32.ofNat_toNat]

/-- An encoding that the decoder undoes, and whose texts are read back where there is `room` for
more open arrays and objects. -/
structure Faithful {α : Type} (room : Nat) (encode : α → Json)
    (decode : Json → Except DecodeError α) : Prop where
  decoded : ∀ x, decode (encode x) = .ok x
  legible : ∀ x, Legible room (encode x)

namespace Faithful

variable {α : Type} {room : Nat} {encode : α → Json} {decode : Json → Except DecodeError α}

/-- An optional value is legible where there is one. -/
theorem legible_of_mem (h : Faithful room encode decode) (x : Option α) :
    ∀ value ∈ x.map encode, Legible room value := by
  intro value given
  obtain ⟨x, _, rfl⟩ := Option.map_eq_some_iff.mp given
  exact h.legible x

theorem string : Faithful room .string asString where
  decoded _ := rfl
  legible := .string

theorem word : Faithful room ofWord asWord where
  decoded := asWord_ofWord
  legible word := .natural (Nat.lt_trans word.toNat_lt_size (by decide))

/-- A choice is faithful if each value is the first of its name. -/
theorem choice {all : List α} {name : α → String}
    (first : ∀ x, all.find? (fun value => name value == name x) = some x) :
    Faithful room (fun x => .string (name x)) (Json.choice all name) where
  decoded x := by
    simp only [Json.choice, alternative, noContent, bind, Except.bind, first]
    rfl
  legible x := .string (name x)

/-- The items of an array are decoded in order. -/
theorem asList_array (decode : Json → Except DecodeError α) (entries : List Json) :
    asList decode (.array entries) = entries.mapM decode := by
  change (entries.attach.map _).mapM _ = _
  rw [List.mapM_map]
  change entries.attach.mapM (fun entry => decode entry.1) = _
  rw [List.mapM_subtype (g := decode) fun _ _ => rfl, List.unattach_attach]

/-- A list of values that are decoded from their encodings is decoded from its array. -/
theorem asList_encoded (decoded : ∀ x, decode (encode x) = .ok x) (xs : List α) :
    asList decode (.array (xs.map encode)) = .ok xs := by
  have item : (fun x => decode (encode x)) = (fun x => pure x : α → Except DecodeError α) :=
    funext decoded
  rw [asList_array, List.mapM_map]
  change xs.mapM (fun x => decode (encode x)) = _
  rw [item, List.mapM_pure, List.map_id']
  rfl

/-- A list of faithfully encoded items. -/
theorem list (h : Faithful room encode decode) :
    Faithful (room + 1) (fun xs => .array (xs.map encode)) (asList decode) where
  decoded := asList_encoded h.decoded
  legible xs := by
    refine .array fun item member => ?_
    obtain ⟨x, _, rfl⟩ := List.mem_map.mp member
    exact h.legible x

/-- The text of an encoded value, in either layout, is decoded to the value. -/
theorem text (h : Faithful room encode decode) (few : room ≤ openLimit) (layout : Layout) (x : α) :
    (ofText? ((encode x).render layout)).map decode = some (.ok x) := by
  rw [(h.legible x).ofText?_render few, Option.map_some, h.decoded]

end Faithful

end Json

end QasmDiagram
