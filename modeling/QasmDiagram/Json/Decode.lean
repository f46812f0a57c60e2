/-
Module: QasmDiagram.Json.Decode
Purpose: Taking JSON values apart: records by field name or by position, choices by the name of the
  alternative. A part that is handed out is smaller than the value it comes from, so a decoder may
  recurse on it.
Trusted boundary: none
Main exports: DecodeError, Json.Part, Json.record, Json.parts, Json.fieldsOnly, Json.alternative,
  Json.choice, Json.items
-/
import QasmDiagram.Json

namespace QasmDiagram

/-- Why a JSON value stands for nothing of the wanted kind: it has the wrong form, or it has the
right form and breaks a rule that is told. -/
inductive DecodeError where
  | malformed
  | refused (reason : String)
deriving Repr, Inhabited, DecidableEq

namespace Json

/-- A value that is part of `whole`. -/
abbrev Part (whole : Json) := { part : Json // sizeOf part < sizeOf whole }

/-- Items of an array are smaller than the array. -/
theorem sizeOf_item {item : Json} {items : List Json} (h : item ∈ items) :
    sizeOf item < sizeOf (Json.array items) := by
  have := List.sizeOf_lt_of_mem h
  simp only [array.sizeOf_spec]
  omega

/-- The value of a field is smaller than the object. -/
theorem sizeOf_field {entry : String × Json} {fields : List (String × Json)} (h : entry ∈ fields) :
    sizeOf entry.2 < sizeOf (Json.object fields) := by
  have := List.sizeOf_lt_of_mem h
  obtain ⟨name, value⟩ := entry
  simp only [Prod.mk.sizeOf_spec, object.sizeOf_spec] at this ⊢
  omega

/-- A field of an object as a part of it. -/
def fieldPart? (name : String) (fields : List (String × Json)) : Option (Part (.object fields)) :=
  match h : fields.reverse.find? fun entry => entry.1 == name with
  | none => none
  | some entry => some ⟨entry.2, sizeOf_field (List.mem_reverse.1 (List.mem_of_find?_eq_some h))⟩

/-- An item of an array as a part of it. -/
def itemPart? (position : Nat) (items : List Json) : Option (Part (.array items)) :=
  match h : items[position]? with
  | none => none
  | some item => some ⟨item, sizeOf_item (List.mem_of_getElem? h)⟩

/-- The fields of an object, by name. -/
def fieldsOnly : (whole : Json) → Except DecodeError (String → Option (Part whole))
  | .object fields => .ok fun name => fieldPart? name fields
  | _ => .error .malformed

/-- The fields of a record, by name. An object gives them by name, and other names do not matter;
an array gives them by position, in the order of `names`, and must have at least `least` of them
and no more than there are names. -/
def record (names : List String) (least : Nat) :
    (whole : Json) → Except DecodeError (String → Option (Part whole))
  | .object fields => .ok fun name => fieldPart? name fields
  | .array items =>
      if least ≤ items.length ∧ items.length ≤ names.length then
        .ok fun name => itemPart? (names.idxOf name) items
      else .error .malformed
  | _ => .error .malformed

/-- A record taken apart: its parts by name, the names in the order in which the parts are judged,
and whether there are more parts than names. -/
structure Parts (whole : Json) where
  part : String → Option (Part whole)
  order : List String
  surplus : Bool

/-- Takes a record apart. An object gives its parts by name, they are judged in the order of their
names, and other names do not matter. An array gives them by position, in the order of `names`, and
they are judged in that order. -/
def parts (names : List String) : (whole : Json) → Except DecodeError (Parts whole)
  | .object fields =>
      .ok ⟨fun name => fieldPart? name fields, names.mergeSort fun a b => decide (a ≤ b), false⟩
  | .array items =>
      .ok ⟨fun name => itemPart? (names.idxOf name) items, names, names.length < items.length⟩
  | _ => .error .malformed

/-- Why decoding failed, if it did. -/
def fault? {α : Type} : Except DecodeError α → Option DecodeError
  | .ok _ => none
  | .error e => some e

/-- Judges the parts of a record: the first fault decides, and a surplus is refused last. -/
def Parts.settle {whole : Json} (p : Parts whole) (faults : List (String × Option DecodeError)) :
    Except DecodeError Unit :=
  match p.order.findSome? fun name => (faults.lookup name).join with
  | some e => .error e
  | none => if p.surplus then .error .malformed else .ok ()

/-- A field that must be there. -/
def required {whole : Json} : Option (Part whole) → Except DecodeError (Part whole)
  | some part => .ok part
  | none => .error .malformed

/-- The alternative that a value names: by a string alone, or by the only field of an object, whose
value is then its content. -/
def alternative : (whole : Json) → Except DecodeError (String × Option (Part whole))
  | .string name => .ok (name, none)
  | .object fields =>
      match fields with
      | [(name, value)] => .ok (name,
          some ⟨value, @sizeOf_field (name, value) [(name, value)] List.mem_cons_self⟩)
      | _ => .error .malformed
  | _ => .error .malformed

/-- Accepts the content of an alternative that has none: nothing or null. -/
def noContent {whole : Json} : Option (Part whole) → Except DecodeError Unit
  | none => .ok ()
  | some ⟨.null, _⟩ => .ok ()
  | some _ => .error .malformed

/-- One of the given values, named by a string. -/
def choice {α : Type} (all : List α) (name : α → String) (whole : Json) : Except DecodeError α := do
  let (tag, content) ← alternative whole
  noContent content
  match all.find? fun value => name value == tag with
  | some value => return value
  | none => throw .malformed

/-- The items of an array as parts of it. -/
def items : (whole : Json) → Except DecodeError (List (Part whole))
  | .array entries => .ok (entries.attach.map fun entry => ⟨entry.1, sizeOf_item entry.2⟩)
  | _ => .error .malformed

/-- A string. -/
def asString : Json → Except DecodeError String
  | .string text => .ok text
  | _ => .error .malformed

/-- A truth value. -/
def asBool : Json → Except DecodeError Bool
  | .bool value => .ok value
  | _ => .error .malformed

/-- A whole number from zero up to, and without, `limit`. -/
def asNatBelow (limit : Nat) : Json → Except DecodeError Nat
  | .integer value =>
      if 0 ≤ value ∧ value < limit then .ok value.toNat else .error .malformed
  | _ => .error .malformed

/-- A list, each item decoded by `item`. -/
def asList {α : Type} (item : Json → Except DecodeError α) (whole : Json) :
    Except DecodeError (List α) := do
  (← items whole).mapM fun part => item part.1

/-- An optional part: absent and null are both `none`. -/
def optional {α : Type} {whole : Json} (content : Json → Except DecodeError α) :
    Option (Part whole) → Except DecodeError (Option α)
  | none => .ok none
  | some ⟨.null, _⟩ => .ok none
  | some part => do return some (← content part.1)

end Json

end QasmDiagram
