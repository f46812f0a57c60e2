/-
Module: QasmDiagram.Proofs.Json.Legible
Purpose: Values whose text is read back as the value, in both layouts: the writer and the reading
  machine are followed together, one lemma per form of value.
Trusted boundary: none
Main exports: Json.Machine.run_append, Json.Machine.Awaits, Json.ReadTo, Json.Legible,
  Json.Legible.natural, Json.Legible.array, Json.Legible.object, Json.Legible.ofText?_render
-/
import Mathlib.Data.List.Nodup
import QasmDiagram.Proofs.Json.Tokens

namespace QasmDiagram

namespace Json

/-! ### Reading along with writing -/

namespace Machine

/-- Tokens are taken one after the other. -/
theorem run_append {m m' : Machine} {tokens : List Token} (h : m.run tokens = some m')
    (more : List Token) : m.run (tokens ++ more) = m'.run more := by
  induction tokens generalizing m with
  | nil =>
      cases h
      rfl
  | cons token tokens ih =>
      rw [List.cons_append, run]
      rw [run] at h
      cases step : m.step token with
      | none =>
          rw [step] at h
          cases h
      | some next =>
          rw [step] at h
          exact ih h

theorem run_one {m m' : Machine} {token : Token} (h : m.step token = some m') :
    m.run [token] = some m' := by
  simp only [run, h]

/-- A machine that takes a value on top of the open arrays and objects of `stack`. -/
def Awaits (m : Machine) (stack : List Frame) : Prop :=
  ∀ token, token ≠ .closeArray → m.step token = beginValue stack token

theorem awaits_value (stack : List Frame) : (Machine.value stack).Awaits stack :=
  fun _ _ => rfl

theorem awaits_firstItem (stack : List Frame) :
    (Machine.firstItem stack).Awaits (.array [] :: stack) := by
  intro token other
  cases token with
  | closeArray => exact absurd rfl other
  | _ => rfl

/-- A field of a new name is put before the earlier ones. -/
theorem addField_reverse {name : String} {value : Json} {fields others : List (String × Json)}
    (distinct : ((((name, value) :: fields).reverse ++ others).map Prod.fst).Nodup) :
    addField name value fields = (name, value) :: fields := by
  have absent : name ∉ fields.map Prod.fst := by
    rw [List.map_append, List.map_reverse, List.map_cons] at distinct
    exact (List.nodup_cons.mp (List.nodup_reverse.mp distinct.of_append_left)).1
  have kept : fields.filter (fun entry => entry.1 != name) = fields := by
    rw [List.filter_eq_self]
    intro entry member
    rw [bne_iff_ne]
    rintro rfl
    exact absent (List.mem_map_of_mem member)
  rw [addField, kept]

end Machine

/-- Every rest. -/
def anything : List Char → Prop :=
  fun _ => True

/-- Reading the text, before a rest that `behind` admits, leads to the state `m`. -/
def ReadTo (behind : List Char → Prop) (text : String) (m : Machine) : Prop :=
  ∃ tokens, Cuts behind text.toList tokens ∧ (Machine.value []).run tokens = some m

namespace ReadTo

variable {behind behind' : List Char → Prop} {text text' : String} {m m' : Machine}

/-- Before any text at all the machine awaits a value. -/
theorem empty : ReadTo anything "" (.value []) :=
  ⟨[], fun _ _ _ => rfl, rfl⟩

/-- More text leads on, if its tokens do and it may stand behind what has been read. -/
theorem extend (h : ReadTo behind text m) {next : List Char} {tokens : List Token}
    (written : text'.toList = text.toList ++ next) (cut : Cuts behind' next tokens)
    (joins : ∀ rest, behind' rest → behind (next ++ rest)) (taken : m.run tokens = some m') :
    ReadTo behind' text' m' := by
  obtain ⟨before, cutBefore, run⟩ := h
  refine ⟨before ++ tokens, ?_, by rw [Machine.run_append run, taken]⟩
  intro done rest admitted
  rw [written, List.append_assoc, cutBefore done _ (joins rest admitted), cut _ _ admitted,
    List.reverse_append, List.append_assoc]

/-- What holds before every rest holds where words end. -/
theorem separate (h : ReadTo anything text m) : ReadTo Separate text m := by
  obtain ⟨tokens, cut, run⟩ := h
  exact ⟨tokens, fun done rest _ => cut done rest trivial, run⟩

/-- A character of punctuation ends a word, and any text may follow it. -/
theorem punctuation (h : ReadTo Separate text m) (c : Char) (token : Token)
    (isToken : punctuation? c = some token) (taken : m.step token = some m')
    (written : text'.toList = text.toList ++ [c]) : ReadTo anything text' m' := by
  refine h.extend written (cuts_punctuation isToken) ?_ (Machine.run_one taken)
  rintro rest _ d ⟨rfl⟩
  exact (bare_of_punctuation isToken).1

/-- A string ends a word, and any text may follow it. -/
theorem string (h : ReadTo Separate text m) {content : String}
    (taken : m.step (.scalar (.string content)) = some m') :
    ReadTo anything (writeString text content) m' := by
  have cut : Cuts anything _ [.scalar (.string (String.ofList content.toList))] :=
    cuts_string content.toList
  rw [String.ofList_toList] at cut
  refine h.extend (toList_writeString text content) cut ?_ (Machine.run_one taken)
  rintro rest _ d ⟨rfl⟩
  rfl

/-- A word is read where it ends. -/
theorem word (h : ReadTo anything text m) (word : String) {value : Json}
    (meant : bareValue? word.toList = some value) (nonempty : word.toList ≠ [])
    (bare : ∀ c ∈ word.toList, isBare c = true) (taken : m.step (.scalar value) = some m') :
    ReadTo Separate (text ++ word) m' :=
  h.extend String.toList_append (cuts_word meant nonempty bare) (fun _ _ => trivial)
    (Machine.run_one taken)

/-- Blanks change nothing. -/
theorem blanks (h : ReadTo anything text m) (blanks : String)
    (blank : ∀ c ∈ blanks.toList, isBlank c = true) : ReadTo anything (text ++ blanks) m :=
  h.extend String.toList_append (cuts_blanks blank) (fun _ _ => trivial) rfl

theorem blanks_separate (h : ReadTo Separate text m) (blanks : String)
    (blank : ∀ c ∈ blanks.toList, isBlank c = true) : ReadTo Separate (text ++ blanks) m := by
  refine h.extend String.toList_append (cuts_blanks blank) ?_ rfl
  intro rest separate
  cases opened : blanks.toList with
  | nil => exact separate
  | cons c others =>
      have first : isBlank c = true := blank c (by simp [opened])
      rintro d ⟨rfl⟩
      exact bare_of_blank first

end ReadTo

/-! ### The pieces of a layout -/

theorem blank_of_mem_lineBreak {layout : Layout} {level : Nat} :
    ∀ c ∈ (layout.lineBreak level).toList, isBlank c = true := by
  cases layout with
  | compact =>
      intro c hc
      cases hc
  | indented =>
      have blanks : ∀ count, ∀ c ∈ ("\n".pushn ' ' count).toList, isBlank c = true := by
        intro count
        induction count with
        | zero => exact List.all_eq_true.mp rfl
        | succ count ih =>
            intro c hc
            change c ∈ (("\n".pushn ' ' count).push ' ').toList at hc
            rw [String.toList_push, List.mem_append, List.mem_singleton] at hc
            rcases hc with earlier | rfl
            · exact ih c earlier
            · rfl
      exact blanks (2 * level)

theorem ReadTo.lineBreak {text : String} {m : Machine} (h : ReadTo anything text m)
    (layout : Layout) (level : Nat) : ReadTo anything (text ++ layout.lineBreak level) m :=
  h.blanks _ blank_of_mem_lineBreak

/-- The colon behind the name of a field. -/
theorem ReadTo.colon {text : String} {stack : List Frame} {fields : List (String × Json)}
    {name : String} (h : ReadTo Separate text (.colon stack fields name)) (layout : Layout) :
    ReadTo anything (text ++ layout.colon) (.value (.object fields name :: stack)) := by
  have mark : ReadTo anything (text ++ ":") (.value (.object fields name :: stack)) :=
    h.punctuation ':' .colon rfl rfl String.toList_append
  cases layout with
  | compact => exact mark
  | indented =>
      have blank := mark.blanks " " (List.all_eq_true.mp rfl)
      rwa [String.append_assoc] at blank

/-! ### Legible values -/

/-- Wherever a value is awaited with `room` for more open arrays and objects, what is written for
this one is read as it. -/
def Legible (room : Nat) (value : Json) : Prop :=
  ∀ (layout : Layout) (level : Nat) (out : String) (m : Machine) (stack : List Frame),
    m.Awaits stack → stack.length + room ≤ openLimit → ReadTo anything out m →
    ReadTo Separate (writeValue layout level out value) (.done stack value)

namespace Legible

variable {room : Nat}

/-- A word is legible if it is read as the value it is written for. -/
theorem ofWord {value : Json} (word : String)
    (written : ∀ layout level out, writeValue layout level out value = out ++ word)
    (meant : bareValue? word.toList = some value) (nonempty : word.toList ≠ [])
    (bare : word.toList.all isBare = true) : Legible room value := by
  intro layout level out m stack awaits _ before
  rw [written]
  exact before.word word meant nonempty (List.all_eq_true.mp bare) (awaits _ (by simp))

theorem null : Legible room .null :=
  ofWord "null" (fun _ _ _ => by rw [writeValue]) rfl (by decide) rfl

theorem bool (value : Bool) : Legible room (.bool value) := by
  cases value with
  | true => exact ofWord "true" (fun _ _ _ => by rw [writeValue]) rfl (by decide) rfl
  | false => exact ofWord "false" (fun _ _ _ => by rw [writeValue]) rfl (by decide) rfl

theorem natural {n : Nat} (h : n < 2 ^ 52) : Legible room (.integer n) := by
  have text : (toString (n : Int)).toList = Nat.toDigits 10 n := Nat.toList_repr
  refine ofWord (toString (n : Int)) (fun _ _ _ => by rw [writeValue]) (bareValue?_natural h) ?_ ?_
  · rw [text]
    exact Nat.toDigits_ne_nil
  · rw [List.all_eq_true]
    intro c hc
    rw [text] at hc
    have digit := isDigit_of_mem_toDigits hc
    simp [isBare, Char.isAlphanum, digit]

theorem string (text : String) : Legible room (.string text) := by
  intro layout level out m stack awaits _ before
  rw [writeValue]
  exact (before.separate.string (awaits _ (by simp))).separate

/-- The remaining items of an array are read up to its closing bracket. -/
theorem readTo_writeItems (layout : Layout) (level : Nat) {stack : List Frame} {others : List Json}
    (legible : ∀ item ∈ others, Legible room item)
    (enough : stack.length + 1 + room ≤ openLimit) {done : List Json} {last : Json} {out : String}
    (before : ReadTo Separate out (.done (.array done :: stack) last)) :
    ReadTo anything (writeItems layout level out others)
      (.done stack (.array ((last :: done).reverse ++ others))) := by
  induction others generalizing done last out with
  | nil =>
      rw [writeItems, List.append_nil]
      exact (before.blanks_separate _ blank_of_mem_lineBreak).punctuation ']' .closeArray rfl rfl
        String.toList_append
  | cons first others ih =>
      have comma : ReadTo anything (out ++ ",") (.value (.array (last :: done) :: stack)) :=
        before.punctuation ',' .comma rfl rfl String.toList_append
      have item := legible first List.mem_cons_self layout (level + 1) _ _
        (.array (last :: done) :: stack) (Machine.awaits_value _) enough
        (comma.lineBreak layout (level + 1))
      have read := ih (fun item member => legible item (List.mem_cons_of_mem first member)) item
      rw [List.reverse_cons, List.append_assoc, List.singleton_append] at read
      rw [writeItems]
      exact read

/-- An array of legible items is legible. -/
theorem array {items : List Json} (legible : ∀ item ∈ items, Legible room item) :
    Legible (room + 1) (.array items) := by
  intro layout level out m stack awaits enough before
  have roomLeft : stack.length < openLimit := by omega
  have opened : m.step .openArray = some (.firstItem stack) := by
    rw [awaits _ (by simp), Machine.beginValue, if_pos roomLeft]
  have bracket : ReadTo anything (out ++ "[") (.firstItem stack) :=
    before.separate.punctuation '[' .openArray rfl opened String.toList_append
  cases items with
  | nil =>
      have closed : ReadTo anything (out ++ "[" ++ "]") (.done stack (.array [])) :=
        bracket.separate.punctuation ']' .closeArray rfl rfl String.toList_append
      rw [String.append_assoc] at closed
      rw [writeValue]
      exact closed.separate
  | cons first others =>
      have item := legible first List.mem_cons_self layout (level + 1) _ _ (.array [] :: stack)
        (Machine.awaits_firstItem stack) (by rw [List.length_cons]; omega)
        (bracket.lineBreak layout (level + 1))
      have read := readTo_writeItems layout level
        (fun item member => legible item (List.mem_cons_of_mem first member)) (by omega) item
      rw [writeValue]
      exact read.separate

/-- A field is read where its name is awaited. -/
theorem readTo_field (layout : Layout) (level : Nat) (name : String) {stack : List Frame}
    {fields : List (String × Json)} {value : Json} {m : Machine} {out : String}
    (legible : Legible room value) (enough : stack.length + 1 + room ≤ openLimit)
    (awaited : m.step (.scalar (.string name)) = some (.colon stack fields name))
    (before : ReadTo anything out m) :
    ReadTo Separate (writeValue layout level (writeString out name ++ layout.colon) value)
      (.done (.object fields name :: stack) value) :=
  legible layout level _ _ (.object fields name :: stack) (Machine.awaits_value _) enough
    ((before.separate.string awaited).separate.colon layout)

/-- The remaining fields of an object are read up to its closing brace. -/
theorem readTo_writeFields (layout : Layout) (level : Nat) {stack : List Frame}
    {others : List (String × Json)} (legible : ∀ field ∈ others, Legible room field.2)
    (enough : stack.length + 1 + room ≤ openLimit) {done : List (String × Json)} {name : String}
    {last : Json} {out : String}
    (distinct : ((((name, last) :: done).reverse ++ others).map Prod.fst).Nodup)
    (before : ReadTo Separate out (.done (.object done name :: stack) last)) :
    ReadTo anything (writeFields layout level out others)
      (.done stack (.object (((name, last) :: done).reverse ++ others))) := by
  induction others generalizing done name last out with
  | nil =>
      have fresh := Machine.addField_reverse distinct
      rw [writeFields, List.append_nil]
      exact (before.blanks_separate _ blank_of_mem_lineBreak).punctuation '\x7d' .closeObject rfl
        (by rw [Machine.step, Machine.afterValue, fresh]) String.toList_append
  | cons field others ih =>
      obtain ⟨next, value⟩ := field
      have fresh := Machine.addField_reverse distinct
      have comma : ReadTo anything (out ++ ",") (.field stack ((name, last) :: done)) :=
        before.punctuation ',' .comma rfl
          (by rw [Machine.step, Machine.afterValue, fresh]) String.toList_append
      have field := readTo_field layout (level + 1) next (legible _ List.mem_cons_self) enough rfl
        (comma.lineBreak layout (level + 1))
      have read := ih (fun entry member => legible entry (List.mem_cons_of_mem _ member))
        (by simpa using distinct) field
      rw [List.reverse_cons, List.append_assoc, List.singleton_append] at read
      rw [writeFields]
      exact read

/-- An object of legible fields with distinct names is legible. -/
theorem object {fields : List (String × Json)} (legible : ∀ field ∈ fields, Legible room field.2)
    (distinct : (fields.map Prod.fst).Nodup) : Legible (room + 1) (.object fields) := by
  intro layout level out m stack awaits enough before
  have roomLeft : stack.length < openLimit := by omega
  have opened : m.step .openObject = some (.firstField stack) := by
    rw [awaits _ (by simp), Machine.beginValue, if_pos roomLeft]
  have brace : ReadTo anything (out ++ "\x7b") (.firstField stack) :=
    before.separate.punctuation '\x7b' .openObject rfl opened String.toList_append
  cases fields with
  | nil =>
      have closed : ReadTo anything (out ++ "\x7b" ++ "\x7d") (.done stack (.object [])) :=
        brace.separate.punctuation '\x7d' .closeObject rfl rfl String.toList_append
      rw [String.append_assoc] at closed
      rw [writeValue]
      exact closed.separate
  | cons field others =>
      obtain ⟨name, value⟩ := field
      have field := readTo_field layout (level + 1) name (legible _ List.mem_cons_self)
        (by omega) rfl (brace.lineBreak layout (level + 1))
      have read := readTo_writeFields layout level
        (fun entry member => legible entry (List.mem_cons_of_mem _ member)) (by omega)
        (by simpa using distinct) field
      rw [writeValue]
      exact read.separate

/-- The text of a legible value is read back as the value. -/
theorem ofText?_render {value : Json} (h : Legible room value) (few : room ≤ openLimit)
    (layout : Layout) : ofText? (value.render layout) = some value := by
  have read := h layout 0 "" (.value []) [] (Machine.awaits_value []) (by simpa using few)
    ReadTo.empty
  obtain ⟨tokens, cut, run⟩ := read
  have cutAll : tokens? (value.render layout) = some tokens := by
    have all := cut [] [] fun c opens => by cases opens
    have nothing : tokensOnto? tokens.reverse [] = some tokens := by
      simp only [tokensOnto?, List.reverse_reverse]
    rwa [List.append_nil, List.append_nil, nothing] at all
  rw [ofText?, cutAll]
  simp [run]

end Legible

end Json

end QasmDiagram
