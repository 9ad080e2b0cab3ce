import LoxSyntax.Json.Text
import LoxSyntax.Proofs.Json.Number

/-! # JSON documents

The grammar of JSON texts, as a relation between a value and the characters of a text: which
characters may stand in a string and how the others are escaped, where white space may stand, and
how the elements of arrays and objects are set apart. An indented text is a document of its value.
-/

namespace LoxSyntax.Json

/-- White space between the parts of a document. -/
def IsSpace (text : List Char) : Prop := ∀ c ∈ text, c ∈ [' ', '\t', '\n', '\r']

/-- The characters that a backslash and a letter stand for, each with its letter. -/
def letterEscapes : List (Char × Char) :=
  [('"', '"'), ('\\', '\\'), ('/', '/'), ('\x08', 'b'), ('\x0c', 'f'), ('\n', 'n'), ('\r', 'r'),
    ('\t', 't')]

/-- The characters stand for this one in a string: itself, or its escape by a letter, or by the four
hexadecimal digits of its number. -/
inductive Shows : Char → List Char → Prop where
  | plain {c : Char} (notControl : 0x20 ≤ c.toNat) (notQuote : c ≠ '"') (notBackslash : c ≠ '\\') :
      Shows c [c]
  | letter {c letter : Char} (escape : (c, letter) ∈ letterEscapes) : Shows c ['\\', letter]
  | number {c : Char} {digits : List Nat} (four : digits.length = 4)
      (hexadecimal : ∀ digit ∈ digits, digit < 16)
      (value : digits.foldl (fun value digit => 16 * value + digit) 0 = c.toNat) :
      Shows c ('\\' :: 'u' :: digits.map Nat.digitChar)

/-- The characters stand for these in a string, one behind the other. -/
inductive ShowsAll : List Char → List Char → Prop where
  | nil : ShowsAll [] []
  | cons {c : Char} {cs shown others : List Char} (shows : Shows c shown)
      (more : ShowsAll cs others) : ShowsAll (c :: cs) (shown ++ others)

/-- The characters are a string literal that stands for the string. -/
inductive ShowsString : String → List Char → Prop where
  | quoted {value : String} {text : List Char} (shows : ShowsAll value.toList text) :
      ShowsString value ('"' :: text ++ ['"'])

mutual

/-- The characters are a text of the value, without white space around it. A number is denoted by
the literal that is written for it. -/
inductive Denotes : Json → List Char → Prop where
  | null : Denotes .null "null".toList
  | true : Denotes (.bool true) "true".toList
  | false : Denotes (.bool false) "false".toList
  | int {value : Int} {text : List Char} (number : IsNumber text)
      (shown : text = (toString value).toList) : Denotes (.int value) text
  | real {value : Binary64} {text : List Char} (number : IsNumber text)
      (shown : text = (NumberLayout.json.write value).toList) : Denotes (.real value) text
  /-- JSON has no number that is not finite. -/
  | notFinite {value : Binary64} (infinite : value.isFinite = false) :
      Denotes (.real value) "null".toList
  | string {value : String} {text : List Char} (shows : ShowsString value text) :
      Denotes (.string value) text
  | emptyArray {space : List Char} (isSpace : IsSpace space) :
      Denotes (.array []) ('[' :: space ++ [']'])
  | array {item : Json} {items : List Json} {front text others back : List Char}
      (isFront : IsSpace front) (first : Denotes item text) (more : DenotesItems items others)
      (isBack : IsSpace back) :
      Denotes (.array (item :: items)) ('[' :: front ++ text ++ others ++ back ++ [']'])
  | emptyObject {space : List Char} (isSpace : IsSpace space) :
      Denotes (.object []) ('\x7b' :: space ++ ['\x7d'])
  | object {field : String × Json} {fields : List (String × Json)}
      {front text others back : List Char} (isFront : IsSpace front)
      (first : DenotesField field text) (more : DenotesFields fields others)
      (isBack : IsSpace back) :
      Denotes (.object (field :: fields)) ('\x7b' :: front ++ text ++ others ++ back ++ ['\x7d'])

/-- The characters are texts of the items, each behind a comma. -/
inductive DenotesItems : List Json → List Char → Prop where
  | nil : DenotesItems [] []
  | cons {item : Json} {items : List Json} {front back text others : List Char}
      (isFront : IsSpace front) (isBack : IsSpace back) (next : Denotes item text)
      (more : DenotesItems items others) :
      DenotesItems (item :: items) (front ++ ',' :: back ++ text ++ others)

/-- The characters are a string literal of the name, a colon and a text of the value. -/
inductive DenotesField : String × Json → List Char → Prop where
  | named {name : String} {value : Json} {label front back text : List Char}
      (shows : ShowsString name label) (isFront : IsSpace front) (isBack : IsSpace back)
      (denotes : Denotes value text) :
      DenotesField (name, value) (label ++ front ++ ':' :: back ++ text)

/-- The characters are texts of the fields, each behind a comma. -/
inductive DenotesFields : List (String × Json) → List Char → Prop where
  | nil : DenotesFields [] []
  | cons {field : String × Json} {fields : List (String × Json)}
      {front back text others : List Char} (isFront : IsSpace front) (isBack : IsSpace back)
      (next : DenotesField field text) (more : DenotesFields fields others) :
      DenotesFields (field :: fields) (front ++ ',' :: back ++ text ++ others)

end

/-- The characters are one document of the value, and nothing else. -/
inductive IsDocument : Json → List Char → Prop where
  | spaced {json : Json} {front text back : List Char} (isFront : IsSpace front)
      (denotes : Denotes json text) (isBack : IsSpace back) :
      IsDocument json (front ++ text ++ back)

theorem isSpace_nil : IsSpace [] := by
  intro c member
  cases member

private theorem pushEscaped_shows (out : String) (c : Char) :
    ∃ shown, (pushEscaped out c).toList = out.toList ++ shown ∧ Shows c shown := by
  have letter (text : String) {c second : Char} (shape : text.toList = ['\\', second])
      (escape : (c, second) ∈ letterEscapes) :
      ∃ shown, (out ++ text).toList = out.toList ++ shown ∧ Shows c shown :=
    ⟨['\\', second], by rw [String.toList_append, shape], .letter escape⟩
  unfold pushEscaped
  split
  · exact letter "\\\"" rfl (by decide)
  · exact letter "\\\\" rfl (by decide)
  · exact letter "\\b" rfl (by decide)
  · exact letter "\\t" rfl (by decide)
  · exact letter "\\n" rfl (by decide)
  · exact letter "\\f" rfl (by decide)
  · exact letter "\\r" rfl (by decide)
  · next notQuote notBackslash _ _ _ _ _ =>
    split
    · next control =>
      refine ⟨'\\' :: 'u' :: [0, 0, c.toNat / 16, c.toNat % 16].map Nat.digitChar, by simp,
        .number rfl ?_ ?_⟩
      · intro digit member
        simp only [List.mem_cons, List.not_mem_nil, or_false] at member
        omega
      · simp only [List.foldl_cons, List.foldl_nil]
        omega
    · next notControl =>
      exact ⟨[c], by simp, .plain (Nat.le_of_not_lt notControl) notQuote notBackslash⟩

private theorem foldl_pushEscaped_shows (out : String) (cs : List Char) :
    ∃ text, (cs.foldl pushEscaped out).toList = out.toList ++ text ∧ ShowsAll cs text := by
  induction cs generalizing out with
  | nil => exact ⟨[], by simp, .nil⟩
  | cons c cs ih =>
    obtain ⟨shown, pushed, shows⟩ := pushEscaped_shows out c
    obtain ⟨others, appended, more⟩ := ih (pushEscaped out c)
    refine ⟨shown ++ others, ?_, .cons shows more⟩
    rw [List.foldl_cons, appended, pushed, List.append_assoc]

private theorem appendString_shows (out value : String) :
    ∃ text, (appendString out value).toList = out.toList ++ text ∧ ShowsString value text := by
  obtain ⟨text, appended, shows⟩ := foldl_pushEscaped_shows (out.push '"') value.toList
  exact ⟨'"' :: text ++ ['"'], by simp [appendString, appended], .quoted shows⟩

private theorem appendLine_space (out : String) (depth : Nat) :
    ∃ space, (appendLine out depth).toList = out.toList ++ space ∧ IsSpace space := by
  induction depth with
  | zero => exact ⟨['\n'], by simp [appendLine], by simp [IsSpace]⟩
  | succ depth ih =>
    obtain ⟨space, appended, isSpace⟩ := ih
    refine ⟨space ++ [' ', ' '], by simp [appendLine, appended], ?_⟩
    intro c member
    rcases List.mem_append.mp member with member | blank
    · exact isSpace c member
    · simp only [List.mem_cons, List.not_mem_nil, or_false, or_self] at blank
      simp [blank]

/-- What is written behind `out` denotes the value. -/
def Writes (out : String) (denotes : List Char → Prop) (result : String) : Prop :=
  ∃ text, result.toList = out.toList ++ text ∧ denotes text

private theorem appendScalar_denotes (out : String) {json : Json}
    (scalar : (∀ items, json ≠ .array items) ∧ ∀ fields, json ≠ .object fields) :
    Writes out (Denotes json) (appendScalar out json) := by
  cases json with
  | null => exact ⟨_, String.toList_append, .null⟩
  | bool value =>
    cases value with
    | false => exact ⟨_, String.toList_append, .false⟩
    | true => exact ⟨_, String.toList_append, .true⟩
  | int value => exact ⟨_, String.toList_append, .int (isNumber_toString value) rfl⟩
  | real value =>
    refine ⟨_, String.toList_append, ?_⟩
    cases finite : value.isFinite with
    | true => exact .real (NumberLayout.isNumber_write finite) rfl
    | false =>
      have null : NumberLayout.json.write value = "null" := by
        unfold NumberLayout.write
        rw [finite]
        split <;> rfl
      rw [null]
      exact .notFinite finite
  | string value =>
    obtain ⟨text, appended, shows⟩ := appendString_shows out value
    exact ⟨text, appended, .string shows⟩
  | array items => exact absurd rfl (scalar.1 items)
  | object fields => exact absurd rfl (scalar.2 fields)

/-- A value behind its name and a colon makes a field. -/
theorem Writes.field {out name result : String} {value : Json}
    (writes : Writes (appendString out name ++ ": ") (Denotes value) result) :
    Writes out (DenotesField (name, value)) result := by
  obtain ⟨label, labelled, shows⟩ := appendString_shows out name
  obtain ⟨text, written, denotes⟩ := writes
  have blank : IsSpace [' '] := by simp [IsSpace]
  refine ⟨_, ?_, .named shows isSpace_nil blank denotes⟩
  simp [written, labelled]

mutual

theorem appendPretty_denotes (depth : Nat) (out : String) (json : Json) :
    Writes out (Denotes json) (appendPretty depth out json) := by
  cases json with
  | null => exact appendScalar_denotes out (by simp)
  | bool value => exact appendScalar_denotes out (by simp)
  | int value => exact appendScalar_denotes out (by simp)
  | real value => exact appendScalar_denotes out (by simp)
  | string value => exact appendScalar_denotes out (by simp)
  | array items =>
    cases items with
    | nil => exact ⟨_, String.toList_append, .emptyArray isSpace_nil⟩
    | cons item items =>
      obtain ⟨front, begun, isFront⟩ := appendLine_space (out.push '[') (depth + 1)
      obtain ⟨text, written, first⟩ :=
        appendPretty_denotes (depth + 1) (appendLine (out.push '[') (depth + 1)) item
      obtain ⟨others, listed, more⟩ := appendPrettyItems_denotes (depth + 1)
        (appendPretty (depth + 1) (appendLine (out.push '[') (depth + 1)) item) items
      obtain ⟨back, ended, isBack⟩ := appendLine_space (appendPrettyItems (depth + 1)
        (appendPretty (depth + 1) (appendLine (out.push '[') (depth + 1)) item) items) depth
      refine ⟨_, ?_, .array isFront first more isBack⟩
      simp [appendPretty, ended, listed, written, begun]
  | object fields =>
    cases fields with
    | nil => exact ⟨_, String.toList_append, .emptyObject isSpace_nil⟩
    | cons field fields =>
      obtain ⟨name, value⟩ := field
      obtain ⟨front, begun, isFront⟩ := appendLine_space (out.push '\x7b') (depth + 1)
      obtain ⟨text, written, first⟩ := Writes.field (appendPretty_denotes (depth + 1)
        (appendString (appendLine (out.push '\x7b') (depth + 1)) name ++ ": ") value)
      obtain ⟨others, listed, more⟩ := appendPrettyFields_denotes (depth + 1)
        (appendPretty (depth + 1)
          (appendString (appendLine (out.push '\x7b') (depth + 1)) name ++ ": ") value) fields
      obtain ⟨back, ended, isBack⟩ := appendLine_space (appendPrettyFields (depth + 1)
        (appendPretty (depth + 1)
          (appendString (appendLine (out.push '\x7b') (depth + 1)) name ++ ": ") value)
        fields) depth
      refine ⟨_, ?_, .object isFront first more isBack⟩
      simp [appendPretty, ended, listed, written, begun]

private theorem appendPrettyItems_denotes (depth : Nat) (out : String) (items : List Json) :
    Writes out (DenotesItems items) (appendPrettyItems depth out items) := by
  cases items with
  | nil => exact ⟨[], by simp [appendPrettyItems], .nil⟩
  | cons item items =>
    obtain ⟨back, begun, isBack⟩ := appendLine_space (out.push ',') depth
    obtain ⟨text, written, next⟩ :=
      appendPretty_denotes depth (appendLine (out.push ',') depth) item
    obtain ⟨others, listed, more⟩ := appendPrettyItems_denotes depth
      (appendPretty depth (appendLine (out.push ',') depth) item) items
    refine ⟨_, ?_, .cons isSpace_nil isBack next more⟩
    simp [appendPrettyItems, listed, written, begun]

private theorem appendPrettyFields_denotes (depth : Nat) (out : String)
    (fields : List (String × Json)) :
    Writes out (DenotesFields fields) (appendPrettyFields depth out fields) := by
  cases fields with
  | nil => exact ⟨[], by simp [appendPrettyFields], .nil⟩
  | cons field fields =>
    obtain ⟨name, value⟩ := field
    obtain ⟨back, begun, isBack⟩ := appendLine_space (out.push ',') depth
    obtain ⟨text, written, next⟩ := Writes.field (appendPretty_denotes depth
      (appendString (appendLine (out.push ',') depth) name ++ ": ") value)
    obtain ⟨others, listed, more⟩ := appendPrettyFields_denotes depth (appendPretty depth
      (appendString (appendLine (out.push ',') depth) name ++ ": ") value) fields
    refine ⟨_, ?_, .cons isSpace_nil isBack next more⟩
    simp [appendPrettyFields, listed, written, begun]

end

/-- An indented text is one document. -/
theorem isDocument_pretty (json : Json) : IsDocument json json.pretty.toList := by
  obtain ⟨text, written, denotes⟩ := appendPretty_denotes 0 "" json
  have document := IsDocument.spaced isSpace_nil denotes isSpace_nil
  simpa [pretty, written] using document

end LoxSyntax.Json
