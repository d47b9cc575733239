import Metainfo.Entries
import Metainfo.Text.Hex

/-!
# JSON

Trees of JSON with integers as their only numbers, and their compact text: no spaces,
members in ascending order of their names, and in strings an escape for the double
quote, the backslash and the control characters below U+0020 only.
-/

namespace Metainfo

/-- A JSON tree.  The members of an object are kept in ascending order of their
names. -/
inductive Json where
  | number (value : Int)
  | string (text : String)
  | array (items : List Json)
  | object (members : List (String × Json))

namespace Json

/-- The form of one character in a string. -/
def escapedChar (char : Char) : List Char :=
  if char = '"' then ['\\', '"']
  else if char = '\\' then ['\\', '\\']
  else if char = '\x08' then ['\\', 'b']
  else if char = '\x0c' then ['\\', 'f']
  else if char = '\n' then ['\\', 'n']
  else if char = '\r' then ['\\', 'r']
  else if char = '\t' then ['\\', 't']
  else if char.toNat < 0x20 then
    ['\\', 'u', '0', '0', Hex.digit (char.toNat / 16), Hex.digit (char.toNat % 16)]
  else [char]

/-- A text as a JSON string, put in front of other characters. -/
def renderStringOnto (text : String) (rest : List Char) : List Char :=
  '"' :: (text.toList.flatMap escapedChar ++ '"' :: rest)

/-- An integer in decimal. -/
def renderNumber (value : Int) : List Char :=
  if value < 0 then '-' :: Nat.toDigits 10 value.natAbs
  else Nat.toDigits 10 value.natAbs

mutual

/-- The compact text of a tree, put in front of other characters. -/
def renderOnto : Json → List Char → List Char
  | .number value, rest => renderNumber value ++ rest
  | .string text, rest => renderStringOnto text rest
  | .array [], rest => '[' :: ']' :: rest
  | .array (item :: items), rest =>
      '[' :: item.renderOnto (renderItemsOnto items (']' :: rest))
  | .object [], rest => '\x7b' :: '\x7d' :: rest
  | .object ((name, value) :: members), rest =>
      '\x7b' :: renderStringOnto name
        (':' :: value.renderOnto (renderMembersOnto members ('\x7d' :: rest)))

/-- The items of an array after the first, each after a comma. -/
def renderItemsOnto : List Json → List Char → List Char
  | [], rest => rest
  | item :: items, rest => ',' :: item.renderOnto (renderItemsOnto items rest)

/-- The members of an object after the first, each after a comma. -/
def renderMembersOnto : List (String × Json) → List Char → List Char
  | [], rest => rest
  | (name, value) :: members, rest =>
      ',' :: renderStringOnto name
        (':' :: value.renderOnto (renderMembersOnto members rest))

end

/-- The compact text of a tree. -/
def render (json : Json) : List Char :=
  json.renderOnto []

mutual

theorem renderOnto_append : (json : Json) → (front rest : List Char) →
    json.renderOnto (front ++ rest) = json.renderOnto front ++ rest
  | .number value, front, rest => by simp [renderOnto]
  | .string text, front, rest => by simp [renderOnto, renderStringOnto]
  | .array [], front, rest => by simp [renderOnto]
  | .array (item :: items), front, rest => by
      simp only [renderOnto]
      rw [← List.cons_append, renderItemsOnto_append items (']' :: front) rest,
        renderOnto_append item, List.cons_append]
  | .object [], front, rest => by simp [renderOnto]
  | .object ((name, value) :: members), front, rest => by
      simp only [renderOnto, renderStringOnto]
      have inner := renderMembersOnto_append members ('\x7d' :: front) rest
      rw [List.cons_append] at inner
      rw [inner, renderOnto_append value]
      simp

theorem renderItemsOnto_append : (items : List Json) → (front rest : List Char) →
    renderItemsOnto items (front ++ rest) = renderItemsOnto items front ++ rest
  | [], front, rest => by simp [renderItemsOnto]
  | item :: items, front, rest => by
      simp only [renderItemsOnto]
      rw [renderItemsOnto_append items front rest, renderOnto_append item,
        List.cons_append]

theorem renderMembersOnto_append :
    (members : List (String × Json)) → (front rest : List Char) →
    renderMembersOnto members (front ++ rest) = renderMembersOnto members front ++ rest
  | [], front, rest => by simp [renderMembersOnto]
  | (name, value) :: members, front, rest => by
      simp only [renderMembersOnto, renderStringOnto]
      rw [renderMembersOnto_append members front rest, renderOnto_append value]
      simp

end

/-- What is put in front of other characters is the compact text. -/
theorem renderOnto_eq (json : Json) (rest : List Char) :
    json.renderOnto rest = json.render ++ rest := by
  rw [render, ← renderOnto_append, List.nil_append]

theorem renderItemsOnto_eq (items : List Json) (rest : List Char) :
    renderItemsOnto items rest =
      items.flatMap (fun item => ',' :: item.render) ++ rest := by
  induction items with
  | nil => rfl
  | cons item items ih => simp [renderItemsOnto, renderOnto_eq, ih]

/-- A text as a JSON string. -/
def renderString (text : String) : List Char :=
  renderStringOnto text []

theorem renderStringOnto_eq (text : String) (rest : List Char) :
    renderStringOnto text rest = renderString text ++ rest := by
  simp [renderString, renderStringOnto]

/-- A member of an object. -/
def renderMember (member : String × Json) : List Char :=
  renderString member.1 ++ ':' :: member.2.render

theorem renderMembersOnto_eq (members : List (String × Json)) (rest : List Char) :
    renderMembersOnto members rest =
      members.flatMap (fun member => ',' :: renderMember member) ++ rest := by
  induction members with
  | nil => rfl
  | cons member members ih =>
    simp [renderMembersOnto, renderMember, renderOnto_eq, renderStringOnto_eq, ih]

/-- Texts with commas between them are the first one and the others after a comma
each. -/
theorem intercalate_comma {Element : Type} (write : Element → List Char)
    (first : Element) (elements : List Element) :
    [','].intercalate ((first :: elements).map write) =
      write first ++ elements.flatMap (fun element => ',' :: write element) := by
  induction elements generalizing first with
  | nil => simp
  | cons next elements ih =>
    have tail := ih next
    rw [List.map_cons] at tail
    rw [List.map_cons, List.map_cons, List.intercalate_cons_cons, tail]
    simp

@[simp] theorem render_number (value : Int) :
    (number value).render = renderNumber value := by
  simp [render, renderOnto]

@[simp] theorem render_string (text : String) :
    (string text).render = renderString text := by
  simp [render, renderOnto, renderString]

/-- The text of an array has those of its items between brackets, with commas. -/
@[simp] theorem render_array (items : List Json) :
    (array items).render = '[' :: [','].intercalate (items.map render) ++ [']'] := by
  cases items with
  | nil => simp [render, renderOnto]
  | cons item items =>
    rw [intercalate_comma, render, renderOnto, renderOnto_eq, renderItemsOnto_eq]
    simp

/-- The text of an object has those of its members between braces, with commas. -/
@[simp] theorem render_object (members : List (String × Json)) :
    (object members).render =
      '\x7b' :: [','].intercalate (members.map renderMember) ++ ['\x7d'] := by
  cases members with
  | nil => simp [render, renderOnto]
  | cons member members =>
    rw [intercalate_comma, render, renderOnto, renderOnto_eq, renderMembersOnto_eq,
      renderStringOnto_eq, renderMember]
    simp

/-- The compact text of a tree as a string. -/
def text (json : Json) : String :=
  String.ofList json.render

end Json

end Metainfo
