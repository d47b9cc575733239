import Metainfo.Bencode.JsonView
import Metainfo.Proofs.Bencode.Arrangement
import Metainfo.Proofs.Bencode.Integers
import Metainfo.Proofs.Json.Reading
import Metainfo.Proofs.Utf8

/-!
# What the JSON view shows

The members that show a dictionary have the names to which its keys convert, and of the
entries whose keys convert to one name the last in the order of the keys is shown.  Main
statement: values whose integers are signed words and whose byte strings and keys are
UTF-8 are told apart by their compact JSON text.
-/

namespace Metainfo.Bencode.Value

/-! ## Members -/

/-- The member that shows an entry, unless a later one has the same name. -/
def memberOf (entry : Bytes × Value) : String × Json :=
  (Utf8.decodeLossy entry.1, entry.2.toJson)

theorem itemsToJson_eq (items : List Value) : itemsToJson items = items.map toJson := by
  induction items with
  | nil => rfl
  | cons item items ih => rw [itemsToJson, ih, List.map_cons]

theorem entriesToMembers_eq (entries : List (Bytes × Value))
    (done : List (String × Json)) :
    entriesToMembers entries done =
      (entries.map memberOf).foldl
        (fun done member => Entries.insert member.1 member.2 done) done := by
  induction entries generalizing done with
  | nil => rfl
  | cons entry entries ih => exact ih _

@[simp] theorem toJson_list (items : List Value) :
    (list items).toJson = .array (items.map toJson) := by
  rw [toJson, itemsToJson_eq]

@[simp] theorem toJson_dictionary (entries : List (Bytes × Value)) :
    (dictionary entries).toJson = .object (Entries.ofList (entries.map memberOf)) := by
  rw [toJson, entriesToMembers_eq, Entries.ofList]

/-- The view has the members of all objects in order. -/
theorem ordered_toJson (value : Value) : value.toJson.Ordered := by
  induction value using parts_induction with
  | byteString bytes =>
    rw [toJson, stringToJson]
    split
    · exact .string _
    · refine .object (List.pairwise_singleton ..) ?_
      intro member found
      rw [List.mem_singleton.1 found]
      exact .string _
  | integer number =>
    rw [toJson, integerToJson]
    split
    · exact .number _
    · exact .string _
  | list items ih =>
    rw [toJson_list]
    exact .array (List.forall_mem_map.2 ih)
  | dictionary entries ih =>
    rw [toJson_dictionary]
    refine .object (Entries.ascending_ofList _) ?_
    intro member found
    obtain ⟨entry, present, rfl⟩ := List.mem_map.1 (Entries.mem_of_mem_ofList found)
    exact ih entry present

/-- The names of the members are those to which the keys convert, each once and in the
order of their octets.  The member of a name shows the entry with the greatest of the
keys that convert to the name. -/
structure Shows (entries : List (Bytes × Value)) (members : List (String × Json)) :
    Prop where
  ascending : ((Entries.keys members).map Bytes.ofString).Pairwise (· < ·)
  names : ∀ name, name ∈ Entries.keys members ↔
    ∃ key ∈ Entries.keys entries, Utf8.decodeLossy key = name
  greatest : ∀ name json, (name, json) ∈ members ↔
    ∃ key value, (key, value) ∈ entries ∧ Utf8.decodeLossy key = name ∧
      value.toJson = json ∧
      ∀ other ∈ Entries.keys entries, Utf8.decodeLossy other = name → other ≤ key

/-- From the greatest key down, the first entry of a name has the greatest key of the
name. -/
theorem get?_map_memberOf_eq_some_iff {entries : List (Bytes × Value)}
    (descending : entries.Pairwise fun entry next => next.1 < entry.1) {name : String}
    {json : Json} :
    Entries.get? name (entries.map memberOf) = some json ↔
      ∃ key value, (key, value) ∈ entries ∧ Utf8.decodeLossy key = name ∧
        value.toJson = json ∧
        ∀ other ∈ Entries.keys entries, Utf8.decodeLossy other = name →
          other ≤ key := by
  induction entries with
  | nil => simp [Entries.get?]
  | cons first entries ih =>
    obtain ⟨below, descendingRest⟩ := List.pairwise_cons.1 descending
    rw [List.map_cons, memberOf, Entries.get?]
    split
    · rename_i isName
      constructor
      · intro found
        refine ⟨first.1, first.2, List.mem_cons_self, isName, Option.some.inj found, ?_⟩
        intro other member _
        rcases List.mem_cons.1 member with rfl | member
        · exact Std.le_refl first.1
        · obtain ⟨entry, present, rfl⟩ := List.mem_map.1 member
          exact Std.le_of_lt (below entry present)
      · rintro ⟨key, value, member, -, isJson, greatest⟩
        rcases List.mem_cons.1 member with rfl | member
        · rw [isJson]
        · have above := greatest first.1 List.mem_cons_self isName
          exact absurd (below _ member) (Std.not_lt.2 above)
    · rename_i otherName
      rw [ih descendingRest]
      constructor
      · rintro ⟨key, value, member, isName, isJson, greatest⟩
        refine ⟨key, value, List.mem_cons_of_mem first member, isName, isJson, ?_⟩
        intro other member sameName
        rcases List.mem_cons.1 member with rfl | member
        · exact absurd sameName otherName
        · exact greatest other member sameName
      · rintro ⟨key, value, member, isName, isJson, greatest⟩
        rcases List.mem_cons.1 member with rfl | member
        · exact absurd isName otherName
        · exact ⟨key, value, member, isName, isJson,
            fun other present => greatest other (List.mem_cons_of_mem _ present)⟩

/-- A dictionary is shown by the members of the object that is its view. -/
theorem shows_ofList {entries : List (Bytes × Value)}
    (ascending : Entries.Ascending entries) :
    Shows entries (Entries.ofList (entries.map memberOf)) where
  ascending := by
    rw [List.pairwise_map]
    exact (Entries.ascending_ofList (entries.map memberOf)).imp
      Utf8.ofString_lt_ofString_iff.2
  names name := by
    rw [Entries.mem_keys_ofList]
    simp [Entries.keys, memberOf]
  greatest name json := by
    have descending : entries.reverse.Pairwise fun entry next => next.1 < entry.1 :=
      List.pairwise_reverse.2 (List.pairwise_map.1 ascending)
    rw [← Entries.get?_eq_some_iff (Entries.ascending_ofList _).nodup,
      Entries.get?_ofList, ← List.map_reverse, get?_map_memberOf_eq_some_iff descending]
    simp [Entries.keys]

/-- The parts of a value are the value itself and the parts of what its lists and
dictionaries hold. -/
inductive Inside (part : Value) : Value → Prop where
  | self : Inside part part
  | item {items : List Value} {item : Value} : item ∈ items → Inside part item →
      Inside part (.list items)
  | entry {entries : List (Bytes × Value)} {entry : Bytes × Value} : entry ∈ entries →
      Inside part entry.2 → Inside part (.dictionary entries)

theorem Ordered.of_inside {part whole : Value} (ordered : whole.Ordered)
    (inside : Inside part whole) : part.Ordered := by
  induction inside with
  | self => exact ordered
  | item member _ ih => exact ih (orderedItems_iff.1 ordered _ member)
  | entry member _ ih => exact ih (orderedEntries_iff.1 ordered.2 _ member)

/-- The dictionaries in a value are shown at every level. -/
theorem Ordered.shows_of_inside {whole : Value} (ordered : whole.Ordered)
    {entries : List (Bytes × Value)} (inside : Inside (.dictionary entries) whole) :
    ∃ members, (dictionary entries).toJson = .object members ∧ Shows entries members :=
  ⟨_, toJson_dictionary entries, shows_ofList (ordered.of_inside inside).1⟩

/-! ## Clean values -/

/-- The octets are the UTF-8 form of a text. -/
def IsText (bytes : Bytes) : Prop :=
  ∃ text, Bytes.ofString text = bytes

/-- At every level, the integers are signed words and the byte strings and the keys are
UTF-8. -/
inductive Clean : Value → Prop where
  | byteString {bytes : Bytes} : IsText bytes → Clean (.byteString bytes)
  | integer {number : Integer} : -2 ^ 63 ≤ number.toInt ∧ number.toInt ≤ 2 ^ 63 - 1 →
      Clean (.integer number)
  | list {items : List Value} : (∀ item ∈ items, Clean item) → Clean (.list items)
  | dictionary {entries : List (Bytes × Value)} :
      (∀ key ∈ Entries.keys entries, IsText key) →
      (∀ entry ∈ entries, Clean entry.2) → Clean (.dictionary entries)

theorem toJson_ofString (text : String) :
    (byteString (Bytes.ofString text)).toJson = .string text := by
  rw [toJson, stringToJson, Utf8.decode?_eq_some_iff.2 rfl]

theorem toJson_integer_of_word {number : Integer}
    (word : -2 ^ 63 ≤ number.toInt ∧ number.toInt ≤ 2 ^ 63 - 1) :
    (integer number).toJson = .number number.toInt := by
  rw [toJson, integerToJson, Integer.toSigned?_eq, if_pos word]

/-- Keys that are UTF-8 keep their order in the view. -/
theorem toJson_dictionary_of_text {entries : List (Bytes × Value)}
    (ascending : Entries.Ascending entries)
    (texts : ∀ key ∈ Entries.keys entries, IsText key) :
    (dictionary entries).toJson = .object (entries.map memberOf) := by
  have kept : Entries.Ascending (entries.map memberOf) := by
    refine List.pairwise_map.2 (List.pairwise_map.2 ?_)
    refine (List.pairwise_map.1 ascending).imp_of_mem ?_
    intro entry next member nextMember less
    obtain ⟨text, form⟩ := texts entry.1 (List.mem_map_of_mem member)
    obtain ⟨nextText, nextForm⟩ := texts next.1 (List.mem_map_of_mem nextMember)
    rw [← form, ← nextForm, Utf8.ofString_lt_ofString_iff] at less
    simpa only [memberOf, ← form, ← nextForm, Utf8.decodeLossy_ofString] using less
  rw [toJson_dictionary, Entries.ofList_eq_of_perm (.refl _) kept]

theorem eq_of_decodeLossy_eq {key other : Bytes} (isText : IsText key)
    (otherText : IsText other) (same : Utf8.decodeLossy key = Utf8.decodeLossy other) :
    key = other := by
  obtain ⟨text, rfl⟩ := isText
  obtain ⟨next, rfl⟩ := otherText
  rw [Utf8.decodeLossy_ofString, Utf8.decodeLossy_ofString] at same
  rw [same]

/-- Lists with the same images are the same, if their elements are told apart by their
images. -/
theorem eq_of_map_eq {Element Image : Type} {convert : Element → Image}
    {left right : List Element}
    (apart : ∀ element ∈ left, ∀ other ∈ right, convert element = convert other →
      element = other)
    (same : left.map convert = right.map convert) : left = right := by
  induction left generalizing right with
  | nil => exact (List.map_eq_nil_iff.1 same.symm).symm
  | cons element left ih =>
    cases right with
    | nil => cases same
    | cons other right =>
      obtain ⟨sameFirst, sameRest⟩ := List.cons.inj same
      have first := apart element List.mem_cons_self other List.mem_cons_self sameFirst
      have rest := ih (fun element member other present => apart element
        (List.mem_cons_of_mem _ member) other (List.mem_cons_of_mem _ present)) sameRest
      rw [first, rest]

/-- The kind of the clean values that have a view. -/
def kindOfView : Json → Kind
  | .string _ => .byteString
  | .number _ => .integer
  | .array _ => .list
  | .object _ => .dictionary

theorem Clean.kindOfView_toJson {value : Value} (clean : value.Clean) :
    kindOfView value.toJson = value.kind := by
  cases clean with
  | byteString isText =>
    obtain ⟨text, rfl⟩ := isText
    rw [toJson_ofString]
    rfl
  | integer word =>
    rw [toJson_integer_of_word word]
    rfl
  | list =>
    rw [toJson_list]
    rfl
  | dictionary =>
    rw [toJson_dictionary]
    rfl

theorem Clean.kind_eq {left right : Value} (leftClean : left.Clean)
    (rightClean : right.Clean) (same : left.toJson = right.toJson) :
    left.kind = right.kind := by
  rw [← leftClean.kindOfView_toJson, same, rightClean.kindOfView_toJson]

/-- Clean values are told apart by their views. -/
theorem Clean.eq_of_toJson_eq {left right : Value} (leftClean : left.Clean)
    (rightClean : right.Clean) (leftOrdered : left.Ordered)
    (rightOrdered : right.Ordered) (same : left.toJson = right.toJson) :
    left = right := by
  induction leftClean generalizing right with
  | byteString isText =>
    have kind := Clean.kind_eq (.byteString isText) rightClean same
    cases rightClean with
    | byteString otherText =>
      obtain ⟨text, rfl⟩ := isText
      obtain ⟨other, rfl⟩ := otherText
      rw [toJson_ofString, toJson_ofString] at same
      rw [Json.string.inj same]
    | integer | list | dictionary => cases kind
  | integer word =>
    have kind := Clean.kind_eq (.integer word) rightClean same
    cases rightClean with
    | integer otherWord =>
      rw [toJson_integer_of_word word, toJson_integer_of_word otherWord] at same
      rw [Integer.toInt_injective (Json.number.inj same)]
    | byteString | list | dictionary => cases kind
  | @list items clean ih =>
    have kind := Clean.kind_eq (.list clean) rightClean same
    cases rightClean with
    | @list others othersClean =>
      rw [toJson_list, toJson_list] at same
      have ordered := orderedItems_iff.1 leftOrdered
      have othersOrdered := orderedItems_iff.1 rightOrdered
      have sameItems : items = others := by
        refine eq_of_map_eq ?_ (Json.array.inj same)
        intro item member other present sameItem
        exact ih item member (othersClean other present) (ordered item member)
          (othersOrdered other present) sameItem
      rw [sameItems]
    | byteString | integer | dictionary => cases kind
  | @dictionary entries texts clean ih =>
    have kind := Clean.kind_eq (.dictionary texts clean) rightClean same
    cases rightClean with
    | @dictionary others otherTexts othersClean =>
      rw [toJson_dictionary_of_text leftOrdered.1 texts,
        toJson_dictionary_of_text rightOrdered.1 otherTexts] at same
      have ordered := orderedEntries_iff.1 leftOrdered.2
      have othersOrdered := orderedEntries_iff.1 rightOrdered.2
      have sameEntries : entries = others := by
        refine eq_of_map_eq ?_ (Json.object.inj same)
        intro entry member other present sameMember
        obtain ⟨sameName, sameValue⟩ := Prod.mk.inj sameMember
        have sameKey :=
          eq_of_decodeLossy_eq (texts entry.1 (List.mem_map_of_mem member))
          (otherTexts other.1 (List.mem_map_of_mem present)) sameName
        have sameHeld :=
          ih entry member (othersClean other present) (ordered entry member)
          (othersOrdered other present) sameValue
        exact Prod.ext sameKey sameHeld
      rw [sameEntries]
    | byteString | integer | list => cases kind

/-- Clean values with the same compact JSON text are the same. -/
theorem eq_of_text_toJson_eq {left right : Value} (leftOrdered : left.Ordered)
    (rightOrdered : right.Ordered) (leftClean : left.Clean) (rightClean : right.Clean)
    (same : left.toJson.text = right.toJson.text) : left = right :=
  leftClean.eq_of_toJson_eq rightClean leftOrdered rightOrdered
    ((ordered_toJson left).eq_of_text_eq (ordered_toJson right) same)

/-- Two texts that are escaped, in a list with the least signed word. -/
def escapedItems : List Value :=
  [.integer (.ofInt (-2 ^ 63)), .byteString (Bytes.ofString "\"\n"),
    .byteString (Bytes.ofString "\x00é")]

/-- A dictionary with this list, a key beyond ASCII, and a dictionary in it that has an
empty key. -/
def mixedEntries : List (Bytes × Value) :=
  [(Bytes.ofString "a", .list escapedItems),
    (Bytes.ofString "é",
      .dictionary [(Bytes.ofString "", .byteString (Bytes.ofString ""))])]

theorem ordered_mixedEntries : (dictionary mixedEntries).Ordered := by
  simp [mixedEntries, escapedItems, Ordered, OrderedEntries, OrderedItems,
    Entries.Ascending, Entries.keys]
  decide

theorem isText_ofString (text : String) : IsText (Bytes.ofString text) :=
  ⟨text, rfl⟩

theorem clean_escapedItems : (list escapedItems).Clean := by
  refine .list ?_
  rw [escapedItems]
  simp only [List.forall_mem_cons]
  refine ⟨.integer ?_, .byteString (isText_ofString _), .byteString (isText_ofString _),
    List.forall_mem_nil _⟩
  rw [Integer.toInt_ofInt]
  decide

theorem clean_mixedEntries : (dictionary mixedEntries).Clean := by
  have inner :
      (dictionary [(Bytes.ofString "", .byteString (Bytes.ofString ""))]).Clean := by
    refine .dictionary ?_ ?_
    · simp only [Entries.keys, List.map_cons, List.map_nil, List.forall_mem_cons]
      exact ⟨isText_ofString _, List.forall_mem_nil _⟩
    · simp only [List.forall_mem_cons]
      exact ⟨.byteString (isText_ofString _), List.forall_mem_nil _⟩
  refine .dictionary ?_ ?_
  · simp only [mixedEntries, Entries.keys, List.map_cons, List.map_nil,
      List.forall_mem_cons]
    exact ⟨isText_ofString _, isText_ofString _, List.forall_mem_nil _⟩
  · simp only [mixedEntries, List.forall_mem_cons]
    exact ⟨clean_escapedItems, inner, List.forall_mem_nil _⟩

/-- Entries that come in another order make the same dictionary, as their text tells. -/
theorem text_toJson_mixedEntries :
    (dictionary mixedEntries).Ordered ∧ (dictionary mixedEntries).Clean ∧
    (dictionary (Entries.ofList mixedEntries.reverse)).Ordered ∧
    (dictionary (Entries.ofList mixedEntries.reverse)).Clean ∧
    (dictionary mixedEntries).toJson.text =
      (dictionary (Entries.ofList mixedEntries.reverse)).toJson.text ∧
    dictionary mixedEntries = dictionary (Entries.ofList mixedEntries.reverse) := by
  have same : (dictionary mixedEntries).toJson.text =
      (dictionary (Entries.ofList mixedEntries.reverse)).toJson.text := by decide
  have ordered : (dictionary (Entries.ofList mixedEntries.reverse)).Ordered :=
    ordered_mixedEntries
  have clean : (dictionary (Entries.ofList mixedEntries.reverse)).Clean :=
    clean_mixedEntries
  exact ⟨ordered_mixedEntries, clean_mixedEntries, ordered, clean, same,
    eq_of_text_toJson_eq ordered_mixedEntries ordered clean_mixedEntries clean same⟩

/-- An integer that is no signed word has the text of a byte string. -/
example : (integer (.ofInt (2 ^ 63))).toJson.text =
    (byteString (Bytes.ofString "9223372036854775808")).toJson.text := by
  decide

end Metainfo.Bencode.Value
