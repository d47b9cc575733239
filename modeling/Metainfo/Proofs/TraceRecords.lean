import Metainfo.Proofs.Bencode.JsonView
import Metainfo.Proofs.SummaryRecords

/-!
# The record of the info dictionary

Once records of level `trace` are let through, one of them tells the info dictionary as
compact JSON.  Whatever octets a torrent holds, its names and strings are escaped there,
so they cannot begin a line that would pass for a record.  Main statement: the JSON view
of a value is one line that reads back as the view, and the record that tells an info
dictionary is one line too.
-/

namespace Metainfo

/-- No character lies below U+0020, where the marks of the ends of lines are. -/
def OneLine (chars : List Char) : Prop :=
  ∀ char ∈ chars, 0x20 ≤ char.toNat

instance (chars : List Char) : Decidable (OneLine chars) :=
  List.decidableBAll _ chars

@[simp] theorem oneLine_nil : OneLine [] :=
  nofun

@[simp] theorem oneLine_cons {char : Char} {chars : List Char} :
    OneLine (char :: chars) ↔ 0x20 ≤ char.toNat ∧ OneLine chars :=
  List.forall_mem_cons

@[simp] theorem oneLine_append {left right : List Char} :
    OneLine (left ++ right) ↔ OneLine left ∧ OneLine right :=
  List.forall_mem_append

theorem oneLine_flatMap {Element : Type} {write : Element → List Char}
    {elements : List Element} (each : ∀ element ∈ elements, OneLine (write element)) :
    OneLine (elements.flatMap write) := by
  intro char member
  obtain ⟨element, present, written⟩ := List.mem_flatMap.1 member
  exact each element present char written

theorem oneLine_intercalate {Element : Type} {write : Element → List Char}
    {elements : List Element} (each : ∀ element ∈ elements, OneLine (write element)) :
    OneLine ([','].intercalate (elements.map write)) := by
  cases elements with
  | nil => exact nofun
  | cons first elements =>
    obtain ⟨eachFirst, eachRest⟩ := List.forall_mem_cons.1 each
    rw [Json.intercalate_comma, oneLine_append]
    refine ⟨eachFirst, oneLine_flatMap fun element member => ?_⟩
    exact oneLine_cons.2 ⟨by decide, eachRest element member⟩

namespace Json

/-! ## Compact text -/

theorem oneLine_digit {nibble : Nat} (small : nibble < 16) :
    0x20 ≤ (Hex.digit nibble).toNat := by
  revert nibble
  decide

/-- What is not escaped is no control character, and what is escaped has none in its
form. -/
theorem oneLine_escapedChar (char : Char) : OneLine (escapedChar char) := by
  unfold escapedChar
  split_ifs with quote backslash backspace feed newline return_ tab control
  · simp
  · simp
  · simp
  · simp
  · simp
  · simp
  · simp
  · have high : 0x20 ≤ (Hex.digit (char.toNat / 16)).toNat := oneLine_digit (by omega)
    have low : 0x20 ≤ (Hex.digit (char.toNat % 16)).toNat := oneLine_digit (by omega)
    simp [high, low]
  · simpa using control

theorem oneLine_renderString (text : String) : OneLine (renderString text) := by
  have chars : OneLine (text.toList.flatMap escapedChar) :=
    oneLine_flatMap fun char _ => oneLine_escapedChar char
  simp [renderString, renderStringOnto, chars]

theorem oneLine_renderNumber (value : Int) : OneLine (renderNumber value) := by
  have digits : OneLine (Nat.toDigits 10 value.natAbs) := by
    intro char member
    have digit : char.isDigit = true :=
      Nat.isDigit_of_mem_toDigits (by decide) (by decide) member
    exact Nat.le_trans (by decide) (Char.isDigit_iff_toNat.1 digit).1
  rw [renderNumber]
  split
  · exact oneLine_cons.2 ⟨by decide, digits⟩
  · exact digits

theorem oneLine_renderMember {member : String × Json}
    (value : OneLine member.2.render) : OneLine (renderMember member) := by
  simp [renderMember, oneLine_renderString, value]

theorem Ordered.oneLine_render {json : Json} (ordered : json.Ordered) :
    OneLine json.render := by
  induction ordered with
  | number value => rw [render_number]; exact oneLine_renderNumber value
  | string text => rw [render_string]; exact oneLine_renderString text
  | array _ ih =>
    have items := oneLine_intercalate ih
    simp [items]
  | object _ _ ih =>
    have members :=
      oneLine_intercalate fun member present => oneLine_renderMember (ih member present)
    simp [members]

/-- Compact text is one line. -/
theorem Ordered.oneLine_text {json : Json} (ordered : json.Ordered) :
    OneLine json.text.toList := by
  rw [text, String.toList_ofList]
  exact ordered.oneLine_render

end Json

/-! ## The record -/

namespace Log

theorem indented_of_oneLine {indent chars : List Char} (line : OneLine chars) :
    Record.indented indent chars = chars := by
  have unchanged : ∀ char ∈ chars,
      (if char = '\n' then char :: indent else [char]) = [char] := by
    intro char member
    have above := line char member
    rw [if_neg]
    rintro rfl
    exact absurd above (by decide)
  rw [Record.indented, List.flatMap_congr unchanged, List.flatMap_singleton']

/-- Level and target stand on the line of the message. -/
theorem oneLine_text {record : Record} (target : OneLine record.target.toList)
    (message : OneLine record.message.toList) : OneLine record.text.toList := by
  have level : OneLine (record.level.name.toList.rightpad 5 ' ') := by
    cases record.level <;> decide
  simp only [Record.text, indented_of_oneLine message, String.toList_append,
    String.toList_ofList, oneLine_append]
  exact ⟨⟨⟨⟨⟨by decide, level⟩, by decide⟩, target⟩, by decide⟩, message⟩

end Log

namespace Hashing

open Bencode Log

variable {threshold : Threshold} {limits : Limits} {bytes : Bytes} {top : Value}
  {info : List (Bytes × Value)}

/-- The record that tells an info dictionary. -/
def traceLine (info : List (Bytes × Value)) : Record :=
  ⟨.trace, target, "info dictionary: " ++ (Value.dictionary info).toJson.text⟩

theorem oneLine_traceLine (info : List (Bytes × Value)) :
    OneLine (traceLine info).text.toList := by
  have heading : OneLine "info dictionary: ".toList := by decide
  have view := (Value.ordered_toJson (.dictionary info)).oneLine_text
  refine oneLine_text ?_ ?_
  · change OneLine target.toList
    decide
  · rw [traceLine, String.toList_append]
    exact oneLine_append.2 ⟨heading, view⟩

/-- The records of level `trace`. -/
def traced (records : List Record) : List Record :=
  records.filter fun record => record.level = .trace

theorem traced_append (records others : List Record) :
    traced (records ++ others) = traced records ++ traced others :=
  List.filter_append ..

theorem traced_emit {level : Level} (other : level ≠ .trace) (message : String) :
    traced (emit threshold level target message) = [] := by
  by_cases shown : threshold.allows level <;> simp [traced, emit, shown, other]

theorem traced_summaryRecords (threshold : Threshold) (top : Value) (hash : InfoHash) :
    traced (summaryRecords threshold top hash) = [] := by
  rw [traced, List.filter_eq_nil_iff]
  intro record member
  obtain ⟨-, ⟨_, -, _, -, rfl⟩ | ⟨_, -, rfl⟩⟩ := mem_summaryRecords.1 member
  · simp
  · simp

theorem traced_traceRecords (threshold : Threshold)
    (held : top.get? InfoHash.infoKey = some (.dictionary info)) :
    traced (traceRecords threshold top) =
      if threshold.allows .trace then [traceLine info] else [] := by
  have entries : InfoHash.infoEntries top = .ok info := by
    rw [InfoHash.infoEntries, held]
  rw [traceRecords_eq, entries]
  by_cases shown : threshold.allows .trace <;> simp [traced, emit, shown, traceLine]

/-- One record tells the info dictionary of a torrent, if records of level `trace` are
let through. -/
theorem traced_hashBytes (threshold : Threshold)
    (decoded : decode limits.maxDepth bytes = .ok top)
    (held : top.get? InfoHash.infoKey = some (.dictionary info)) :
    traced (hashBytes threshold limits bytes).records =
      if threshold.allows .trace then [traceLine info] else [] := by
  rw [records_of_ok (result_hashBytes threshold decoded held) decoded, traced_append,
    traced_append, traced_emit (by decide), traced_traceRecords threshold held,
    traced_summaryRecords]
  simp

theorem traced_of_error {error : Error}
    (failed : (hashBytes threshold limits bytes).result = .error error) :
    traced (hashBytes threshold limits bytes).records = [] := by
  rw [records_of_error failed]
  exact traced_emit (by decide) _

/-- What is told of a torrent at level `trace` is its info dictionary, in one record and
on one line. -/
structure TracesOneLine (threshold : Threshold) (limits : Limits) (bytes : Bytes) :
    Prop where
  once {top : Value} {info : List (Bytes × Value)} :
    decode limits.maxDepth bytes = .ok top →
    top.get? InfoHash.infoKey = some (.dictionary info) →
    traced (hashBytes threshold limits bytes).records =
      if threshold.allows .trace then [traceLine info] else []
  oneLine : ∀ record ∈ traced (hashBytes threshold limits bytes).records,
    OneLine record.text.toList

theorem tracesOneLine_hashBytes (threshold : Threshold) (limits : Limits)
    (bytes : Bytes) : TracesOneLine threshold limits bytes where
  once := traced_hashBytes threshold
  oneLine record member := by
    cases found : (hashBytes threshold limits bytes).result with
    | error error =>
      rw [traced_of_error found] at member
      cases member
    | ok hash =>
      obtain ⟨top, decoded, hashed⟩ := result_hashBytes_eq_ok.1 found
      obtain ⟨info, held, -⟩ := ofValue_eq_ok_iff.1 hashed
      rw [traced_hashBytes threshold decoded held] at member
      split at member
      · rw [List.mem_singleton.1 member]
        exact oneLine_traceLine info
      · cases member

/-- The JSON view shows every dictionary by the names to which its keys convert, of
several keys with one name the greatest.  Its compact text is one line and reads back as
the view, and so the record of an info dictionary is one line. -/
theorem toJson_in_one_line {value : Value} (ordered : value.Ordered) :
    (∀ entries, Value.Inside (.dictionary entries) value →
      ∃ members, (Value.dictionary entries).toJson = .object members ∧
        Value.Shows entries members) ∧
    OneLine value.toJson.text.toList ∧
    Json.ofText? value.toJson.text = some value.toJson ∧
    ∀ threshold limits bytes, TracesOneLine threshold limits bytes := by
  have viewOrdered := Value.ordered_toJson value
  refine ⟨?_, viewOrdered.oneLine_text, viewOrdered.ofText?_text,
    tracesOneLine_hashBytes⟩
  intro entries inside
  exact ordered.shows_of_inside inside

/-- An info dictionary with the ends of lines in a key and in a string, octets that are
no text, and keys beyond ASCII.  The last two of these convert to one name, which comes
before that of the first. -/
def forgedInfo : List (Bytes × Value) :=
  [(Bytes.ofString "a\n[ERROR", .ofString "\r\n\x1b"),
    (Bytes.ofString "b", .byteString [0x80]), ([0xF0, 0x90, 0x80, 0x80], .list []),
    ([0xFE], .ofNumber 1), ([0xFF], .ofNumber (2 ^ 63))]

/-- A torrent with this info dictionary. -/
def forged : Value :=
  .dictionary [(InfoHash.infoKey, .dictionary forgedInfo)]

theorem ordered_forged : forged.Ordered := by
  simp [forged, forgedInfo, Value.Ordered, Value.OrderedEntries, Value.OrderedItems,
    Entries.Ascending, Entries.keys, Value.ofNumber, Value.ofString]
  decide

theorem decode_forged : decode Limits.default.maxDepth forged.encode = .ok forged :=
  decode_encode_of_ordered ordered_forged (by decide) (by decide)

/-- The info dictionary is shown in one record on one line. -/
theorem toJson_forged :
    forged.Ordered ∧
    (Value.dictionary forgedInfo).toJson.text =
      "\x7b\"a\\n[ERROR\":\"\\r\\n\\u001b\",\"b\":\x7b\"_bytes_hex\":\"80\"\x7d," ++
        "\"\ufffd\":\"9223372036854775808\",\"𐀀\":[]\x7d" ∧
    (∃ members, (Value.dictionary forgedInfo).toJson = .object members ∧
      Value.Shows forgedInfo members) ∧
    OneLine forged.toJson.text.toList ∧
    Json.ofText? forged.toJson.text = some forged.toJson ∧
    traced (hashBytes (.upTo .trace) Limits.default forged.encode).records =
      [traceLine forgedInfo] ∧
    OneLine (traceLine forgedInfo).text.toList := by
  obtain ⟨shown, oneLine, readBack, traces⟩ := toJson_in_one_line ordered_forged
  have inside : Value.Inside (.dictionary forgedInfo) forged :=
    .entry (List.mem_singleton_self _) .self
  have traced :=
    (traces (.upTo .trace) Limits.default forged.encode).once decode_forged rfl
  have line :=
    (traces (.upTo .trace) Limits.default forged.encode).oneLine (traceLine forgedInfo)
  refine ⟨ordered_forged, by decide, shown forgedInfo inside, oneLine, readBack, traced,
    line ?_⟩
  rw [traced]
  exact List.mem_singleton_self _

end Hashing

end Metainfo
