import Metainfo.Proofs.Torrent.Summary

/-!
# The first fault of a torrent

A torrent may be faulty in several places at once.  Here the checks of a torrent are
listed in their order.  Whether a check is passed depends on one value alone, not on the
checks before it.  Main statement: a torrent with an info-hash has the error of the
first check that it does not pass, whatever the later checks would say, and without an
info-hash it has the error of the info-hash.
-/

namespace Metainfo.Torrent

open Bencode

/-! ## Rules and checks -/

/-- What is asked of a value. -/
inductive Rule where
  | text
  | word
  | positive
  | signed
  | pieces
  | list
  | dictionary
  | component

/-- The values that obey a rule. -/
def Rule.Admits : Rule → Value → Prop
  | .text, value | .component, value => ∃ text, value = .ofString text
  | .word, value => ∃ number : Nat, value = .ofNumber number ∧ number < 2 ^ 64
  | .positive, value =>
      ∃ number : Nat, value = .ofNumber number ∧ 0 < number ∧ number < 2 ^ 64
  | .signed, value =>
      ∃ number : Int, value = .ofNumber number ∧ -2 ^ 63 ≤ number ∧ number < 2 ^ 63
  | .pieces, value => ∃ hashes, value = .byteString hashes ∧ 20 ∣ hashes.length
  | .list, value => ∃ items, value = .list items
  | .dictionary, value => ∃ entries, value = .dictionary entries

/-- What is wrong with a value that does not obey a rule. -/
def Rule.fault : Rule → Value → Fault
  | .text, .byteString _ => .notText
  | .text, _ => .notAByteString
  | .word, .integer number | .signed, .integer number => .outOfRange number
  | .positive, .integer number =>
      if number = .ofInt 0 then .notPositive else .outOfRange number
  | .word, _ | .signed, _ | .positive, _ => .notAnInteger
  | .pieces, .byteString hashes => .notWholePieces hashes.length
  | .pieces, _ => .notAByteString
  | .list, _ => .notAList
  | .dictionary, _ => .entryNotADictionary
  | .component, _ => .componentNotText

/-- A check of what is held under a key. -/
inductive Check where
  /-- A value is held, and it obeys a rule. -/
  | required (key : String) (held : Option Value) (rule : Rule)
  /-- The value that is held, or stands in the list that is held, obeys a rule. -/
  | valid (key : String) (value : Value) (rule : Rule)
  /-- A list is held as the path of a file. -/
  | path (held : Option Value)
  /-- The lengths of the files have a sum that fits 64 bits. -/
  | total (items : List Value)

namespace Check

/-- A check is passed. -/
def Passes : Check → Prop
  | .required _ held rule => ∃ value, held = some value ∧ rule.Admits value
  | .valid _ value rule => rule.Admits value
  | .path held => ∃ components, held = some (.list components)
  | .total items =>
      ∀ lengths, List.Forall₂ TellsOfFile items lengths → lengths.sum < 2 ^ 64

/-- The error of a check that is not passed. -/
def error : Check → Error
  | .required key none _ => .missing key
  | .required key (some value) rule | .valid key value rule =>
      .invalid key (rule.fault value)
  | .path _ => .missing "path"
  | .total _ => .invalid "files" .totalOverflows

end Check

/-! ## The checks in their order -/

/-- The checks of a field that may be absent. -/
def optionalChecks (key : String) (rule : Rule) : Option Value → List Check
  | none => []
  | some value => [.valid key value rule]

/-- The checks of the path of a file: that of the list, then those of its components. -/
def pathChecks (held : Option Value) : List Check :=
  .path held ::
    match held with
    | some (.list components) => components.map fun component =>
        .valid "path" component .component
    | _ => []

/-- The checks of an entry of `files`. -/
def fileChecks (item : Value) : List Check :=
  .valid "files" item .dictionary ::
    match item with
    | .dictionary entries =>
        .required "length" (Entries.get? (Bytes.ofString "length") entries) .word ::
          pathChecks (Entries.get? (Bytes.ofString "path") entries)
    | _ => []

/-- The checks of `files`: that of the list, those of its items one after the other,
then that of the sum. -/
def filesChecks (value : Value) : List Check :=
  .valid "files" value .list ::
    match value with
    | .list items => items.flatMap fileChecks ++ [.total items]
    | _ => []

/-- The checks of the content that an info dictionary tells of. -/
def contentChecks (entries : List (Bytes × Value)) : List Check :=
  match Entries.get? (Bytes.ofString "files") entries with
  | none => [.required "length" (Entries.get? (Bytes.ofString "length") entries) .word]
  | some value => filesChecks value

/-- The checks of an info dictionary. -/
def infoChecks (entries : List (Bytes × Value)) : List Check :=
  .required "name" (Entries.get? (Bytes.ofString "name") entries) .text ::
    .required "piece length"
      (Entries.get? (Bytes.ofString "piece length") entries) .positive ::
    .required "pieces" (Entries.get? (Bytes.ofString "pieces") entries) .pieces ::
    contentChecks entries

/-- The checks of a torrent with its top-level and its info dictionary. -/
def checks (entries info : List (Bytes × Value)) : List Check :=
  infoChecks info ++
    (optionalChecks "announce" .text
      (Entries.get? (Bytes.ofString "announce") entries) ++
      (optionalChecks "comment" .text
        (Entries.get? (Bytes.ofString "comment") entries) ++
        optionalChecks "creation date" .signed
          (Entries.get? (Bytes.ofString "creation date") entries)))

/-! ## The first that fails -/

section FirstFailing

variable {Item : Type} {passes : Item → Prop} {first second : List Item}
  {item other : Item}

/-- An item is the first of several that does not pass. -/
inductive FirstFailing (passes : Item → Prop) : List Item → Item → Prop where
  | here {item : Item} {later : List Item} :
      ¬passes item → FirstFailing passes (item :: later) item
  | later {first item : Item} {later : List Item} :
      passes first → FirstFailing passes later item →
      FirstFailing passes (first :: later) item

theorem FirstFailing.not_all (failing : FirstFailing passes first item) :
    ¬∀ item ∈ first, passes item := by
  induction failing with
  | here fails =>
    intro all
    exact fails (all _ List.mem_cons_self)
  | later _ _ ih =>
    intro all
    exact ih fun item member => all item (List.mem_cons_of_mem _ member)

theorem FirstFailing.mem (failing : FirstFailing passes first item) : item ∈ first := by
  induction failing with
  | here => exact List.mem_cons_self
  | later _ _ ih => exact List.mem_cons_of_mem _ ih

theorem FirstFailing.unique (failing : FirstFailing passes first item)
    (otherFailing : FirstFailing passes first other) : item = other := by
  induction failing with
  | here fails =>
    cases otherFailing with
    | here => rfl
    | later passes => exact absurd passes fails
  | later passes _ ih =>
    cases otherFailing with
    | here fails => exact absurd passes fails
    | later _ otherFailing => exact ih otherFailing

theorem firstFailing_cons_iff :
    FirstFailing passes (other :: first) item ↔
      ¬passes other ∧ item = other ∨ passes other ∧ FirstFailing passes first item := by
  constructor
  · intro failing
    cases failing with
    | here fails => exact .inl ⟨fails, rfl⟩
    | later passes failing => exact .inr ⟨passes, failing⟩
  · rintro (⟨fails, rfl⟩ | ⟨passes, failing⟩)
    · exact .here fails
    · exact .later passes failing

/-- The first that fails is among the first items, or these all pass. -/
theorem firstFailing_append_iff :
    FirstFailing passes (first ++ second) item ↔
      FirstFailing passes first item ∨
        (∀ item ∈ first, passes item) ∧ FirstFailing passes second item := by
  induction first with
  | nil => simpa using fun failing => nomatch failing
  | cons head first ih =>
    rw [List.cons_append, firstFailing_cons_iff, firstFailing_cons_iff, ih,
      List.forall_mem_cons]
    tauto

end FirstFailing

/-! ## Readings that are decided by checks -/

section Readings

variable {Result Other : Type} {first second : List Check} {check : Check}
  {error : Error} {outcome : Except Error Result}

/-- A reading succeeds if all checks are passed, and else has the error of the first
that is not. -/
inductive DecidedBy : List Check → Except Error Result → Prop where
  | ok {checks : List Check} {result : Result} :
      (∀ check ∈ checks, check.Passes) → DecidedBy checks (.ok result)
  | error {checks : List Check} {check : Check} :
      FirstFailing Check.Passes checks check → DecidedBy checks (.error check.error)

theorem DecidedBy.eq_error_iff (decided : DecidedBy first outcome) :
    outcome = .error error ↔
      ∃ check, FirstFailing Check.Passes first check ∧ error = check.error := by
  cases decided with
  | ok passes =>
    constructor
    · nofun
    · rintro ⟨check, failing, -⟩
      exact absurd passes failing.not_all
  | error failing =>
    constructor
    · intro same
      exact ⟨_, failing, (Except.error.inj same).symm⟩
    · rintro ⟨check, otherFailing, rfl⟩
      rw [failing.unique otherFailing]

theorem DecidedBy.isOk_iff (decided : DecidedBy first outcome) :
    (∃ result, outcome = .ok result) ↔ ∀ check ∈ first, check.Passes := by
  cases decided with
  | ok passes => simp only [Except.ok.injEq, exists_eq', true_iff]; exact passes
  | error failing => simpa using failing.not_all

/-- A reading that makes a single check. -/
theorem decidedBy_single (passes : check.Passes ↔ ∃ result, outcome = .ok result)
    (refused : ∀ error, outcome = .error error → error = check.error) :
    DecidedBy [check] outcome := by
  cases outcome with
  | ok result => exact .ok (List.forall_mem_singleton.2 (passes.2 ⟨result, rfl⟩))
  | error error =>
    obtain rfl := refused error rfl
    refine .error (.here ?_)
    rw [passes]
    nofun

/-- Of two readings the second one is made only if the first one succeeds. -/
theorem DecidedBy.bind {next : Result → Except Error Other}
    (decided : DecidedBy first outcome)
    (following : ∀ result, outcome = .ok result → DecidedBy second (next result)) :
    DecidedBy (first ++ second) (outcome >>= next) := by
  cases decided with
  | error failing => exact .error (firstFailing_append_iff.2 (.inl failing))
  | @ok result passes =>
    change DecidedBy (first ++ second) (next result)
    have rest := following result rfl
    generalize next result = further at rest
    cases rest with
    | ok others => exact .ok (List.forall_mem_append.2 ⟨passes, others⟩)
    | error failing => exact .error (firstFailing_append_iff.2 (.inr ⟨passes, failing⟩))

/-- A check that is passed does not decide. -/
theorem DecidedBy.cons (passes : check.Passes) (decided : DecidedBy first outcome) :
    DecidedBy (check :: first) outcome := by
  cases decided with
  | ok others => exact .ok (List.forall_mem_cons.2 ⟨passes, others⟩)
  | error failing => exact .error (.later passes failing)

/-- What is made of a result is not checked. -/
theorem DecidedBy.bind_ok {make : Result → Except Error Other}
    (decided : DecidedBy first outcome)
    (made : ∀ result, ∃ other, make result = .ok other) :
    DecidedBy first (outcome >>= make) := by
  rw [← List.append_nil first]
  apply decided.bind
  intro result _
  obtain ⟨other, same⟩ := made result
  rw [same]
  exact .ok (List.forall_mem_nil _)

/-- What is read item by item makes the checks of the items in their order. -/
theorem decidedBy_mapM {Item : Type} {checksOf : Item → List Check}
    {read : Item → Except Error Result}
    (each : ∀ item, DecidedBy (checksOf item) (read item)) (items : List Item) :
    DecidedBy (items.flatMap checksOf) (items.mapM read) := by
  induction items with
  | nil => exact .ok (List.forall_mem_nil _)
  | cons item items ih =>
    rw [List.flatMap_cons, List.mapM_cons]
    apply (each item).bind
    intro result _
    exact ih.bind_ok fun results => ⟨result :: results, rfl⟩

end Readings

/-! ## Why a field is not read -/

section Faults

variable {Result Other : Type} {entries : List (Bytes × Value)} {key : String}
  {error : Error}

theorem bind_eq_error_iff {first : Except Error Result}
    {next : Result → Except Error Other} :
    first >>= next = .error error ↔
      first = .error error ∨ ∃ between, first = .ok between ∧
      next between = .error error := by
  cases first with
  | error failure => simp [bind, Except.bind]
  | ok between => simp [bind, Except.bind]

theorem orInvalid_eq_error_iff {fault : Fault} {held : Option Result} :
    orInvalid key fault held = .error error ↔
      held = none ∧ error = .invalid key fault := by
  cases held <;> simp [orInvalid, eq_comm]

theorem field_eq_error_iff :
    field entries key = .error error ↔
      Entries.get? (Bytes.ofString key) entries = none ∧ error = .missing key := by
  rw [field]
  cases Entries.get? (Bytes.ofString key) entries <;> simp [eq_comm]

theorem bytesField_eq_error_iff :
    bytesField entries key = .error error ↔
      Entries.get? (Bytes.ofString key) entries = none ∧ error = .missing key ∨
        ∃ value, Entries.get? (Bytes.ofString key) entries = some value ∧
          value.bytes? = none ∧
          error = .invalid key .notAByteString := by
  rw [bytesField, bind_eq_error_iff]
  simp only [field_eq_error_iff, field_eq_ok_iff, orInvalid_eq_error_iff]

theorem integerField_eq_error_iff :
    integerField entries key = .error error ↔
      Entries.get? (Bytes.ofString key) entries = none ∧ error = .missing key ∨
        ∃ value, Entries.get? (Bytes.ofString key) entries = some value ∧
          value.integer? = none ∧
          error = .invalid key .notAnInteger := by
  rw [integerField, bind_eq_error_iff]
  simp only [field_eq_error_iff, field_eq_ok_iff, orInvalid_eq_error_iff]

theorem wordField_eq_error_iff :
    wordField entries key = .error error ↔
      integerField entries key = .error error ∨
        ∃ number, Entries.get? (Bytes.ofString key) entries = some (.integer number) ∧
          number.toWord? = none ∧ error = .invalid key (.outOfRange number) := by
  rw [wordField, bind_eq_error_iff]
  simp only [integerField_eq_ok_iff, orInvalid_eq_error_iff]

end Faults

namespace Rule

variable {value : Value}

theorem fault_of_bytes? (other : value.bytes? = none) :
    text.fault value = .notAByteString ∧ pieces.fault value = .notAByteString := by
  cases value with
  | byteString bytes => cases other
  | _ => exact ⟨rfl, rfl⟩

theorem fault_of_integer? (other : value.integer? = none) :
    word.fault value = .notAnInteger ∧ positive.fault value = .notAnInteger ∧
      signed.fault value = .notAnInteger := by
  cases value with
  | integer number => cases other
  | _ => exact ⟨rfl, rfl, rfl⟩

end Rule

/-! ## What the readers check -/

section Readers

variable {entries : List (Bytes × Value)} {key : String} {value : Value}

theorem exists_held_iff {Result : Type} {stands : Result → Value}
    {within : Result → Prop} {held : Option Value} :
    (∃ value, held = some value ∧ ∃ result, value = stands result ∧ within result) ↔
      ∃ result, held = some (stands result) ∧ within result := by
  constructor
  · rintro ⟨_, holds, result, rfl, fits⟩
    exact ⟨result, holds, fits⟩
  · rintro ⟨result, holds, fits⟩
    exact ⟨_, holds, result, rfl, fits⟩

theorem decidedBy_textField :
    DecidedBy [.required key (Entries.get? (Bytes.ofString key) entries) .text]
      (textField entries key) := by
  apply decidedBy_single
  · have text := @exists_held_iff String .ofString (fun _ => True)
    simpa only [textField_eq_ok_iff, Check.Passes, Rule.Admits, and_true] using text
  · intro error refused
    rw [textField, bind_eq_error_iff, bytesField_eq_error_iff] at refused
    simp only [bytesField_eq_ok_iff, orInvalid_eq_error_iff] at refused
    rcases refused with (⟨held, rfl⟩ | ⟨value, held, other, rfl⟩) |
      ⟨bytes, held, -, rfl⟩
    · rw [held, Check.error]
    · rw [held, Check.error, (Rule.fault_of_bytes? other).1]
    · rw [held, Check.error, Rule.fault]

theorem decidedBy_wordField :
    DecidedBy [.required key (Entries.get? (Bytes.ofString key) entries) .word]
      (wordField entries key) := by
  apply decidedBy_single
  · simp only [wordField_eq_ok_iff, Check.Passes, Rule.Admits, le_maxWord_iff,
      exists_held_iff]
  · intro error refused
    rw [wordField_eq_error_iff, integerField_eq_error_iff] at refused
    rcases refused with (⟨held, rfl⟩ | ⟨value, held, other, rfl⟩) |
      ⟨number, held, -, rfl⟩
    · rw [held, Check.error]
    · rw [held, Check.error, (Rule.fault_of_integer? other).1]
    · rw [held, Check.error, Rule.fault]

theorem decidedBy_signedField :
    DecidedBy [.required key (Entries.get? (Bytes.ofString key) entries) .signed]
      (signedField entries key) := by
  apply decidedBy_single
  · simp only [signedField_eq_ok_iff, Check.Passes, Rule.Admits, signed_range_iff,
      exists_held_iff]
  · intro error refused
    rw [signedField, bind_eq_error_iff, integerField_eq_error_iff] at refused
    simp only [integerField_eq_ok_iff, orInvalid_eq_error_iff] at refused
    rcases refused with (⟨held, rfl⟩ | ⟨value, held, other, rfl⟩) |
      ⟨number, held, -, rfl⟩
    · rw [held, Check.error]
    · rw [held, Check.error, (Rule.fault_of_integer? other).2.2]
    · rw [held, Check.error, Rule.fault]

theorem decidedBy_pieceLengthOf :
    DecidedBy
      [.required "piece length"
        (Entries.get? (Bytes.ofString "piece length") entries) .positive]
      (pieceLengthOf entries) := by
  apply decidedBy_single
  · simp only [pieceLengthOf_eq_ok_iff, Check.Passes, Rule.Admits, le_maxWord_iff,
      exists_held_iff]
  · intro error refused
    rw [pieceLengthOf, bind_eq_error_iff, wordField_eq_error_iff,
      integerField_eq_error_iff] at refused
    simp only [wordField_eq_ok_iff] at refused
    rcases refused with
      ((⟨held, rfl⟩ | ⟨value, held, other, rfl⟩) | ⟨number, held, large, rfl⟩) |
      ⟨length, ⟨held, -⟩, zero⟩
    · rw [held, Check.error]
    · rw [held, Check.error, (Rule.fault_of_integer? other).2.1]
    · have positive : number ≠ .ofInt 0 := by
        rintro rfl
        cases large
      rw [held, Check.error, Rule.fault, if_neg positive]
    · split at zero
      · next isZero =>
        cases zero
        rw [held, isZero]
        rfl
      · cases zero

theorem decidedBy_piecesOf :
    DecidedBy
      [.required "pieces" (Entries.get? (Bytes.ofString "pieces") entries) .pieces]
      (piecesOf entries) := by
  apply decidedBy_single
  · simp only [piecesOf_eq_ok_iff, Check.Passes, Rule.Admits, exists_held_iff]
    constructor
    · rintro ⟨hashes, held, count, isMultiple⟩
      obtain ⟨pieces, rfl, whole⟩ := Bytes.exists_pieces count hashes isMultiple
      exact ⟨pieces, held, whole⟩
    · rintro ⟨pieces, held, whole⟩
      exact ⟨_, held, _, Bytes.length_flatten whole⟩
  · intro error refused
    rw [piecesOf, bind_eq_error_iff, bytesField_eq_error_iff] at refused
    simp only [bytesField_eq_ok_iff] at refused
    rcases refused with (⟨held, rfl⟩ | ⟨value, held, other, rfl⟩) | ⟨hashes, held, rest⟩
    · rw [held, Check.error]
    · rw [held, Check.error, (Rule.fault_of_bytes? other).2]
    · split at rest
      · cases rest
        rw [held, Check.error, Rule.fault]
      · cases rest

theorem decidedBy_componentOf (value : Value) :
    DecidedBy [.valid "path" value .component] (componentOf value) := by
  apply decidedBy_single
  · simp only [componentOf_eq_ok_iff, Check.Passes, Rule.Admits]
  · intro error refused
    exact (orInvalid_eq_error_iff.1 refused).2

/-- An optional field is checked as a required one if it is present, and else not at
all. -/
theorem decidedBy_optional {Result : Type} {rule : Rule}
    {read : List (Bytes × Value) → String → Except Error Result}
    (decided :
      DecidedBy [.required key (Entries.get? (Bytes.ofString key) entries) rule]
      (read entries key)) :
    DecidedBy (optionalChecks key rule (Entries.get? (Bytes.ofString key) entries))
      (optional read entries key) := by
  rw [optional]
  cases held : Entries.get? (Bytes.ofString key) entries with
  | none => exact .ok (List.forall_mem_nil _)
  | some value =>
    have same : (Check.required key (some value) rule).Passes ↔ rule.Admits value := by
      simp [Check.Passes]
    rw [held] at decided
    change DecidedBy [.valid key value rule] ((read entries key).map some)
    generalize read entries key = outcome at decided
    cases decided with
    | ok passes =>
      rw [List.forall_mem_singleton, same] at passes
      exact .ok (List.forall_mem_singleton.2 passes)
    | error failing =>
      cases failing with
      | here fails =>
        rw [same] at fails
        change DecidedBy [.valid key value rule]
          (.error (Check.valid key value rule).error)
        exact .error (.here fails)
      | later _ failing => cases failing

theorem decidedBy_pathOf :
    DecidedBy (pathChecks (Entries.get? (Bytes.ofString "path") entries))
      (pathOf entries) := by
  rw [pathOf]
  cases Entries.get? (Bytes.ofString "path") entries with
  | none => exact .error (.here (by simp [Check.Passes]))
  | some value =>
    cases value with
    | list components =>
      rw [pathChecks, List.map_eq_flatMap]
      exact (decidedBy_mapM decidedBy_componentOf components).cons ⟨components, rfl⟩
    | byteString | integer | dictionary => exact .error (.here (by simp [Check.Passes]))

theorem decidedBy_fileOf (value : Value) :
    DecidedBy (fileChecks value) (fileOf value) := by
  cases value with
  | dictionary entries =>
    have passes : (Check.valid "files" (.dictionary entries) .dictionary).Passes :=
      ⟨entries, rfl⟩
    apply DecidedBy.cons passes
    apply decidedBy_wordField.bind
    intro length _
    exact decidedBy_pathOf.bind_ok fun path => ⟨⟨length, path⟩, rfl⟩
  | byteString | integer | list =>
    exact .error (.here (by simp [Check.Passes, Rule.Admits]))

theorem decidedBy_total {items : List Value} {files : List FileEntry}
    (read : items.mapM fileOf = .ok files) :
    DecidedBy [.total items]
      (orInvalid "files" .totalOverflows (totalLength files)) := by
  apply decidedBy_single
  · simp only [Check.Passes, forall₂_tellsOfFile_iff, orInvalid_eq_ok_iff,
      totalLength_eq_some_iff, le_maxWord_iff, read]
    constructor
    · intro fits
      exact ⟨_, rfl, fits _ ⟨files, rfl, rfl⟩⟩
    · rintro ⟨_, rfl, fits⟩ _ ⟨_, same, rfl⟩
      cases same
      exact fits
  · intro error refused
    exact (orInvalid_eq_error_iff.1 refused).2

theorem decidedBy_contentOf :
    DecidedBy (contentChecks entries) (contentOf entries) := by
  rw [contentChecks, contentOf]
  cases Entries.get? (Bytes.ofString "files") entries with
  | none => exact decidedBy_wordField.bind_ok fun length => ⟨(length, []), rfl⟩
  | some value =>
    cases value with
    | list items =>
      have passes : (Check.valid "files" (.list items) .list).Passes := ⟨items, rfl⟩
      apply DecidedBy.cons passes
      apply (decidedBy_mapM decidedBy_fileOf items).bind
      intro files read
      exact (decidedBy_total read).bind_ok fun total => ⟨(total, files), rfl⟩
    | byteString | integer | dictionary =>
      exact .error (.here (by simp [Check.Passes, Rule.Admits]))

theorem Info.decidedBy_ofEntries :
    DecidedBy (infoChecks entries) (ofEntries entries) := by
  apply decidedBy_textField.bind
  intro name _
  apply decidedBy_pieceLengthOf.bind
  intro pieceLength _
  apply decidedBy_piecesOf.bind
  intro pieces _
  exact decidedBy_contentOf.bind_ok fun content =>
    ⟨⟨name, content.1, pieceLength, pieces, content.2⟩, rfl⟩

/-- A torrent with an info dictionary is decided by its checks. -/
theorem decidedBy_ofValue {info : List (Bytes × Value)}
    (held : Entries.get? InfoHash.infoKey entries = some (.dictionary info)) :
    DecidedBy (checks entries info) (ofValue (.dictionary entries)) := by
  have found : InfoHash.infoEntries (.dictionary entries) = .ok info :=
    infoEntries_eq_ok_iff.2 ⟨entries, rfl, held⟩
  rw [ofValue, found]
  apply Info.decidedBy_ofEntries.bind
  intro info _
  apply (decidedBy_optional decidedBy_textField).bind
  intro announce _
  apply (decidedBy_optional decidedBy_textField).bind
  intro comment _
  exact (decidedBy_optional decidedBy_signedField).bind_ok fun date =>
    ⟨⟨announce, comment, date, info⟩, rfl⟩

end Readers

/-! ## The error of a torrent -/

theorem Check.error_ne_infoHash (check : Check) (error : InfoHash.Error) :
    check.error ≠ .infoHash error := by
  cases check with
  | required key held rule => cases held <;> nofun
  | valid | path | total => nofun

theorem infoHash_eq_error_iff {top : Value} {error : InfoHash.Error} :
    InfoHash.ofValue top = .error error ↔ InfoHash.infoEntries top = .error error := by
  rw [InfoHash.ofValue, InfoHash.infoBytes]
  cases InfoHash.infoEntries top <;> simp [Except.map]

/-- A torrent without an info-hash has no summary for the same reason. -/
theorem ofValue_of_infoEntries {top : Value} {failure : InfoHash.Error}
    (failed : InfoHash.infoEntries top = .error failure) :
    ofValue top = .error (.infoHash failure) := by
  rw [ofValue, failed]
  rfl

/-- Without an info-hash a torrent has no summary either, for the same reason.  With
one, it has the error of the first of its checks that is not passed, whatever comes
after that check. -/
theorem ofValue_fails_first (top : Value) :
    (∀ error, ofValue top = .error (.infoHash error) ↔
      InfoHash.ofValue top = .error error) ∧
    ∀ hash, InfoHash.ofValue top = .ok hash →
      ∃ entries info, top = .dictionary entries ∧
        Entries.get? InfoHash.infoKey entries = some (.dictionary info) ∧
        ∀ error, ofValue top = .error error ↔
          ∃ check, FirstFailing Check.Passes (checks entries info) check ∧
            error = check.error := by
  simp only [infoHash_eq_error_iff]
  cases found : InfoHash.infoEntries top with
  | error failure =>
    constructor
    · intro error
      rw [ofValue_of_infoEntries found, Except.error.injEq, Error.infoHash.injEq,
        Except.error.injEq]
    · intro hash hashed
      rw [infoHash_eq_error_iff.2 found] at hashed
      cases hashed
  | ok info =>
    obtain ⟨entries, rfl, held⟩ := infoEntries_eq_ok_iff.1 found
    have decided := decidedBy_ofValue held
    constructor
    · intro error
      constructor
      · intro failed
        obtain ⟨check, -, same⟩ := decided.eq_error_iff.1 failed
        exact absurd same.symm (check.error_ne_infoHash error)
      · nofun
    · intro hash _
      exact ⟨entries, info, rfl, held, fun error => decided.eq_error_iff⟩

/-- A file as it should be. -/
def soundFile : Value :=
  .dictionary (fileEntries ⟨7, ["disc", "b"]⟩)

/-- A file with a length that is no integer and a path of which a part is no text. -/
def faultyFile : Value :=
  .dictionary [(Bytes.ofString "length", .ofString "5"),
    (Bytes.ofString "path", .list [.list []])]

/-- The check of its length. -/
def faultyLength : Check :=
  .required "length" (some (.ofString "5")) .word

/-- An info dictionary of these files and of one that is no dictionary. -/
def muddledInfo : List (Bytes × Value) :=
  [(Bytes.ofString "files", .list [soundFile, faultyFile, .list []]),
    (Bytes.ofString "name", .ofString "album"),
    (Bytes.ofString "piece length", .ofNumber 16),
    (Bytes.ofString "pieces", .ofString "aaaaaaaaaaaaaaaaaaaa")]

/-- A torrent of this content with a comment that is no text. -/
def muddled : List (Bytes × Value) :=
  [(Bytes.ofString "comment", .byteString [0xFF]),
    (InfoHash.infoKey, .dictionary muddledInfo)]

theorem firstFailing_muddledInfo :
    FirstFailing Check.Passes (infoChecks muddledInfo) faultyLength := by
  have name : (Check.required "name" (some (.ofString "album")) .text).Passes :=
    ⟨_, rfl, _, rfl⟩
  have pieceLength :
      (Check.required "piece length" (some (.ofNumber 16)) .positive).Passes :=
    ⟨_, rfl, 16, rfl, by decide, by decide⟩
  have pieces :
      (Check.required "pieces"
        (some (.ofString "aaaaaaaaaaaaaaaaaaaa")) .pieces).Passes :=
    ⟨_, rfl, _, rfl, by decide⟩
  have list :
      (Check.valid "files" (.list [soundFile, faultyFile, .list []]) .list).Passes :=
    ⟨_, rfl⟩
  have sound : ∀ check ∈ fileChecks soundFile, check.Passes :=
    (decidedBy_fileOf soundFile).isOk_iff.1 ⟨⟨7, ["disc", "b"]⟩, rfl⟩
  have length : ¬faultyLength.Passes := by
    rintro ⟨_, same, number, rfl, -⟩
    cases same
  have faulty : FirstFailing Check.Passes (fileChecks faultyFile) faultyLength :=
    .later ⟨_, rfl⟩ (.here length)
  have files :
      FirstFailing Check.Passes ([soundFile, faultyFile, .list []].flatMap fileChecks)
      faultyLength :=
    firstFailing_append_iff.2 (.inr ⟨sound, firstFailing_append_iff.2 (.inl faulty)⟩)
  have content : FirstFailing Check.Passes (contentChecks muddledInfo) faultyLength :=
    .later list (firstFailing_append_iff.2 (.inl files))
  exact .later name (.later pieceLength (.later pieces content))

theorem firstFailing_muddled :
    FirstFailing Check.Passes (checks muddled muddledInfo) faultyLength :=
  firstFailing_append_iff.2 (.inl firstFailing_muddledInfo)

/-- Of its faults the length of the second file comes first. -/
theorem ofValue_muddled :
    (∃ hash, InfoHash.ofValue (.dictionary muddled) = .ok hash) ∧
      ofValue (.dictionary muddled) = .error (.invalid "length" .notAnInteger) := by
  have hashed : InfoHash.ofValue (.dictionary muddled) =
      .ok ⟨Sha1.digest (Value.encode _)⟩ := rfl
  obtain ⟨entries, info, same, held, fails⟩ :=
    (ofValue_fails_first (.dictionary muddled)).2 _ hashed
  cases same
  have same : some (Value.dictionary muddledInfo) = some (.dictionary info) := held
  cases same
  exact ⟨⟨_, hashed⟩, (fails _).2 ⟨faultyLength, firstFailing_muddled, rfl⟩⟩

end Metainfo.Torrent
