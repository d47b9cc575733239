import Metainfo.Proofs.Torrent.Checks

/-!
# Absent fields and faulty ones

An error names a key.  It ought to tell whether the dictionary in which the key is
looked up has an entry under it: a missing field is absent, an invalid one is there.
Main statement: it does, unless the path of a file is there and no list, which is the
first fault of the torrent and is reported as missing.
-/

namespace Metainfo.Torrent

open Bencode

/-! ## Where a key is looked up -/

/-- A value tells of a file. -/
def IsFile (item : Value) : Prop :=
  ∃ length, TellsOfFile item length

/-- The dictionary in which a key is looked up for the content: the info dictionary, or
among the entries of `files` the first that does not tell of a file. -/
inductive Info.Searches (info : List (Bytes × Value)) (key : String) :
    List (Bytes × Value) → Prop where
  | own : key ∈ ["name", "piece length", "pieces", "files"] → Searches info key info
  | length :
      key = "length" → Entries.get? (Bytes.ofString "files") info = none →
      Searches info key info
  | file {items : List Value} {file : List (Bytes × Value)} :
      key ∈ ["length", "path"] →
      Entries.get? (Bytes.ofString "files") info = some (.list items) →
      FirstFailing IsFile items (.dictionary file) → Searches info key file

/-- The dictionary in which a key is looked up for the summary: the top-level
dictionary, or where the key belongs to the content, the one for that. -/
inductive Searches : Value → String → List (Bytes × Value) → Prop where
  | own {entries : List (Bytes × Value)} {key : String} :
      key ∈ ["announce", "comment", "creation date"] →
      Searches (.dictionary entries) key entries
  | info {entries info place : List (Bytes × Value)} {key : String} :
      Entries.get? InfoHash.infoKey entries = some (.dictionary info) →
      Info.Searches info key place → Searches (.dictionary entries) key place

/-- A missing field is absent where it is looked up, and an invalid one is there. -/
def Error.TellsPresence (searches : String → List (Bytes × Value) → Prop) : Error → Prop
  | .missing key =>
      ∃ place, searches key place ∧ Entries.get? (Bytes.ofString key) place = none
  | .invalid key _ =>
      ∃ place value, searches key place ∧
        Entries.get? (Bytes.ofString key) place = some value
  | .infoHash _ => True

/-- The first fault is a path that is held but is no list. -/
def PathNoList (checks : List Check) : Prop :=
  ∃ value, FirstFailing Check.Passes checks (.path (some value))

variable {entries info place other : List (Bytes × Value)} {key : String}
  {check : Check} {error : Error} {top : Value}

/-- A key is looked up in one dictionary only. -/
theorem Info.Searches.unique (searches : Info.Searches info key place)
    (otherSearches : Info.Searches info key other) : place = other := by
  cases searches with
  | own own =>
    cases otherSearches with
    | own | length => rfl
    | file file =>
      simp only [List.mem_cons, List.not_mem_nil, or_false] at own file
      rcases file with rfl | rfl <;> simp at own
  | length isLength absent =>
    cases otherSearches with
    | own | length => rfl
    | file _ held _ =>
      rw [absent] at held
      cases held
  | file file held failing =>
    cases otherSearches with
    | own own =>
      simp only [List.mem_cons, List.not_mem_nil, or_false] at own file
      rcases file with rfl | rfl <;> simp at own
    | length _ absent =>
      rw [absent] at held
      cases held
    | file _ otherHeld otherFailing =>
      rw [held] at otherHeld
      cases otherHeld
      cases failing.unique otherFailing
      rfl

theorem Info.Searches.not_mem (searches : Info.Searches info key place) :
    key ∉ ["announce", "comment", "creation date"] := by
  cases searches with
  | own own =>
    simp only [List.mem_cons, List.not_mem_nil, or_false] at own
    rcases own with rfl | rfl | rfl | rfl <;> decide
  | length isLength =>
    rw [isLength]
    decide
  | file file =>
    simp only [List.mem_cons, List.not_mem_nil, or_false] at file
    rcases file with rfl | rfl <;> decide

theorem Searches.unique (searches : Searches top key place)
    (otherSearches : Searches top key other) : place = other := by
  cases searches with
  | own own =>
    cases otherSearches with
    | own => rfl
    | info _ inside => exact absurd own inside.not_mem
  | info held inside =>
    cases otherSearches with
    | own own => exact absurd own inside.not_mem
    | info otherHeld otherInside =>
      rw [held] at otherHeld
      cases otherHeld
      exact inside.unique otherInside

/-! ## What a check is about -/

/-- A check is about what a dictionary holds under a key. -/
inductive Check.Concerns (place : List (Bytes × Value)) : Check → String → Prop where
  | required {key : String} {rule : Rule} :
      Concerns place (.required key (Entries.get? (Bytes.ofString key) place) rule) key
  | valid {key : String} {held value : Value} {rule : Rule} :
      Entries.get? (Bytes.ofString key) place = some held →
      Concerns place (.valid key value rule) key
  | path : Concerns place (.path (Entries.get? (Bytes.ofString "path") place)) "path"
  | total {held : Value} {items : List Value} :
      Entries.get? (Bytes.ofString "files") place = some held →
      Concerns place (.total items) "files"

/-- Apart from a path that is held but is no list, a check has an error that tells
presence. -/
theorem Check.Concerns.tellsPresence {searches : String → List (Bytes × Value) → Prop}
    (concerns : check.Concerns place key) (searched : searches key place)
    (sound : ∀ value, check ≠ .path (some value)) :
    check.error.TellsPresence searches := by
  cases concerns with
  | required =>
    cases held : Entries.get? (Bytes.ofString key) place with
    | none => exact ⟨place, searched, held⟩
    | some value => exact ⟨place, value, searched, held⟩
  | valid held => exact ⟨place, _, searched, held⟩
  | path =>
    cases held : Entries.get? (Bytes.ofString "path") place with
    | none => exact ⟨place, searched, held⟩
    | some value => exact absurd (congrArg Check.path held) (sound value)
  | total held => exact ⟨place, _, searched, held⟩

theorem isFile_iff {item : Value} :
    IsFile item ↔ ∀ check ∈ fileChecks item, check.Passes := by
  rw [← (decidedBy_fileOf item).isOk_iff]
  simp only [IsFile, tellsOfFile_iff]
  constructor
  · rintro ⟨_, file, read, -⟩
    exact ⟨file, read⟩
  · rintro ⟨file, read⟩
    exact ⟨_, file, read, rfl⟩

/-- The first failing check of several files is one of the first that is no file. -/
theorem exists_firstFailing_file {items : List Value}
    (failing : FirstFailing Check.Passes (items.flatMap fileChecks) check) :
    ∃ item, FirstFailing IsFile items item ∧ check ∈ fileChecks item := by
  induction items with
  | nil => cases failing
  | cons item items ih =>
    rw [List.flatMap_cons, firstFailing_append_iff] at failing
    rcases failing with failing | ⟨passes, failing⟩
    · have faulty : ¬IsFile item := fun isFile => failing.not_all (isFile_iff.1 isFile)
      exact ⟨item, .here faulty, failing.mem⟩
    · obtain ⟨faulty, first, member⟩ := ih failing
      exact ⟨faulty, .later (isFile_iff.2 passes) first, member⟩

theorem concerns_of_mem_pathChecks
    (member : check ∈ pathChecks (Entries.get? (Bytes.ofString "path") place)) :
    check.Concerns place "path" := by
  rcases List.mem_cons.1 member with rfl | member
  · exact .path
  · split at member
    · next components held =>
      obtain ⟨component, -, rfl⟩ := List.mem_map.1 member
      exact .valid held
    · cases member

/-- A check of an entry of `files` is about the entry or, as to its kind, about
`files`. -/
theorem concerns_of_mem_fileChecks {item held : Value}
    (member : check ∈ fileChecks item)
    (files : Entries.get? (Bytes.ofString "files") info = some held) :
    check.Concerns info "files" ∨
      ∃ file key, item = .dictionary file ∧ key ∈ ["length", "path"] ∧
        check.Concerns file key := by
  rcases List.mem_cons.1 member with rfl | member
  · exact .inl (.valid files)
  · cases item with
    | dictionary file =>
      rcases List.mem_cons.1 member with rfl | member
      · exact .inr ⟨file, "length", rfl, by simp, .required⟩
      · exact .inr ⟨file, "path", rfl, by simp, concerns_of_mem_pathChecks member⟩
    | byteString | integer | list => cases member

/-- The first failing check of the content is about the dictionary in which its key is
looked up. -/
theorem exists_searches_of_content
    (failing : FirstFailing Check.Passes (contentChecks info) check) :
    ∃ key place, Info.Searches info key place ∧ check.Concerns place key := by
  have files : "files" ∈ ["name", "piece length", "pieces", "files"] := by simp
  rw [contentChecks] at failing
  split at failing
  · next absent =>
    obtain rfl := List.mem_singleton.1 failing.mem
    exact ⟨"length", info, .length rfl absent, .required⟩
  · next value held =>
    unfold filesChecks at failing
    rcases firstFailing_cons_iff.1 failing with ⟨-, rfl⟩ | ⟨-, failing⟩
    · exact ⟨"files", info, .own files, .valid held⟩
    · cases value with
      | list items =>
        rcases firstFailing_append_iff.1 failing with failing | ⟨-, failing⟩
        · obtain ⟨item, first, member⟩ := exists_firstFailing_file failing
          rcases concerns_of_mem_fileChecks member held with concerns |
            ⟨file, key, rfl, own, concerns⟩
          · exact ⟨"files", info, .own files, concerns⟩
          · exact ⟨key, file, .file own held first, concerns⟩
        · obtain rfl := List.mem_singleton.1 failing.mem
          exact ⟨"files", info, .own files, .total held⟩
      | byteString | integer | dictionary => cases failing

theorem exists_searches_of_info
    (failing : FirstFailing Check.Passes (infoChecks info) check) :
    ∃ key place, Info.Searches info key place ∧ check.Concerns place key := by
  simp only [infoChecks, firstFailing_cons_iff] at failing
  rcases failing with ⟨-, rfl⟩ | ⟨-, ⟨-, rfl⟩ | ⟨-, ⟨-, rfl⟩ | ⟨-, failing⟩⟩⟩
  · exact ⟨"name", info, .own (by simp), .required⟩
  · exact ⟨"piece length", info, .own (by simp), .required⟩
  · exact ⟨"pieces", info, .own (by simp), .required⟩
  · exact exists_searches_of_content failing

theorem concerns_of_mem_optionalChecks {rule : Rule}
    (member : check ∈
      optionalChecks key rule (Entries.get? (Bytes.ofString key) place)) :
    check.Concerns place key := by
  cases held : Entries.get? (Bytes.ofString key) place with
  | none =>
    rw [held] at member
    cases member
  | some value =>
    rw [held] at member
    obtain rfl := List.mem_singleton.1 member
    exact .valid held

theorem exists_searches
    (held : Entries.get? InfoHash.infoKey entries = some (.dictionary info))
    (failing : FirstFailing Check.Passes (checks entries info) check) :
    ∃ key place, Searches (.dictionary entries) key place ∧
      check.Concerns place key := by
  rcases firstFailing_append_iff.1 failing with failing | ⟨-, failing⟩
  · obtain ⟨key, place, searches, concerns⟩ := exists_searches_of_info failing
    exact ⟨key, place, .info held searches, concerns⟩
  · rcases List.mem_append.1 failing.mem with member | member
    · exact ⟨"announce", entries, .own (by simp), concerns_of_mem_optionalChecks member⟩
    · rcases List.mem_append.1 member with member | member
      · exact ⟨"comment", entries, .own (by simp),
          concerns_of_mem_optionalChecks member⟩
      · exact ⟨"creation date", entries, .own (by simp),
          concerns_of_mem_optionalChecks member⟩

/-! ## What the errors tell -/

/-- The error of the first failing check tells presence if and only if this is not the
check of a path that is held. -/
theorem tellsPresence_iff_of_failing {searches : String → List (Bytes × Value) → Prop}
    {list : List Check} (failing : FirstFailing Check.Passes list check)
    (concerns : ∃ key place, searches key place ∧ check.Concerns place key)
    (unique : ∀ place other, searches "path" place → searches "path" other →
      place = other) :
    check.error.TellsPresence searches ↔ ¬PathNoList list := by
  obtain ⟨key, place, searched, concerns⟩ := concerns
  constructor
  · rintro tells ⟨value, path⟩
    obtain rfl := failing.unique path
    obtain ⟨other, otherSearched, absent⟩ := tells
    generalize held : some value = present at concerns
    cases concerns with
    | path =>
      obtain rfl := unique place other searched otherSearched
      rw [absent] at held
      cases held
  · intro sound
    apply concerns.tellsPresence searched
    rintro value rfl
    exact sound ⟨value, failing⟩

/-- Every error tells whether the entry that it names is there, unless the first fault
is a path that is held but is no list.  This holds for the content alone and for the
whole summary. -/
theorem error_tellsPresence_iff (info : List (Bytes × Value)) (top : Value) :
    (∀ error, Info.ofEntries info = .error error →
      (error.TellsPresence (Info.Searches info) ↔ ¬PathNoList (infoChecks info))) ∧
    ∀ error, ofValue top = .error error →
      (error.TellsPresence (Searches top) ↔
        ¬∃ entries info, top = .dictionary entries ∧
          Entries.get? InfoHash.infoKey entries = some (.dictionary info) ∧
          PathNoList (checks entries info)) := by
  constructor
  · intro error failed
    obtain ⟨check, failing, rfl⟩ := Info.decidedBy_ofEntries.eq_error_iff.1 failed
    exact tellsPresence_iff_of_failing failing (exists_searches_of_info failing)
      fun place other searches => searches.unique
  · intro error failed
    cases found : InfoHash.infoEntries top with
    | error failure =>
      rw [ofValue_of_infoEntries found] at failed
      cases failed
      have none : ¬∃ entries info, top = .dictionary entries ∧
          Entries.get? InfoHash.infoKey entries = some (.dictionary info) ∧
          PathNoList (checks entries info) := by
        rintro ⟨entries, info, same, held, -⟩
        rw [infoEntries_eq_ok_iff.2 ⟨entries, same, held⟩] at found
        cases found
      exact ⟨fun _ => none, fun _ => trivial⟩
    | ok info =>
      obtain ⟨entries, rfl, held⟩ := infoEntries_eq_ok_iff.1 found
      obtain ⟨check, failing, rfl⟩ := (decidedBy_ofValue held).eq_error_iff.1 failed
      rw [tellsPresence_iff_of_failing failing (exists_searches held failing)
        fun place other searches => searches.unique]
      constructor
      · rintro sound ⟨_, _, same, otherHeld, path⟩
        cases same
        cases held.symm.trans otherHeld
        exact sound path
      · intro sound path
        exact sound ⟨entries, info, rfl, held, path⟩

/-- The length of the second file of the torrent is said to be invalid, and is there. -/
theorem tellsPresence_muddled :
    Info.ofEntries muddledInfo = .error (.invalid "length" .notAnInteger) ∧
    (Error.invalid "length" .notAnInteger).TellsPresence (Info.Searches muddledInfo) ∧
    ofValue (.dictionary muddled) = .error (.invalid "length" .notAnInteger) ∧
    (Error.invalid "length" .notAnInteger).TellsPresence
      (Searches (.dictionary muddled)) := by
  have infoFailed :
      Info.ofEntries muddledInfo = .error (.invalid "length" .notAnInteger) :=
    Info.decidedBy_ofEntries.eq_error_iff.2 ⟨_, firstFailing_muddledInfo, rfl⟩
  have failed :
      ofValue (.dictionary muddled) = .error (.invalid "length" .notAnInteger) :=
    (decidedBy_ofValue rfl).eq_error_iff.2 ⟨_, firstFailing_muddled, rfl⟩
  obtain ⟨infoTells, tells⟩ := error_tellsPresence_iff muddledInfo (.dictionary muddled)
  refine ⟨infoFailed, ?_, failed, ?_⟩
  · rw [infoTells _ infoFailed]
    rintro ⟨value, path⟩
    cases path.unique firstFailing_muddledInfo
  · rw [tells _ failed]
    rintro ⟨entries, info, same, held, value, path⟩
    cases same
    have same : some (Value.dictionary muddledInfo) = some (.dictionary info) := held
    cases same
    cases path.unique firstFailing_muddled

/-- A file with a path that is a text and no list. -/
def textPathFile : List (Bytes × Value) :=
  [(Bytes.ofString "length", .ofNumber 1), (Bytes.ofString "path", .ofString "a")]

/-- A torrent of this file alone. -/
def textPath : List (Bytes × Value) :=
  [(InfoHash.infoKey, .dictionary
    [(Bytes.ofString "files", .list [.dictionary textPathFile]),
      (Bytes.ofString "name", .ofString "x"),
      (Bytes.ofString "piece length", .ofNumber 1),
      (Bytes.ofString "pieces", .ofString "")])]

/-- Its path is said to be missing, and is there. -/
theorem missing_textPath :
    (Value.dictionary textPath).encode =
      Bytes.ofString ("d4:infod5:filesld6:lengthi1e4:path1:aee" ++
        "4:name1:x12:piece lengthi1e6:pieces0:ee") ∧
    ofValue (.dictionary textPath) = .error (.missing "path") ∧
    ¬(Error.missing "path").TellsPresence (Searches (.dictionary textPath)) := by
  refine ⟨by decide, rfl, ?_⟩
  have noFile : ¬IsFile (.dictionary textPathFile) := by
    rintro ⟨_, ⟨_, _, same, _, path, _⟩, _⟩
    cases same
    cases path
  have searched : Searches (.dictionary textPath) "path" textPathFile :=
    .info rfl (.file (by simp) rfl (.here noFile))
  rintro ⟨place, searches, absent⟩
  obtain rfl := searched.unique searches
  cases absent

end Metainfo.Torrent
