import Mathlib
import Metainfo.Proofs.Torrent.Fields
import Metainfo.Torrent.Summary

/-!
# Which torrents have a summary, and what it says

A summary is read field by field.  Here it is stated what the fields of a torrent have
to hold, without regard to an order in which they are looked at, and what a summary says
when it describes a torrent.  Main statement: a torrent has a summary exactly if its
fields are as they have to be, and the summary describes the torrent.
-/

namespace Metainfo

open Bencode

/-! ## Pieces of a byte string -/

namespace Bytes

variable {size : Nat} {bytes piece rest : Bytes} {done pieces : List Bytes}

theorem chunksFrom_of_length_lt (short : bytes.length < size) :
    chunksFrom size bytes done = done.reverse := by
  have none : bytes.drop (size - 1) = [] := List.drop_eq_nil_of_le (by omega)
  rw [chunksFrom]
  split
  · rfl
  · next some => rw [none] at some; cases some

theorem chunksFrom_append (positive : 0 < size) (whole : piece.length = size) :
    chunksFrom size (piece ++ rest) done = chunksFrom size rest (piece :: done) := by
  have nonempty : piece ≠ [] := List.length_pos_iff.1 (by omega)
  have last : (piece ++ rest).drop (size - 1) = piece.getLast nonempty :: rest := by
    have before : piece.dropLast.length = size - 1 := by
      rw [List.length_dropLast, whole]
    rw [← before]
    nth_rewrite 2 [← List.dropLast_concat_getLast nonempty]
    rw [List.append_assoc, List.drop_left, List.singleton_append]
  have front : (piece ++ rest).take size = piece := by rw [← whole, List.take_left]
  rw [chunksFrom]
  split
  · next none => rw [last] at none; cases none
  · next some =>
    rw [last] at some
    cases some
    rw [front]

/-- Pieces of one size are found again in the byte string that they make up. -/
theorem chunks_flatten (positive : 0 < size)
    (whole : ∀ piece ∈ pieces, piece.length = size) :
    chunks size pieces.flatten = pieces := by
  have all (done : List Bytes) :
      chunksFrom size pieces.flatten done = done.reverse ++ pieces := by
    induction pieces generalizing done with
    | nil =>
      rw [List.flatten_nil, chunksFrom_of_length_lt positive, List.append_nil]
    | cons piece pieces ih =>
      rw [List.forall_mem_cons] at whole
      rw [List.flatten_cons, chunksFrom_append positive whole.1, ih whole.2,
        List.reverse_cons, List.append_assoc, List.singleton_append]
  exact all []

/-- A byte string whose length is a multiple of a size is made up of pieces of that
size. -/
theorem exists_pieces (count : Nat) (bytes : Bytes)
    (length : bytes.length = size * count) :
    ∃ pieces : List Bytes, bytes = pieces.flatten ∧
      ∀ piece ∈ pieces, piece.length = size := by
  induction count generalizing bytes with
  | zero =>
    rw [Nat.mul_zero, List.length_eq_zero_iff] at length
    exact ⟨[], by rw [length, List.flatten_nil], by simp⟩
  | succ count ih =>
    rw [Nat.mul_succ] at length
    obtain ⟨pieces, rest, whole⟩ :=
      ih (bytes.drop size) (by rw [List.length_drop]; omega)
    have first : (bytes.take size).length = size := by rw [List.length_take]; omega
    refine ⟨bytes.take size :: pieces, ?_, List.forall_mem_cons.2 ⟨first, whole⟩⟩
    rw [List.flatten_cons, ← rest, List.take_append_drop]

/-- The pieces of a byte string are the pieces of the size that make it up, if there are
such. -/
theorem chunks_eq_iff (positive : 0 < size) (divides : size ∣ bytes.length) :
    chunks size bytes = pieces ↔
      bytes = pieces.flatten ∧ ∀ piece ∈ pieces, piece.length = size := by
  constructor
  · obtain ⟨count, length⟩ := divides
    obtain ⟨parts, rfl, whole⟩ := exists_pieces count bytes length
    rw [chunks_flatten positive whole]
    rintro rfl
    exact ⟨rfl, whole⟩
  · rintro ⟨rfl, whole⟩
    exact chunks_flatten positive whole

theorem length_flatten (whole : ∀ piece ∈ pieces, piece.length = size) :
    pieces.flatten.length = size * pieces.length := by
  induction pieces with
  | nil => rfl
  | cons piece pieces ih =>
    rw [List.forall_mem_cons] at whole
    rw [List.flatten_cons, List.length_append, whole.1, ih whole.2, List.length_cons,
      Nat.mul_succ, Nat.add_comm]

end Bytes

namespace Torrent

/-! ## The total length -/

theorem foldlM_addLength {files : List FileEntry} {start : Nat}
    (within : start ≤ Decimal.maxWord) :
    files.foldlM (fun total file => addLength total file.length) start =
      if start + (files.map FileEntry.length).sum ≤ Decimal.maxWord then
        some (start + (files.map FileEntry.length).sum)
      else none := by
  induction files generalizing start with
  | nil => simp [within]
  | cons file files ih =>
    rw [List.foldlM_cons, List.map_cons, List.sum_cons, ← Nat.add_assoc]
    by_cases fits : start + file.length ≤ Decimal.maxWord
    · have step : addLength start file.length = some (start + file.length) :=
        if_pos fits
      rw [step]
      exact ih fits
    · have step : addLength start file.length = none := if_neg fits
      rw [step, if_neg (by omega)]
      rfl

/-- Adding up file by file gives the exact sum, and fails only if the exact sum does not
fit 64 bits. -/
theorem totalLength_eq_some_iff {files : List FileEntry} {total : Nat} :
    totalLength files = some total ↔
      total = (files.map FileEntry.length).sum ∧ total ≤ Decimal.maxWord := by
  rw [totalLength, foldlM_addLength (Nat.zero_le _), Nat.zero_add]
  split
  · next within =>
    rw [Option.some.injEq]
    constructor
    · rintro rfl
      exact ⟨rfl, within⟩
    · rintro ⟨rfl, -⟩
      rfl
  · next exceeds =>
    constructor
    · nofun
    · rintro ⟨rfl, within⟩
      exact absurd within exceeds

/-! ## What a summary says -/

/-- A file is the one that a dictionary tells of. -/
structure FileEntry.Describes (file : FileEntry) (entries : List (Bytes × Value)) :
    Prop where
  length : Entries.get? (Bytes.ofString "length") entries = some (.ofNumber file.length)
  path :
    Entries.get? (Bytes.ofString "path") entries =
      some (.list (file.path.map .ofString))

/-- The length and the files are those that an info dictionary tells of: its own length
where it has no `files`, else the files in the order of the list, and the exact sum of
their lengths. -/
inductive DescribesContent (length : Nat) (files : List FileEntry)
    (entries : List (Bytes × Value)) : Prop where
  | single :
      Entries.get? (Bytes.ofString "files") entries = none →
      Entries.get? (Bytes.ofString "length") entries = some (.ofNumber length) →
      files = [] → DescribesContent length files entries
  | several {items : List Value} :
      Entries.get? (Bytes.ofString "files") entries = some (.list items) →
      List.Forall₂
        (fun item file => ∃ entries, item = .dictionary entries ∧
          file.Describes entries)
        items files →
      length = (files.map FileEntry.length).sum → DescribesContent length files entries

/-- The content is the one that an info dictionary tells of. -/
structure Info.Describes (info : Info) (entries : List (Bytes × Value)) : Prop where
  name : Entries.get? (Bytes.ofString "name") entries = some (.ofString info.name)
  pieceLength :
    Entries.get? (Bytes.ofString "piece length") entries =
      some (.ofNumber info.pieceLength)
  pieces :
    Entries.get? (Bytes.ofString "pieces") entries =
      some (.byteString info.pieces.flatten)
  pieceSize : ∀ piece ∈ info.pieces, piece.length = 20
  content : DescribesContent info.length info.files entries

end Torrent

/-- The summary says what a top-level dictionary holds. -/
structure Torrent.Describes (torrent : Torrent) (entries : List (Bytes × Value)) :
    Prop where
  announce :
    Entries.get? (Bytes.ofString "announce") entries = torrent.announce.map .ofString
  comment :
    Entries.get? (Bytes.ofString "comment") entries = torrent.comment.map .ofString
  creationDate :
    Entries.get? (Bytes.ofString "creation date") entries =
      torrent.creationDate.map .ofNumber
  info : ∃ infoEntries,
    Entries.get? (Bytes.ofString "info") entries = some (.dictionary infoEntries) ∧
      torrent.info.Describes infoEntries

namespace Torrent

/-- The numbers that describe a content are unsigned words of 64 bits. -/
structure Info.InRange (info : Info) : Prop where
  pieceLength_pos : 0 < info.pieceLength
  pieceLength_le : info.pieceLength ≤ Decimal.maxWord
  length_le : info.length ≤ Decimal.maxWord
  file_le : ∀ file ∈ info.files, file.length ≤ Decimal.maxWord

/-! ## What the readers accept -/

variable {entries : List (Bytes × Value)}

theorem componentOf_eq_ok_iff {value : Value} {text : String} :
    componentOf value = .ok text ↔ value = .ofString text := by
  rw [componentOf, orInvalid_eq_ok_iff, Value.text?_eq_some_iff]

theorem pathOf_eq_ok_iff {path : List String} :
    pathOf entries = .ok path ↔
      Entries.get? (Bytes.ofString "path") entries =
        some (.list (path.map .ofString)) := by
  have read (components : List Value) :
      components.mapM componentOf = .ok path ↔ components = path.map .ofString := by
    simp only [mapM_eq_ok_iff, componentOf_eq_ok_iff]
    rw [← List.forall₂_map_right_iff, List.forall₂_eq_eq_eq]
  rw [pathOf]
  cases Entries.get? (Bytes.ofString "path") entries with
  | none => simp
  | some value => cases value <;> simp [Value.items?, read]

theorem fileOf_eq_ok_iff {value : Value} {file : FileEntry} :
    fileOf value = .ok file ↔
      (∃ entries, value = .dictionary entries ∧ file.Describes entries) ∧
        file.length ≤ Decimal.maxWord := by
  rw [fileOf]
  simp only [bind_eq_ok_iff, orInvalid_eq_ok_iff, Value.entries?_eq_some_iff,
    wordField_eq_ok_iff, pathOf_eq_ok_iff]
  constructor
  · rintro ⟨entries, rfl, length, ⟨holdsLength, within⟩, path, holdsPath, same⟩
    cases same
    exact ⟨⟨entries, rfl, holdsLength, holdsPath⟩, within⟩
  · rintro ⟨⟨entries, rfl, describes⟩, within⟩
    exact ⟨entries, rfl, file.length, ⟨describes.length, within⟩, file.path,
      describes.path, rfl⟩

/-- A property of the files alone may be stated apart from what relates them to the
items. -/
theorem forall₂_and_right {related : Value → FileEntry → Prop} {fits : FileEntry → Prop}
    {items : List Value} {files : List FileEntry} :
    List.Forall₂ (fun item file => related item file ∧ fits file) items files ↔
      List.Forall₂ related items files ∧ ∀ file ∈ files, fits file := by
  constructor
  · intro each
    induction each with
    | nil => exact ⟨.nil, by simp⟩
    | cons first _ ih =>
      exact ⟨.cons first.1 ih.1, List.forall_mem_cons.2 ⟨first.2, ih.2⟩⟩
  · rintro ⟨each, all⟩
    induction each with
    | nil => exact .nil
    | cons first _ ih =>
      rw [List.forall_mem_cons] at all
      exact .cons ⟨first, all.1⟩ (ih all.2)

/-- The content is read from the length where there are no `files`, and from these where
there are. -/
theorem contentOf_eq_ok_iff {length : Nat} {files : List FileEntry} :
    contentOf entries = .ok (length, files) ↔
      (Entries.get? (Bytes.ofString "files") entries = none ∧
        Entries.get? (Bytes.ofString "length") entries = some (.ofNumber length) ∧
        files = [] ∧ length ≤ Decimal.maxWord) ∨
      ∃ items, Entries.get? (Bytes.ofString "files") entries = some (.list items) ∧
        items.mapM fileOf = .ok files ∧ length = (files.map FileEntry.length).sum ∧
        length ≤ Decimal.maxWord := by
  rw [contentOf]
  cases Entries.get? (Bytes.ofString "files") entries with
  | none =>
    simp only [bind_eq_ok_iff, wordField_eq_ok_iff]
    constructor
    · rintro ⟨_, ⟨held, within⟩, same⟩
      cases same
      exact .inl ⟨trivial, held, rfl, within⟩
    · rintro (⟨-, held, rfl, within⟩ | ⟨_, some, -⟩)
      · exact ⟨length, ⟨held, within⟩, rfl⟩
      · cases some
  | some value =>
    simp only [filesOf, bind_eq_ok_iff, orInvalid_eq_ok_iff, Value.items?_eq_some_iff,
      totalLength_eq_some_iff]
    constructor
    · rintro ⟨_, ⟨items, rfl, each⟩, _, ⟨isSum, within⟩, same⟩
      cases same
      exact .inr ⟨items, rfl, each, isSum, within⟩
    · rintro (⟨none, -⟩ | ⟨items, some, each, isSum, within⟩)
      · cases none
      · cases some
        exact ⟨files, ⟨items, rfl, each⟩, length, ⟨isSum, within⟩, rfl⟩

/-- What is read describes the content, and all lengths fit 64 bits. -/
theorem contentOf_eq_ok_iff_describes {length : Nat} {files : List FileEntry} :
    contentOf entries = .ok (length, files) ↔
      DescribesContent length files entries ∧ length ≤ Decimal.maxWord ∧
        ∀ file ∈ files, file.length ≤ Decimal.maxWord := by
  simp only [contentOf_eq_ok_iff, mapM_eq_ok_iff, fileOf_eq_ok_iff, forall₂_and_right]
  constructor
  · rintro (⟨none, held, rfl, within⟩ | ⟨items, held, ⟨each, fits⟩, isSum, within⟩)
    · exact ⟨.single none held rfl, within, by simp⟩
    · exact ⟨.several held each isSum, within, fits⟩
  · rintro ⟨content, within, fits⟩
    cases content with
    | single none held isEmpty => exact .inl ⟨none, held, isEmpty, within⟩
    | several held each isSum => exact .inr ⟨_, held, ⟨each, fits⟩, isSum, within⟩

theorem pieceLengthOf_eq_ok_iff {length : Nat} :
    pieceLengthOf entries = .ok length ↔
      Entries.get? (Bytes.ofString "piece length") entries = some (.ofNumber length) ∧
        0 < length ∧ length ≤ Decimal.maxWord := by
  rw [pieceLengthOf, bind_eq_ok_iff]
  simp only [wordField_eq_ok_iff]
  constructor
  · rintro ⟨read, ⟨held, within⟩, positive⟩
    split at positive
    · cases positive
    · next nonzero =>
      obtain rfl := Except.ok.inj positive
      exact ⟨held, Nat.pos_of_ne_zero nonzero, within⟩
  · rintro ⟨held, positive, within⟩
    refine ⟨length, ⟨held, within⟩, ?_⟩
    rw [if_neg (Nat.ne_of_gt positive)]
    rfl

/-- The hashes are read where they make up the byte string. -/
theorem piecesOf_eq_ok_iff {pieces : List Bytes} :
    piecesOf entries = .ok pieces ↔
      Entries.get? (Bytes.ofString "pieces") entries =
        some (.byteString pieces.flatten) ∧
        ∀ piece ∈ pieces, piece.length = 20 := by
  rw [piecesOf, bind_eq_ok_iff]
  simp only [bytesField_eq_ok_iff]
  have positive : 0 < pieceHashSize := by decide
  constructor
  · rintro ⟨hashes, held, whole⟩
    split at whole
    · cases whole
    · next divides =>
      have divides : pieceHashSize ∣ hashes.length :=
        Nat.dvd_of_mod_eq_zero (not_not.1 divides)
      obtain ⟨rfl, each⟩ :=
        (Bytes.chunks_eq_iff positive divides).1 (Except.ok.inj whole)
      exact ⟨held, each⟩
  · rintro ⟨held, each⟩
    refine ⟨_, held, ?_⟩
    have divides : pieces.flatten.length % pieceHashSize = 0 := by
      rw [@Bytes.length_flatten pieceHashSize _ each, Nat.mul_mod_right]
    rw [if_neg (not_not.2 divides), Bytes.chunks_flatten positive each]
    rfl

theorem infoEntries_eq_ok_iff {top : Value} {infoEntries : List (Bytes × Value)} :
    InfoHash.infoEntries top = .ok infoEntries ↔
      ∃ entries, top = .dictionary entries ∧
        Entries.get? (Bytes.ofString "info") entries =
          some (.dictionary infoEntries) := by
  rw [InfoHash.infoEntries, InfoHash.infoKey]
  cases top with
  | dictionary entries =>
    simp only [Value.get?, Value.entries?, Option.bind_some, Value.dictionary.injEq,
      exists_eq_left']
    cases Entries.get? (Bytes.ofString "info") entries with
    | none => simp
    | some value => cases value <;> simp
  | byteString | integer | list => simp [Value.get?, Value.entries?]

theorem Info.ofEntries_eq_ok_iff {info : Info} :
    Info.ofEntries entries = .ok info ↔ info.Describes entries ∧ info.InRange := by
  simp only [Info.ofEntries, bind_eq_ok_iff, textField_eq_ok_iff,
    pieceLengthOf_eq_ok_iff, piecesOf_eq_ok_iff]
  constructor
  · rintro ⟨name, holdsName, pieceLength, ⟨holdsPieceLength, positive, within⟩, pieces,
      ⟨holdsPieces, pieceSize⟩, ⟨length, files⟩, content, same⟩
    obtain rfl := Except.ok.inj same
    obtain ⟨content, length_le, file_le⟩ := contentOf_eq_ok_iff_describes.1 content
    exact ⟨⟨holdsName, holdsPieceLength, holdsPieces, pieceSize, content⟩,
      ⟨positive, within, length_le, file_le⟩⟩
  · rintro ⟨describes, inRange⟩
    exact ⟨info.name, describes.name, info.pieceLength,
      ⟨describes.pieceLength, inRange.pieceLength_pos, inRange.pieceLength_le⟩,
      info.pieces, ⟨describes.pieces, describes.pieceSize⟩, (info.length, info.files),
      contentOf_eq_ok_iff_describes.2
        ⟨describes.content, inRange.length_le, inRange.file_le⟩, rfl⟩

theorem mapError_eq_ok_iff {Result Cause : Type} {convert : Cause → Error}
    {outcome : Except Cause Result} {result : Result} :
    outcome.mapError convert = .ok result ↔ outcome = .ok result := by
  cases outcome <;> simp [Except.mapError]

/-- A summary is made where it describes the torrent and its numbers are words. -/
theorem ofValue_eq_ok_iff {top : Value} {torrent : Torrent} :
    ofValue top = .ok torrent ↔
      ∃ entries, top = .dictionary entries ∧ torrent.Describes entries ∧
        torrent.info.InRange ∧
        ∀ date, torrent.creationDate = some date →
          -(Decimal.maxSigned + 1 : Int) ≤ date ∧ date ≤ Decimal.maxSigned := by
  simp only [ofValue, bind_eq_ok_iff, mapError_eq_ok_iff, infoEntries_eq_ok_iff,
    Info.ofEntries_eq_ok_iff, optional_textField_eq_ok_iff,
    optional_signedField_eq_ok_iff]
  constructor
  · rintro ⟨infoEntries, ⟨entries, rfl, holdsInfo⟩, info, ⟨describes, inRange⟩,
      announce, holdsAnnounce, comment, holdsComment, date, ⟨holdsDate, dateInRange⟩,
      same⟩
    obtain rfl := Except.ok.inj same
    exact ⟨entries, rfl,
      ⟨holdsAnnounce, holdsComment, holdsDate, infoEntries, holdsInfo, describes⟩,
      inRange, dateInRange⟩
  · rintro ⟨entries, rfl,
      ⟨holdsAnnounce, holdsComment, holdsDate, infoEntries, holdsInfo, describes⟩,
      inRange, dateInRange⟩
    exact ⟨infoEntries, ⟨entries, rfl, holdsInfo⟩, torrent.info, ⟨describes, inRange⟩,
      torrent.announce, holdsAnnounce, torrent.comment, holdsComment,
      torrent.creationDate, ⟨holdsDate, dateInRange⟩, rfl⟩

/-! ## What a torrent has to hold -/

/-- Under a key there is a byte string that is UTF-8. -/
def HoldsText (entries : List (Bytes × Value)) (key : String) : Prop :=
  ∃ text : String, Entries.get? (Bytes.ofString key) entries = some (.ofString text)

/-- A value is a dictionary that tells of a file with a length. -/
structure TellsOfFile (value : Value) (length : Nat) : Prop where
  entries : ∃ entries components, value = .dictionary entries ∧
    Entries.get? (Bytes.ofString "length") entries = some (.ofNumber length) ∧
    Entries.get? (Bytes.ofString "path") entries = some (.list components) ∧
    ∀ component ∈ components, ∃ text, component = .ofString text
  length_lt : length < 2 ^ 64

/-- An info dictionary tells either a length or, under `files`, of files with lengths;
the length of the whole fits 64 bits. -/
inductive HoldsContent (entries : List (Bytes × Value)) : Prop where
  | single {length : Nat} :
      Entries.get? (Bytes.ofString "files") entries = none →
      Entries.get? (Bytes.ofString "length") entries = some (.ofNumber length) →
      length < 2 ^ 64 → HoldsContent entries
  | several {items : List Value} {lengths : List Nat} :
      Entries.get? (Bytes.ofString "files") entries = some (.list items) →
      List.Forall₂ TellsOfFile items lengths → lengths.sum < 2 ^ 64 →
      HoldsContent entries

/-- What an info dictionary has to hold. -/
structure HoldsInfo (entries : List (Bytes × Value)) : Prop where
  name : HoldsText entries "name"
  pieceLength : ∃ length : Nat,
    Entries.get? (Bytes.ofString "piece length") entries = some (.ofNumber length) ∧
      1 ≤ length ∧ length < 2 ^ 64
  pieces :
    ∃ hashes,
      Entries.get? (Bytes.ofString "pieces") entries = some (.byteString hashes) ∧
    20 ∣ hashes.length
  content : HoldsContent entries

/-- What a top-level dictionary has to hold. -/
structure HoldsTorrent (entries : List (Bytes × Value)) : Prop where
  info : ∃ infoEntries,
    Entries.get? (Bytes.ofString "info") entries = some (.dictionary infoEntries) ∧
      HoldsInfo infoEntries
  announce :
    Entries.get? (Bytes.ofString "announce") entries = none ∨
    HoldsText entries "announce"
  comment :
    Entries.get? (Bytes.ofString "comment") entries = none ∨ HoldsText entries "comment"
  creationDate : Entries.get? (Bytes.ofString "creation date") entries = none ∨
    ∃ date : Int,
      Entries.get? (Bytes.ofString "creation date") entries = some (.ofNumber date) ∧
      -2 ^ 63 ≤ date ∧ date < 2 ^ 63

/-! ## Which torrents have a summary -/

theorem le_maxWord_iff {number : Nat} : number ≤ Decimal.maxWord ↔ number < 2 ^ 64 := by
  rw [Decimal.maxWord]
  omega

theorem forall_ofString_iff {components : List Value} :
    (∀ component ∈ components, ∃ text, component = .ofString text) ↔
      ∃ path : List String, components = path.map .ofString := by
  constructor
  · intro each
    induction components with
    | nil => exact ⟨[], rfl⟩
    | cons component components ih =>
      rw [List.forall_mem_cons] at each
      obtain ⟨text, rfl⟩ := each.1
      obtain ⟨path, rfl⟩ := ih each.2
      exact ⟨text :: path, rfl⟩
  · rintro ⟨path, rfl⟩ component member
    obtain ⟨text, -, same⟩ := List.mem_map.1 member
    exact ⟨text, same.symm⟩

theorem tellsOfFile_iff {value : Value} {length : Nat} :
    TellsOfFile value length ↔
      ∃ file, fileOf value = .ok file ∧ file.length = length := by
  simp only [fileOf_eq_ok_iff]
  constructor
  · rintro ⟨⟨entries, components, rfl, holdsLength, holdsPath, each⟩, fits⟩
    obtain ⟨path, rfl⟩ := forall_ofString_iff.1 each
    exact ⟨⟨length, path⟩,
      ⟨⟨entries, rfl, holdsLength, holdsPath⟩, le_maxWord_iff.2 fits⟩, rfl⟩
  · rintro ⟨file, ⟨⟨entries, rfl, describes⟩, fits⟩, rfl⟩
    exact ⟨⟨entries, _, rfl, describes.length, describes.path,
      forall_ofString_iff.2 ⟨_, rfl⟩⟩, le_maxWord_iff.1 fits⟩

theorem forall₂_tellsOfFile_iff {items : List Value} {lengths : List Nat} :
    List.Forall₂ TellsOfFile items lengths ↔
      ∃ files, items.mapM fileOf = .ok files ∧
        files.map FileEntry.length = lengths := by
  simp only [mapM_eq_ok_iff]
  constructor
  · intro each
    induction each with
    | nil => exact ⟨[], .nil, rfl⟩
    | cons first _ ih =>
      obtain ⟨file, read, rfl⟩ := tellsOfFile_iff.1 first
      obtain ⟨files, others, rfl⟩ := ih
      exact ⟨file :: files, .cons read others, rfl⟩
  · rintro ⟨files, each, rfl⟩
    rw [List.forall₂_map_right_iff]
    apply each.imp
    intro item file read
    exact tellsOfFile_iff.2 ⟨file, read, rfl⟩

theorem holdsContent_iff {entries : List (Bytes × Value)} :
    HoldsContent entries ↔ ∃ length files, contentOf entries = .ok (length, files) := by
  simp only [contentOf_eq_ok_iff]
  constructor
  · intro holds
    cases holds with
    | @single length none held fits =>
      exact ⟨length, [], .inl ⟨none, held, rfl, le_maxWord_iff.2 fits⟩⟩
    | @several items lengths held each fits =>
      obtain ⟨files, read, rfl⟩ := forall₂_tellsOfFile_iff.1 each
      exact ⟨_, files, .inr ⟨items, held, read, rfl, le_maxWord_iff.2 fits⟩⟩
  · rintro ⟨length, files, ⟨none, held, -, within⟩ | ⟨items, held, read, rfl, within⟩⟩
    · exact .single none held (le_maxWord_iff.1 within)
    · exact .several held (forall₂_tellsOfFile_iff.2 ⟨files, read, rfl⟩)
        (le_maxWord_iff.1 within)

theorem holdsInfo_iff {entries : List (Bytes × Value)} :
    HoldsInfo entries ↔ ∃ info, Info.ofEntries entries = .ok info := by
  constructor
  · rintro ⟨⟨name, holdsName⟩, ⟨pieceLength, holdsPieceLength, positive, fits⟩,
      ⟨hashes, holdsPieces, divides⟩, content⟩
    obtain ⟨length, files, content⟩ := holdsContent_iff.1 content
    obtain ⟨content, length_le, file_le⟩ := contentOf_eq_ok_iff_describes.1 content
    obtain ⟨count, isMultiple⟩ := divides
    obtain ⟨pieces, rfl, whole⟩ := Bytes.exists_pieces count hashes isMultiple
    refine ⟨⟨name, length, pieceLength, pieces, files⟩,
      Info.ofEntries_eq_ok_iff.2 ⟨?_, ?_⟩⟩
    · exact ⟨holdsName, holdsPieceLength, holdsPieces, whole, content⟩
    · exact ⟨positive, le_maxWord_iff.2 fits, length_le, file_le⟩
  · rintro ⟨info, read⟩
    obtain ⟨describes, inRange⟩ := Info.ofEntries_eq_ok_iff.1 read
    have content := contentOf_eq_ok_iff_describes.2
      ⟨describes.content, inRange.length_le, inRange.file_le⟩
    constructor
    · exact ⟨info.name, describes.name⟩
    · exact ⟨info.pieceLength, describes.pieceLength, inRange.pieceLength_pos,
        le_maxWord_iff.1 inRange.pieceLength_le⟩
    · exact ⟨_, describes.pieces, _, Bytes.length_flatten describes.pieceSize⟩
    · exact holdsContent_iff.2 ⟨_, _, content⟩

theorem none_or_exists_iff {Result : Type} {stands : Result → Value}
    {within : Result → Prop} {held : Option Value} :
    (held = none ∨ ∃ found, held = some (stands found) ∧ within found) ↔
      ∃ result : Option Result, held = result.map stands ∧
        ∀ found, result = some found → within found := by
  constructor
  · rintro (rfl | ⟨found, rfl, fits⟩)
    · exact ⟨none, rfl, nofun⟩
    · exact ⟨some found, rfl, by rintro _ ⟨⟩; exact fits⟩
  · rintro ⟨result, rfl, fits⟩
    cases result with
    | none => exact .inl rfl
    | some found => exact .inr ⟨found, rfl, fits found rfl⟩

theorem none_or_holdsText_iff {entries : List (Bytes × Value)} {key : String} :
    (Entries.get? (Bytes.ofString key) entries = none ∨ HoldsText entries key) ↔
      ∃ text : Option String,
        Entries.get? (Bytes.ofString key) entries = text.map .ofString := by
  have all := @none_or_exists_iff String Value.ofString (fun _ => True)
    (Entries.get? (Bytes.ofString key) entries)
  simpa only [HoldsText, and_true, implies_true] using all

theorem signed_range_iff {date : Int} :
    -(Decimal.maxSigned + 1 : Int) ≤ date ∧ date ≤ Decimal.maxSigned ↔
      -2 ^ 63 ≤ date ∧ date < 2 ^ 63 := by
  rw [Decimal.maxSigned]
  omega

/-- A torrent has a summary exactly if its top-level dictionary holds what it has to,
and then the summary says what that dictionary holds. -/
theorem ofValue_exact (top : Value) :
    ((∃ torrent, ofValue top = .ok torrent) ↔
      ∃ entries, top = .dictionary entries ∧ HoldsTorrent entries) ∧
    ∀ torrent, ofValue top = .ok torrent →
      ∃ entries, top = .dictionary entries ∧ torrent.Describes entries := by
  simp only [ofValue_eq_ok_iff]
  refine ⟨⟨?_, ?_⟩, ?_⟩
  · rintro ⟨torrent, entries, rfl,
      ⟨announce, comment, date, infoEntries, holdsInfo, describes⟩, inRange,
      dateInRange⟩
    have info := holdsInfo_iff.2 ⟨_, Info.ofEntries_eq_ok_iff.2 ⟨describes, inRange⟩⟩
    refine ⟨entries, rfl, ⟨infoEntries, holdsInfo, info⟩, ?_, ?_, ?_⟩
    · exact none_or_holdsText_iff.2 ⟨_, announce⟩
    · exact none_or_holdsText_iff.2 ⟨_, comment⟩
    · exact none_or_exists_iff.2
        ⟨_, date, fun _ some => signed_range_iff.1 (dateInRange _ some)⟩
  · rintro ⟨entries, rfl, ⟨infoEntries, holdsInfo, info⟩, announce, comment, date⟩
    obtain ⟨info, read⟩ := holdsInfo_iff.1 info
    obtain ⟨describes, inRange⟩ := Info.ofEntries_eq_ok_iff.1 read
    obtain ⟨announce, holdsAnnounce⟩ := none_or_holdsText_iff.1 announce
    obtain ⟨comment, holdsComment⟩ := none_or_holdsText_iff.1 comment
    obtain ⟨date, holdsDate, fits⟩ := none_or_exists_iff.1 date
    refine ⟨⟨announce, comment, date, info⟩, entries, rfl, ?_, inRange, ?_⟩
    · exact ⟨holdsAnnounce, holdsComment, holdsDate, infoEntries, holdsInfo, describes⟩
    · exact fun found some => signed_range_iff.2 (fits found some)
  · rintro torrent ⟨entries, same, describes, -⟩
    exact ⟨entries, same, describes⟩

/-- The entries that tell of a file. -/
def fileEntries (file : FileEntry) : List (Bytes × Value) :=
  [(Bytes.ofString "length", .ofNumber file.length),
    (Bytes.ofString "path", .list (file.path.map .ofString))]

/-- The info dictionary of two files, the larger one first, and one piece. -/
def albumInfo : List (Bytes × Value) :=
  [(Bytes.ofString "files",
      .list [.dictionary (fileEntries ⟨7, ["disc", "b"]⟩),
        .dictionary (fileEntries ⟨5, ["a"]⟩)]),
    (Bytes.ofString "name", .ofString "album"),
    (Bytes.ofString "piece length", .ofNumber 16),
    (Bytes.ofString "pieces", .ofString "aaaaaaaaaaaaaaaaaaaa")]

/-- A torrent of this content with a comment. -/
def album : List (Bytes × Value) :=
  [(Bytes.ofString "comment", .ofString "two"),
    (Bytes.ofString "info", .dictionary albumInfo)]

/-- The summary of the torrent. -/
def albumSummary : Torrent where
  announce := none
  comment := some "two"
  creationDate := none
  info :=
    ⟨"album", 12, 16, [Bytes.ofString "aaaaaaaaaaaaaaaaaaaa"],
      [⟨7, ["disc", "b"]⟩, ⟨5, ["a"]⟩]⟩

theorem ofValue_exact_album :
    ofValue (.dictionary album) = .ok albumSummary ∧
      ∃ entries, Value.dictionary album = .dictionary entries ∧
        albumSummary.Describes entries := by
  have told (file : FileEntry) : ∃ entries,
      Value.dictionary (fileEntries file) = .dictionary entries ∧
      file.Describes entries :=
    ⟨fileEntries file, rfl, rfl, rfl⟩
  have content : DescribesContent 12 albumSummary.info.files albumInfo :=
    .several rfl (.cons (told _) (.cons (told _) .nil)) rfl
  have info : albumSummary.info.Describes albumInfo :=
    ⟨rfl, rfl, rfl, by decide, content⟩
  have describes : albumSummary.Describes album := ⟨rfl, rfl, rfl, albumInfo, rfl, info⟩
  have inRange : albumSummary.info.InRange :=
    ⟨by decide, by decide, by decide, by decide⟩
  have summary : ofValue (.dictionary album) = .ok albumSummary :=
    ofValue_eq_ok_iff.2 ⟨album, rfl, describes, inRange, nofun⟩
  exact ⟨summary, (ofValue_exact (.dictionary album)).2 _ summary⟩

end Torrent

end Metainfo
