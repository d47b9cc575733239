import Metainfo.Proofs.Torrent.Summary

/-!
# One file or several

An info dictionary with an entry `files` is read as one of several files, any other as
one of a single file.  A summary does not say which it was; whether it is one of several
files is told from its files.  Main statement: the two agree, and the length is the one
that belongs to the mode, unless the entry is an empty list.
-/

namespace Metainfo.Torrent

open Bencode

variable {entries : List (Bytes × Value)} {info : Info}

/-- A content has several files if and only if the info dictionary has an entry `files`.
Its length is the sum of those of the files if it has several, and else the one in the
info dictionary. -/
structure Info.Consistent (info : Info) (entries : List (Bytes × Value)) : Prop where
  mode : info.isMultiFile = true ↔
    ∃ value, Entries.get? (Bytes.ofString "files") entries = some value
  several :
    info.isMultiFile = true → info.length = (info.files.map FileEntry.length).sum
  single : info.isMultiFile = false →
    Entries.get? (Bytes.ofString "length") entries = some (.ofNumber info.length)

theorem isMultiFile_eq_true_iff : info.isMultiFile = true ↔ info.files ≠ [] := by
  simp [Info.isMultiFile]

theorem isMultiFile_eq_false_iff : info.isMultiFile = false ↔ info.files = [] := by
  simp [Info.isMultiFile]

/-- There are files exactly if the entry `files` is a list with an item. -/
theorem DescribesContent.ne_nil_iff {length : Nat} {files : List FileEntry}
    (content : DescribesContent length files entries) :
    files ≠ [] ↔
      ∃ item items,
        Entries.get? (Bytes.ofString "files") entries =
          some (.list (item :: items)) := by
  cases content with
  | single none _ isEmpty => simp [none, isEmpty]
  | several held each _ =>
    rw [held]
    cases each with
    | nil => simp
    | cons first others => simp

theorem consistent_iff (content : DescribesContent info.length info.files entries) :
    info.Consistent entries ↔
      Entries.get? (Bytes.ofString "files") entries ≠ some (.list []) := by
  constructor
  · intro consistent held
    have several := isMultiFile_eq_true_iff.1 (consistent.mode.2 ⟨_, held⟩)
    obtain ⟨item, items, nonempty⟩ := content.ne_nil_iff.1 several
    rw [held] at nonempty
    cases nonempty
  · intro nonempty
    cases content with
    | single none length isEmpty =>
      have mode : info.isMultiFile = false := isMultiFile_eq_false_iff.2 isEmpty
      constructor
      · simp [mode, none]
      · simp [mode]
      · exact fun _ => length
    | several held each isSum =>
      have mode : info.isMultiFile = true := by
        rw [isMultiFile_eq_true_iff]
        intro isEmpty
        rw [isEmpty, List.forall₂_nil_right_iff] at each
        rw [each] at held
        exact nonempty held
      constructor
      · simp [mode, held]
      · exact fun _ => isSum
      · simp [mode]

/-- A content that is read has the mode and the length that its info dictionary tells,
unless this has an empty list of files.  Then it passes for a single file of no
length. -/
theorem ofEntries_consistent_iff (read : Info.ofEntries entries = .ok info) :
    (info.Consistent entries ↔
      Entries.get? (Bytes.ofString "files") entries ≠ some (.list [])) ∧
    (Entries.get? (Bytes.ofString "files") entries = some (.list []) →
      info.isMultiFile = false ∧ info.length = 0) := by
  obtain ⟨describes, -⟩ := Info.ofEntries_eq_ok_iff.1 read
  refine ⟨consistent_iff describes.content, ?_⟩
  intro held
  cases describes.content with
  | single none =>
    rw [none] at held
    cases held
  | several otherHeld each isSum =>
    rw [held] at otherHeld
    cases otherHeld
    have files : info.files = [] := List.forall₂_nil_left_iff.1 each
    rw [files] at isSum
    exact ⟨isMultiFile_eq_false_iff.2 files, isSum⟩

/-- Two files make a content of several. -/
theorem consistent_album :
    Info.ofEntries albumInfo = .ok albumSummary.info ∧
    albumSummary.info.Consistent albumInfo := by
  have read : Info.ofEntries albumInfo = .ok albumSummary.info := by
    have told (file : FileEntry) : ∃ entries,
        Value.dictionary (fileEntries file) = .dictionary entries ∧
        file.Describes entries :=
      ⟨fileEntries file, rfl, rfl, rfl⟩
    have content : DescribesContent 12 albumSummary.info.files albumInfo :=
      .several rfl (.cons (told _) (.cons (told _) .nil)) rfl
    exact Info.ofEntries_eq_ok_iff.2
      ⟨⟨rfl, rfl, rfl, by decide, content⟩, by decide, by decide, by decide, by decide⟩
  refine ⟨read, (ofEntries_consistent_iff read).1.2 ?_⟩
  nofun

/-- An info dictionary with an empty list of files and without a length. -/
def noFiles : List (Bytes × Value) :=
  [(Bytes.ofString "files", .list []), (Bytes.ofString "name", .ofString "x"),
    (Bytes.ofString "piece length", .ofNumber 1),
    (Bytes.ofString "pieces", .ofString "")]

/-- It has an entry `files`, and its content passes for a single file although it has no
length. -/
theorem not_consistent_noFiles :
    (Value.dictionary noFiles).encode =
      Bytes.ofString "d5:filesle4:name1:x12:piece lengthi1e6:pieces0:e" ∧
    Info.ofEntries noFiles = .ok ⟨"x", 0, 1, [], []⟩ ∧
    ¬(Info.mk "x" 0 1 [] []).Consistent noFiles := by
  have content : DescribesContent 0 [] noFiles := .several rfl .nil rfl
  have read : Info.ofEntries noFiles = .ok ⟨"x", 0, 1, [], []⟩ :=
    Info.ofEntries_eq_ok_iff.2
      ⟨⟨rfl, rfl, rfl, nofun, content⟩, by decide, by decide, by decide, nofun⟩
  refine ⟨by decide, read, ?_⟩
  intro consistent
  cases consistent.single rfl

end Metainfo.Torrent
