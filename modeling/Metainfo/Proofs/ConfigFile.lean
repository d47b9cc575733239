import Metainfo.Config
import Metainfo.Proofs.Toml.Lines
import Metainfo.Proofs.Utf8

/-!
# What a configuration file sets

The lines of a file that assign integers to keys set the limits.  Main statements: such
a file is loaded if and only if it gives no limit below zero and no key twice, and then
each limit is what its line says or the default, wherever the line stands and whatever
else is in the file; and the document that is written for limits is read back as these
limits, if it is written at all.
-/

namespace Metainfo.Config

open Files Toml

variable {fileSystem : FileSystem} {path : NativeText} {key text : String}
  {absent limit : Nat} {limits : Limits}
  {lines : List Toml.Line}

/-! ## The table of the lines -/

/-- In the table of lines whose keys are distinct a key holds what stands on its
line. -/
theorem get?_table (distinct : (lines.map Line.key).Nodup) {line : Toml.Line}
    (member : line ∈ lines) :
    Entries.get? line.key (Entries.ofList (entriesOf lines)) =
      some (.integer line.value) := by
  rw [← keys_entriesOf] at distinct
  have perm := Entries.ofList_perm distinct
  rw [Entries.get?_eq_some_iff ((perm.map Prod.fst).nodup_iff.2 distinct), perm.mem_iff]
  exact List.mem_map_of_mem member

theorem get?_table_of_absent (distinct : (lines.map Line.key).Nodup)
    (none : ∀ line ∈ lines, line.key ≠ key) :
    Entries.get? key (Entries.ofList (entriesOf lines)) = .none := by
  rw [← keys_entriesOf] at distinct
  have perm := (Entries.ofList_perm distinct).map Prod.fst
  rw [Entries.get?_eq_none_iff, Entries.keys, perm.mem_iff, ← Entries.keys,
    keys_entriesOf, List.mem_map]
  rintro ⟨line, member, same⟩
  exact none line member same

/-! ## Limits in lines -/

/-- A limit is what the line with its key says, and the default if there is no such
line. -/
structure Given (lines : List Toml.Line) (key : String) (absent limit : Nat) :
    Prop where
  said : ∀ line ∈ lines, line.key = key → line.value.toInt = limit
  unsaid : (∀ line ∈ lines, line.key ≠ key) → limit = absent

/-- A signed word is a limit if it is the number. -/
theorem natural?_eq_some_iff {value : Int} :
    (if 0 ≤ value then some value.toNat else none) = some limit ↔ value = limit := by
  split
  · rw [Option.some.injEq]
    omega
  · simp only [reduceCtorEq, false_iff]
    omega

theorem Given.of_mem (distinct : (lines.map Line.key).Nodup) {line : Toml.Line}
    (member : line ∈ lines) (told : line.value.toInt = limit) :
    Given lines line.key absent limit := by
  refine ⟨?_, fun none => absurd rfl (none line member)⟩
  intro other otherMember same
  have held := get?_table distinct otherMember
  rw [same, get?_table distinct member, Option.some.injEq, Node.integer.injEq] at held
  rw [← held, told]

theorem Given.of_absent (none : ∀ line ∈ lines, line.key ≠ key) :
    Given lines key absent absent :=
  ⟨fun line member same => absurd same (none line member), fun _ => rfl⟩

/-- The limit that the table gives is the one of its line. -/
theorem limit?_table_eq_some_iff (distinct : (lines.map Line.key).Nodup) :
    limit? (Entries.ofList (entriesOf lines)) key absent = some limit ↔
      Given lines key absent limit := by
  by_cases present : ∃ line ∈ lines, line.key = key
  · obtain ⟨line, member, rfl⟩ := present
    rw [limit?, get?_table distinct member]
    exact natural?_eq_some_iff.trans
      ⟨.of_mem distinct member, fun given => given.said line member rfl⟩
  · have none : ∀ line ∈ lines, line.key ≠ key :=
      fun line member same => present ⟨line, member, same⟩
    rw [limit?, get?_table_of_absent distinct none, Option.some.injEq]
    constructor
    · rintro rfl
      exact .of_absent none
    · exact fun given => (given.unsaid none).symm

/-- There is a limit exactly if no line with its key says a number below zero. -/
theorem exists_given_iff (absent : Nat) (distinct : (lines.map Line.key).Nodup) :
    (∃ limit, Given lines key absent limit) ↔
      ∀ line ∈ lines, line.key = key → 0 ≤ line.value.toInt := by
  constructor
  · rintro ⟨limit, given⟩ line member same
    rw [given.said line member same]
    exact Int.natCast_nonneg limit
  · intro natural
    by_cases present : ∃ line ∈ lines, line.key = key
    · obtain ⟨line, member, rfl⟩ := present
      have told := (Int.toNat_of_nonneg (natural line member rfl)).symm
      exact ⟨line.value.toInt.toNat, .of_mem distinct member told⟩
    · have none : ∀ line ∈ lines, line.key ≠ key :=
        fun line member same => present ⟨line, member, same⟩
      exact ⟨absent, .of_absent none⟩

/-- The limits are those of the lines with their keys, or the defaults. -/
structure SetBy (lines : List Toml.Line) (limits : Limits) : Prop where
  maxFileSize : Given lines sizeKey Limits.default.maxFileSize limits.maxFileSize
  maxDepth : Given lines depthKey Limits.default.maxDepth limits.maxDepth

/-- Limits are set exactly if no line for one of them says a number below zero. -/
theorem exists_setBy_iff (distinct : (lines.map Line.key).Nodup) :
    (∃ limits, SetBy lines limits) ↔
      ∀ line ∈ lines, line.key = sizeKey ∨ line.key = depthKey →
        0 ≤ line.value.toInt := by
  constructor
  · rintro ⟨limits, set⟩ line member (isSize | isDepth)
    · exact (exists_given_iff _ distinct).1 ⟨_, set.maxFileSize⟩ line member isSize
    · exact (exists_given_iff _ distinct).1 ⟨_, set.maxDepth⟩ line member isDepth
  · intro natural
    obtain ⟨maxFileSize, size⟩ :=
      (exists_given_iff Limits.default.maxFileSize distinct).2
      fun line member isSize => natural line member (.inl isSize)
    obtain ⟨maxDepth, depth⟩ := (exists_given_iff Limits.default.maxDepth distinct).2
      fun line member isDepth => natural line member (.inr isDepth)
    exact ⟨⟨maxFileSize, maxDepth⟩, size, depth⟩

/-- The lines with a key say the same here and there. -/
def SameOn (key : String) (lines others : List Toml.Line) : Prop :=
  ∀ value, (∃ line ∈ lines, line.key = key ∧ line.value = value) ↔
    ∃ line ∈ others, line.key = key ∧ line.value = value

theorem SameOn.symm {others : List Toml.Line} (same : SameOn key lines others) :
    SameOn key others lines :=
  fun value => (same value).symm

/-- Only the lines with its key have to do with a limit. -/
theorem Given.of_sameOn {others : List Toml.Line} (given : Given lines key absent limit)
    (same : SameOn key lines others) : Given others key absent limit := by
  constructor
  · intro other member isOther
    obtain ⟨line, lineMember, lineKey, lineValue⟩ :=
      (same other.value).2 ⟨other, member, isOther, rfl⟩
    rw [← lineValue]
    exact given.said line lineMember lineKey
  · intro none
    apply given.unsaid
    intro line member isLine
    obtain ⟨other, otherMember, otherKey, -⟩ :=
      (same line.value).1 ⟨line, member, isLine, rfl⟩
    exact none other otherMember otherKey

theorem SetBy.of_sameOn {others : List Toml.Line} (set : SetBy lines limits)
    (size : SameOn sizeKey lines others) (depth : SameOn depthKey lines others) :
    SetBy others limits :=
  ⟨set.maxFileSize.of_sameOn size, set.maxDepth.of_sameOn depth⟩

/-- A document of lines with distinct keys sets the limits that its lines say. -/
theorem ofText?_eq_some_iff (document : Document lines text.toList)
    (distinct : (lines.map Line.key).Nodup) :
    ofText? text = some limits ↔ SetBy lines limits := by
  simp only [ofText?, document.parse?_eq, if_pos distinct, Option.bind_eq_bind,
    Option.bind_some, Option.bind_eq_some_iff, limit?_table_eq_some_iff distinct]
  constructor
  · rintro ⟨maxFileSize, size, maxDepth, depth, made⟩
    cases made
    exact ⟨size, depth⟩
  · rintro ⟨size, depth⟩
    exact ⟨_, size, _, depth, rfl⟩

theorem ofText?_of_repeated (document : Document lines text.toList)
    (repeated : ¬(lines.map Line.key).Nodup) : ofText? text = none := by
  simp [ofText?, document.parse?_eq, repeated]

/-- Documents with the same lines for the two limits set the same limits, or both set
none. -/
theorem ofText?_eq_of_sameOn {others : List Toml.Line} {otherText : String}
    (document : Document lines text.toList) (distinct : (lines.map Line.key).Nodup)
    (otherDocument : Document others otherText.toList)
    (otherDistinct : (others.map Line.key).Nodup) (size : SameOn sizeKey lines others)
    (depth : SameOn depthKey lines others) : ofText? otherText = ofText? text := by
  apply Option.ext
  intro limits
  rw [ofText?_eq_some_iff otherDocument otherDistinct,
    ofText?_eq_some_iff document distinct]
  exact ⟨fun set => set.of_sameOn size.symm depth.symm, fun set =>
    set.of_sameOn size depth⟩

/-! ## Files -/

/-- The path leads to a file that holds the text. -/
def HoldsText (fileSystem : FileSystem) (path : NativeText) (text : String) : Prop :=
  ∃ size, fileSystem.find path = .ok (.file ⟨size, .finite (Bytes.ofString text)⟩)

/-- A system in which every path leads to a file with the text. -/
def holding (text : String) : FileSystem :=
  ⟨fun _ => .ok (.file (.ofBytes (Bytes.ofString text)))⟩

theorem holdsText_holding (text : String) (path : NativeText) :
    HoldsText (holding text) path text :=
  ⟨_, rfl⟩

/-- A text is loaded as the limits that it sets, or is malformed. -/
theorem ofFile_text (holds : HoldsText fileSystem path text) :
    ofFile fileSystem path =
      match ofText? text with
      | none => .error (.malformed path)
      | some limits => .ok limits := by
  obtain ⟨size, found⟩ := holds
  have decoded : Utf8.decode? (Bytes.ofString text) = some text :=
    Utf8.decode?_eq_some_iff.2 rfl
  cases set : ofText? text <;> simp only [ofFile, found, decoded, set]

/-- A file of lines is loaded as limits if and only if these are what its lines set. -/
theorem ofFile_lines_eq_ok_iff (document : Document lines text.toList)
    (holds : HoldsText fileSystem path text) (distinct : (lines.map Line.key).Nodup) :
    ofFile fileSystem path = .ok limits ↔ SetBy lines limits := by
  rw [ofFile_text holds, ← ofText?_eq_some_iff document distinct]
  cases ofText? text <;> simp

/-- Whatever is wrong with a text, it is said to be malformed. -/
theorem eq_malformed_of_ofFile_text (holds : HoldsText fileSystem path text)
    {error : Error} (failed : ofFile fileSystem path = .error error) :
    error = .malformed path := by
  rw [ofFile_text holds] at failed
  split at failed
  · cases failed
    rfl
  · cases failed

/-- A file of lines that assign integers to keys fails only as malformed, and does so if
a key stands on two lines, whichever key it is.  Otherwise it is loaded if and only if
no line for one of the two limits says a number below zero; each limit is then the
number on its line, or the default if there is no such line; and any other file in which
the lines for the two limits say the same gives the same, in whatever order its lines
stand and whatever other lines it has. -/
theorem ofFile_lines (document : Document lines text.toList)
    (holds : HoldsText fileSystem path text) :
    (∀ error, ofFile fileSystem path = .error error → error = .malformed path) ∧
    (¬(lines.map Line.key).Nodup → ofFile fileSystem path = .error (.malformed path)) ∧
    ((lines.map Line.key).Nodup →
      ((∃ limits, ofFile fileSystem path = .ok limits) ↔
        ∀ line ∈ lines, line.key = sizeKey ∨ line.key = depthKey →
          0 ≤ line.value.toInt) ∧
      (∀ limits, ofFile fileSystem path = .ok limits →
        Given lines sizeKey Limits.default.maxFileSize limits.maxFileSize ∧
        Given lines depthKey Limits.default.maxDepth limits.maxDepth) ∧
      ∀ others otherText other, Document others otherText.toList →
        HoldsText other path otherText →
        (others.map Line.key).Nodup → SameOn sizeKey lines others →
        SameOn depthKey lines others →
        ofFile other path = ofFile fileSystem path) := by
  refine ⟨fun error => eq_malformed_of_ofFile_text holds, ?_, ?_⟩
  · intro repeated
    rw [ofFile_text holds, ofText?_of_repeated document repeated]
  · intro distinct
    refine ⟨?_, ?_, ?_⟩
    · simp only [ofFile_lines_eq_ok_iff document holds distinct,
        exists_setBy_iff distinct]
    · intro limits loaded
      have set := (ofFile_lines_eq_ok_iff document holds distinct).1 loaded
      exact ⟨set.maxFileSize, set.maxDepth⟩
    · intro others otherText other otherDocument otherHolds otherDistinct size depth
      rw [ofFile_text holds, ofFile_text otherHolds,
        ofText?_eq_of_sameOn document distinct otherDocument otherDistinct size depth]

/-- A line of which only the key, the integer and its text are of interest. -/
def shortLine (key : String) (named : key ≠ "") (bare : key.toList.all isBare = true)
    (value : Int64) (literal : List Char) (written : IntegerText literal value.toInt) :
    Toml.Line where
  key := key
  value := value
  literal := literal
  indent := []
  before := ['\t']
  after := [' ', ' ']
  trailing := [' ']
  named := named
  bare := forall_bare_of_all bare
  written := written
  blank := by simp

/-- A limit of depth in two digits set apart, a key of another program, and a limit of
size of zero with a minus. -/
def scatteredLines : List Toml.Line :=
  [shortLine depthKey (by decide) (by decide) 64 "+6_4".toList
      (.plus (.apart (.digit rfl) (by decide) rfl)),
    shortLine "x-1" (by decide) (by decide) (-7) "-7".toList (.minus (.digit rfl)),
    shortLine sizeKey (by decide) (by decide) 0 "-0".toList (.minus (.digit rfl))]

/-- The characters of these lines, one with a carriage return at its end and the last
with no end. -/
def scatteredText : String :=
  "max_depth\t=  +6_4 \r\nx-1\t=  -7 \nmax_file_size\t=  -0 "

theorem document_scattered : Document scatteredLines scatteredText.toList := by
  have document : Document scatteredLines _ :=
    .line .returned (.line .newline (.line .last .empty))
  simpa [scatteredText, shortLine, Line.text, sizeKey, depthKey] using document

/-- The limits are found on their lines. -/
theorem ofFile_scattered :
    Document scatteredLines scatteredText.toList ∧
    HoldsText (holding scatteredText) fileName scatteredText ∧
    (scatteredLines.map Line.key).Nodup ∧
    ofFile (holding scatteredText) fileName = .ok ⟨0, 64⟩ := by
  have holds := holdsText_holding scatteredText fileName
  have distinct : (scatteredLines.map Line.key).Nodup := by decide
  obtain ⟨-, -, loads⟩ := ofFile_lines document_scattered holds
  obtain ⟨natural, given, -⟩ := loads distinct
  obtain ⟨limits, loaded⟩ := natural.2 (by decide)
  obtain ⟨size, depth⟩ := given limits loaded
  have isSize : (0 : Int) = limits.maxFileSize :=
    size.said scatteredLines[2] (List.getElem_mem _) rfl
  have isDepth : (64 : Int) = limits.maxDepth :=
    depth.said scatteredLines[0] (List.getElem_mem _) rfl
  refine ⟨document_scattered, holds, distinct, loaded.trans ?_⟩
  obtain ⟨maxFileSize, maxDepth⟩ := limits
  simp only [Except.ok.injEq, Limits.mk.injEq] at isSize isDepth ⊢
  omega

/-! ## Written limits -/

theorem toInt_ofNat {value : Nat} (within : value ≤ Decimal.maxSigned) :
    (Int64.ofNat value).toInt = value := by
  have greatest : Decimal.maxSigned = 2 ^ 63 - 1 := by decide
  exact Int64.toInt_ofNat_of_lt (by omega)

/-- The line that is written for a limit. -/
def writtenLine (key : String) (named : key ≠ "") (bare : key.toList.all isBare = true)
    (value : Nat) (within : value ≤ Decimal.maxSigned) : Toml.Line where
  key := key
  value := Int64.ofNat value
  literal := Nat.toDigits 10 value
  indent := []
  before := [' ']
  after := [' ']
  trailing := []
  named := named
  bare := forall_bare_of_all bare
  written := by
    rw [toInt_ofNat within]
    exact .plain (naturalText_toDigits value)
  blank := by simp

/-- The lines that are written for limits. -/
def writtenLines (limits : Limits) (size : limits.maxFileSize ≤ Decimal.maxSigned)
    (depth : limits.maxDepth ≤ Decimal.maxSigned) : List Toml.Line :=
  [writtenLine sizeKey (by decide) (by decide) limits.maxFileSize size,
    writtenLine depthKey (by decide) (by decide) limits.maxDepth depth]

theorem toList_line (key : String) (value : Nat) :
    (line key value).toList =
      key.toList ++ [' ', '=', ' '] ++ Nat.toDigits 10 value ++ ['\n'] := by
  simp [line, toString]

variable (size : limits.maxFileSize ≤ Decimal.maxSigned)
  (depth : limits.maxDepth ≤ Decimal.maxSigned)

/-- What is written is a document of these lines. -/
theorem document_writtenLines :
    Document (writtenLines limits size depth)
      (line sizeKey limits.maxFileSize ++ line depthKey limits.maxDepth).toList := by
  have document : Document (writtenLines limits size depth) _ :=
    .line .newline (.line .newline .empty)
  simpa [toList_line, Line.text, writtenLine] using document

theorem nodup_writtenLines : ((writtenLines limits size depth).map Line.key).Nodup := by
  have differ : sizeKey ≠ depthKey := by decide
  simpa [writtenLines, writtenLine] using differ

/-- The written lines say what the limits are. -/
theorem setBy_writtenLines : SetBy (writtenLines limits size depth) limits where
  maxFileSize :=
    .of_mem (nodup_writtenLines size depth) List.mem_cons_self (toInt_ofNat size)
  maxDepth :=
    .of_mem (nodup_writtenLines size depth) (List.mem_cons_of_mem _ List.mem_cons_self)
    (toInt_ofNat depth)

/-- Limits that are both signed words are written as a document, and a file with this
document is loaded as the same limits.  If one of them is larger, nothing is written. -/
theorem ofFile_toText? (limits : Limits) :
    (limits.maxFileSize ≤ Decimal.maxSigned ∧ limits.maxDepth ≤ Decimal.maxSigned →
      ∃ text, toText? limits = some text ∧
        ∀ fileSystem path, HoldsText fileSystem path text →
          ofFile fileSystem path = .ok limits) ∧
    (Decimal.maxSigned < limits.maxFileSize ∨ Decimal.maxSigned < limits.maxDepth →
      toText? limits = none) := by
  constructor
  · intro within
    refine ⟨_, if_pos within, ?_⟩
    intro fileSystem path holds
    have document := document_writtenLines within.1 within.2
    have distinct := nodup_writtenLines within.1 within.2
    exact (ofFile_lines_eq_ok_iff document holds distinct).2
      (setBy_writtenLines within.1 within.2)
  · intro exceeds
    exact if_neg (by omega)

/-- The greatest number that a document can hold is read back, and the next one is not
written. -/
theorem toText?_greatest :
    (∃ text, toText? ⟨Decimal.maxSigned, 0⟩ = some text ∧
      ofFile (holding text) fileName = .ok ⟨Decimal.maxSigned, 0⟩) ∧
    toText? ⟨0, Decimal.maxSigned + 1⟩ = none := by
  obtain ⟨text, written, readBack⟩ :=
    (ofFile_toText? ⟨Decimal.maxSigned, 0⟩).1 (by decide)
  refine ⟨⟨text, written, ?_⟩, (ofFile_toText? _).2 (by decide)⟩
  exact readBack (holding text) fileName (holdsText_holding text fileName)

end Metainfo.Config
