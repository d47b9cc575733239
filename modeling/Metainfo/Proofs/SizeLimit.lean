import Metainfo.Proofs.CommandLine
import Metainfo.Proofs.Utf8

/-!
# The limit of size

The system hands out a file in pieces of whatever length it likes, and the number of
octets that may be taken is a word of 64 bits, the limit and one more.  Main statements:
however the pieces fall, a file is read whole or refused, and at most one octet above
the limit is taken from it; and no limit that the command loads makes that number wrap
around, so that in words every run of the command goes as it does with numbers of any
size.
-/

namespace Metainfo

open Files Log

/-! ## Taking pieces -/

namespace Files.Stream

theorem take_add (start count : Nat) (stream : Stream) :
    stream.take (start + count) = stream.take start ++ stream.window start count := by
  cases stream with
  | finite bytes => exact List.take_add
  | endless octetAt => simp [take, window, List.range_add]

/-- The first octets are told apart by their number. -/
theorem take_length_take (count : Nat) (stream : Stream) :
    stream.take (stream.take count).length = stream.take count := by
  cases stream with
  | finite bytes => simp [take, List.take_eq_take_iff]
  | endless octetAt => simp [take]

/-- Where nothing is handed out the stream has ended. -/
theorem take_eq_of_window_eq_nil {start count : Nat} {stream : Stream}
    (positive : 0 < count) (ended : stream.window start count = []) (more : Nat) :
    stream.take (start + more) = stream.take start := by
  cases stream with
  | finite bytes =>
    have short : bytes.length ≤ start := by
      have empty := congrArg List.length ended
      simp only [window, List.length_take, List.length_drop, List.length_nil] at empty
      omega
    rw [take, take, List.take_of_length_le short, List.take_of_length_le (by omega)]
  | endless octetAt =>
    have empty := congrArg List.length ended
    simp only [window, List.length_map, List.length_range, List.length_nil] at empty
    omega

/-- However long the pieces are, the first octets of the stream are taken. -/
theorem drain_take (stream : Stream) (sizes : Nat → Nat) (room start : Nat)
    (reached : (stream.take start).length = start) :
    stream.drain sizes room (stream.take start) = stream.take (start + room) := by
  induction room using Nat.strongRecOn generalizing start with
  | _ room ih =>
    rw [drain, reached]
    split
    · next ended =>
      by_cases full : room = 0
      · rw [full, Nat.add_zero]
      · exact (take_eq_of_window_eq_nil (by omega) ended room).symm
    · next byte bytes piece =>
      have few := length_window_le start (min room (sizes start + 1)) stream
      have next := take_add start (min room (sizes start + 1)) stream
      rw [piece] at few next
      -- The piece may be shorter than was asked for, so the position behind it is
      -- counted afresh.
      have length : (stream.take (start + min room (sizes start + 1))).length =
          start + (bytes.length + 1) := by
        rw [next, List.length_append, reached, List.length_cons]
      have taken : stream.take start ++ byte :: bytes =
          stream.take (start + (bytes.length + 1)) := by
        rw [← next, ← take_length_take (start + min room (sizes start + 1)), length]
      rw [List.length_cons] at few
      rw [taken, ih _ (by omega)]
      · congr 1
        omega
      · rw [← length, take_length_take]

theorem drain_eq_take (stream : Stream) (sizes : Nat → Nat) (bound : Nat) :
    stream.drain sizes bound [] = stream.take bound := by
  have empty : stream.take 0 = [] :=
    List.length_eq_zero_iff.1 (Nat.le_zero.1 (length_take_le 0 stream))
  have whole := drain_take stream sizes bound 0 (by rw [empty, List.length_nil])
  rwa [empty, Nat.zero_add] at whole

end Files.Stream

/-! ## Reading in words -/

namespace Hashing

variable {fileSystem : FileSystem} {path : NativeText} {file : File} {limit : Nat}

/-- Reading in pieces comes to the same as taking the first octets at once. -/
theorem result_loadInPieces (sizes : Nat → Nat) (fileSystem : FileSystem)
    (path : NativeText) (limit : Nat) :
    (loadInPieces sizes fileSystem path limit).result = load fileSystem path limit := by
  have taken : (fun stream : Stream => stream.drain sizes (readBound limit) []) =
      Stream.take (readBound limit) := by
    funext stream
    exact stream.drain_eq_take sizes (readBound limit)
  rw [loadInPieces, taken, load]

/-- No more is taken than may be taken of a stream. -/
theorem length_taken_readBy_le {take : Stream → Bytes} {bound : Nat}
    (few : ∀ stream, (take stream).length ≤ bound) (fileSystem : FileSystem)
    (path : NativeText) (limit : Nat) :
    (readBy take fileSystem path limit).taken.length ≤ bound := by
  unfold readBy
  split
  case h_4 file found =>
    split
    · exact Nat.zero_le _
    · exact few file.stream
  all_goals exact Nat.zero_le _

theorem length_taken_le (sizes : Nat → Nat) (fileSystem : FileSystem)
    (path : NativeText) (limit : Nat) :
    (loadInPieces sizes fileSystem path limit).taken.length ≤ limit + 1 := by
  apply length_taken_readBy_le
  intro stream
  rw [Stream.drain_eq_take]
  exact (stream.length_take_le _).trans (Nat.mod_le ..)

/-! ## The verdict on a file -/

/-- What comes of a file depends on its size and on the octets that are taken. -/
theorem load_file (found : fileSystem.find path = .ok (.file file)) :
    load fileSystem path limit =
      if file.size > limit then .error (.fileTooLarge file.size limit)
      else if (file.stream.take (readBound limit)).length > limit then
        .error (.fileTooLarge (file.stream.take (readBound limit)).length limit)
      else .ok (file.stream.take (readBound limit)) := by
  rw [load, readBy, found]
  exact apply_ite Reading.result ..

/-- The greatest word cannot be counted up: the number of octets that may be taken wraps
around to zero, and every file is read as if it were empty. -/
theorem load_maxWord (found : fileSystem.find path = .ok (.file file))
    (word : file.size ≤ Decimal.maxWord) :
    load fileSystem path Decimal.maxWord = .ok [] := by
  have none : file.stream.take (readBound Decimal.maxWord) = [] :=
    List.length_eq_zero_iff.1 (Nat.le_zero.1 (file.stream.length_take_le 0))
  rw [load_file found, if_neg (Nat.not_lt.2 word), none]
  rfl

/-- Of a stream that goes on beyond the limit, one octet more than the limit is
taken. -/
theorem length_take_of_exceeds {stream : Stream}
    (exceeds : ∀ bytes, stream = .finite bytes → limit < bytes.length) :
    (stream.take (limit + 1)).length = limit + 1 := by
  have more : ¬(stream.take (limit + 1)).length ≤ limit := by
    intro few
    obtain ⟨bytes, isFinite, short⟩ := length_take_le_iff.1 few
    exact absurd (exceeds bytes isFinite) (by omega)
  have most := stream.length_take_le (limit + 1)
  omega

theorem load_of_large (found : fileSystem.find path = .ok (.file file))
    (large : limit < file.size) :
    load fileSystem path limit = .error (.fileTooLarge file.size limit) := by
  rw [load_file found, if_pos large]

theorem load_of_exceeds (found : fileSystem.find path = .ok (.file file))
    (below : limit < Decimal.maxWord) (small : file.size ≤ limit)
    (exceeds : ∀ bytes, file.stream = .finite bytes → limit < bytes.length) :
    load fileSystem path limit = .error (.fileTooLarge (limit + 1) limit) := by
  rw [load_file found, readBound_eq below, if_neg (by omega),
    length_take_of_exceeds exceeds, if_pos (by omega)]

theorem load_eq_ok_iff_of_file (found : fileSystem.find path = .ok (.file file))
    (below : limit < Decimal.maxWord) {bytes : Bytes} :
    load fileSystem path limit = .ok bytes ↔
      file.size ≤ limit ∧ bytes.length ≤ limit ∧ file.stream = .finite bytes := by
  rw [load_eq_ok_iff below, Holds, found]
  constructor
  · rintro ⟨size, same, small, whole⟩
    cases same
    exact ⟨small, whole, rfl⟩
  · rintro ⟨small, whole, isFinite⟩
    exact ⟨file.size, by rw [← isFinite], small, whole⟩

/-- A file that is not loaded is too large, by what it reports or by what it holds. -/
theorem exists_size_of_load_error {error : Error}
    (found : fileSystem.find path = .ok (.file file))
    (failed : load fileSystem path limit = .error error) :
    ∃ size, error = .fileTooLarge size limit ∧ limit < size := by
  rw [load_file found] at failed
  split at failed
  · next large =>
    cases failed
    exact ⟨_, rfl, large⟩
  · split at failed
    · next more =>
      cases failed
      exact ⟨_, rfl, more⟩
    · cases failed

/-- A file is loaded if and only if neither the size it reports nor the length of its
stream is above the limit, and then whole.  Otherwise it is too large: with the reported
size if that is above the limit, and with one more than the limit if only the stream
goes on beyond it; in both cases the size is above the limit.  However the system hands
out the pieces, reading comes to this and takes at most one octet above the limit; and
what the stream holds after that octet makes no difference. -/
theorem load_whole_or_refused (found : fileSystem.find path = .ok (.file file))
    (below : limit < Decimal.maxWord) :
    (∀ bytes, load fileSystem path limit = .ok bytes ↔
      file.size ≤ limit ∧ bytes.length ≤ limit ∧ file.stream = .finite bytes) ∧
    (limit < file.size →
      load fileSystem path limit = .error (.fileTooLarge file.size limit)) ∧
    (file.size ≤ limit → (∀ bytes, file.stream = .finite bytes → limit < bytes.length) →
      load fileSystem path limit = .error (.fileTooLarge (limit + 1) limit)) ∧
    (∀ error, load fileSystem path limit = .error error →
      ∃ size, error = .fileTooLarge size limit ∧ limit < size) ∧
    (∀ sizes,
      (loadInPieces sizes fileSystem path limit).result = load fileSystem path limit ∧
      (loadInPieces sizes fileSystem path limit).taken.length ≤ limit + 1) ∧
    ∀ (other : FileSystem) (stream : Stream),
      other.find path = .ok (.file ⟨file.size, stream⟩) →
      stream.take (limit + 1) = file.stream.take (limit + 1) →
      load other path limit = load fileSystem path limit := by
  refine ⟨fun bytes => load_eq_ok_iff_of_file found below, load_of_large found,
    load_of_exceeds found below, fun error => exists_size_of_load_error found, ?_, ?_⟩
  · intro sizes
    exact ⟨result_loadInPieces sizes fileSystem path limit,
      length_taken_le sizes fileSystem path limit⟩
  · intro other stream otherFound same
    rw [load_file found, load_file otherFound, readBound_eq below, same]

/-- A device that reports no octets and yields zeros without end. -/
def zeros : FileSystem :=
  ⟨fun _ => .ok (.file ⟨0, .endless fun _ => 0⟩)⟩

/-- Reading the device comes to an end one octet above the limit, also when that is the
last number below the greatest word. -/
theorem load_zeros :
    zeros.find "zero" = .ok (.file ⟨0, .endless fun _ => 0⟩) ∧
    0xFFFFFFFFFFFFFFFE < Decimal.maxWord ∧
    load zeros "zero" 0xFFFFFFFFFFFFFFFE =
      .error (.fileTooLarge 0xFFFFFFFFFFFFFFFF 0xFFFFFFFFFFFFFFFE) ∧
    (loadInPieces (fun _ => 8191) zeros "zero" 0xFFFFFFFFFFFFFFFE).taken.length ≤
      0xFFFFFFFFFFFFFFFF := by
  have found : zeros.find "zero" = .ok (.file ⟨0, .endless fun _ => 0⟩) := rfl
  have below : 0xFFFFFFFFFFFFFFFE < Decimal.maxWord := by decide
  obtain ⟨-, -, refused, -, pieces, -⟩ := load_whole_or_refused found below
  exact ⟨found, below, refused (Nat.zero_le _) nofun, (pieces _).2⟩

end Hashing

/-! ## The limits of a run -/

namespace Command

open Hashing

/-- A run asks its reader only for files under a limit that is a signed word. -/
theorem runWith_congr {reader other : Reader} {fileSystem : FileSystem}
    (same : ∀ path limit, limit ≤ Decimal.maxSigned →
      reader fileSystem path limit = other fileSystem path limit)
    (filterText : Option String) (words : List NativeText) :
    runWith reader filterText words fileSystem =
      runWith other filterText words fileSystem := by
  have hashed (filter : Filter) (path : NativeText) :
      hashWith reader filter fileSystem path =
        hashWith other filter fileSystem path := by
    cases loaded : Config.load fileSystem with
    | error error => simp only [hashWith, loaded]
    | ok limits =>
      have read := same path _ (Config.load_eq_ok_iff.1 loaded).signed.1
      simp only [hashWith, hashFileWith, loaded, read]
  simp only [runWith, hashed]

/-- Reads a whole file of at most `limit` octets, all at once, where the limit and one
is a number of any size. -/
def loadUnbounded : Reader := fun fileSystem path limit =>
  (readBy (Stream.take (limit + 1)) fileSystem path limit).result

/-- Every limit of size that is loaded is a signed word, and so is every limit of depth.
The number of octets that may be taken is then a word, and it is above the limit.  For
this reason a run of the command, in which this number is added up in words, goes as if
it were counted without end, and as if files were read in pieces, however these fall. -/
theorem run_in_words (fileSystem : FileSystem) :
    (∀ limits, Config.load fileSystem = .ok limits →
      limits.maxFileSize ≤ Decimal.maxSigned ∧ limits.maxDepth ≤ Decimal.maxSigned ∧
      limits.maxFileSize + 1 ≤ Decimal.maxWord ∧
      limits.maxFileSize < readBound limits.maxFileSize) ∧
    ∀ filterText words,
      runWith loadUnbounded filterText words fileSystem =
        run filterText words fileSystem ∧
      ∀ sizes,
        runWith
            (fun fileSystem path limit =>
              (loadInPieces sizes fileSystem path limit).result)
            filterText words fileSystem =
          run filterText words fileSystem := by
  have small : Decimal.maxSigned < Decimal.maxWord := by decide
  constructor
  · intro limits loaded
    have signed := (Config.load_eq_ok_iff.1 loaded).signed
    refine ⟨signed.1, signed.2, by omega, ?_⟩
    rw [readBound_eq (by omega)]
    exact Nat.lt_succ_self _
  · intro filterText words
    constructor
    · refine runWith_congr ?_ filterText words
      intro path limit signed
      rw [loadUnbounded, load, readBound_eq (by omega)]
    · intro sizes
      refine runWith_congr ?_ filterText words
      intro path limit signed
      exact result_loadInPieces sizes fileSystem path limit

/-- A configuration with the greatest numbers that it can hold. -/
def greatestText : String :=
  "max_file_size = 0x7FFF_FFFF_FFFF_FFFF\nmax_depth = +9_223_372_036_854_775_807"

/-- A system in which the only file is this configuration. -/
def greatestLimits : FileSystem :=
  ⟨fun path =>
    if path = Config.fileName then .ok (.file (.ofBytes (Bytes.ofString greatestText)))
    else .error .notFound⟩

/-- The greatest numbers are loaded, and one octet more than the limit may still be
taken. -/
theorem load_greatestLimits :
    Config.load greatestLimits = .ok ⟨Decimal.maxSigned, Decimal.maxSigned⟩ ∧
    Decimal.maxSigned < readBound Decimal.maxSigned ∧
    runWith loadUnbounded none ["a.torrent"] greatestLimits =
      run none ["a.torrent"] greatestLimits ∧
    runWith
        (fun fileSystem path limit =>
          (loadInPieces (fun _ => 0) fileSystem path limit).result)
        none ["a.torrent"] greatestLimits =
      run none ["a.torrent"] greatestLimits := by
  have found : greatestLimits.find Config.fileName =
      .ok (.file (.ofBytes (Bytes.ofString greatestText))) := by
    simp only [greatestLimits, if_true]
  have set : Config.ofText? greatestText =
      some ⟨Decimal.maxSigned, Decimal.maxSigned⟩ := by
    decide +kernel
  have loaded :
      Config.load greatestLimits = .ok ⟨Decimal.maxSigned, Decimal.maxSigned⟩ :=
    Config.load_eq_ok_iff.2 (.present found (Utf8.decode?_eq_some_iff.2 rfl) set)
  have inWords := run_in_words greatestLimits
  obtain ⟨unbounded, inPieces⟩ := inWords.2 none ["a.torrent"]
  exact ⟨loaded, (inWords.1 _ loaded).2.2.2, unbounded, inPieces _⟩

end Command

end Metainfo
