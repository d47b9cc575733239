import Metainfo.Command.Run
import Metainfo.Proofs.InfoSlice
import Metainfo.Proofs.Utf8

/-!
# The command with one path

Given a path the command prints one line or none.  Main statement: it prints the two
digits of each octet of the info-hash, and its exit status tells success, exactly if
limits are set in the working directory and the path leads to a torrent within them;
otherwise its last message names the stage that failed.  A configuration file that
exists but cannot be opened sets no limits.  The log filter, whatever it is, has no part
in it.
-/

namespace Metainfo

open Bencode Files Log

variable {fileSystem : FileSystem} {path : NativeText} {limits : Limits} {limit : Nat}
  {bytes : Bytes} {info : List (Bytes × Value)}

/-! ## Loading the limits -/

namespace Config

/-- No configuration file is found and the limits are the defaults, or one is found, can
be read, and its text sets the limits. -/
inductive Sets (fileSystem : FileSystem) : Limits → Prop where
  | absent {fault : Fault} :
      fileSystem.find fileName = .error fault → Sets fileSystem Limits.default
  | present {size : Nat} {bytes : Bytes} {text : String} {limits : Limits} :
      fileSystem.find fileName = .ok (.file ⟨size, .finite bytes⟩) →
      Utf8.decode? bytes = some text → ofText? text = some limits →
      Sets fileSystem limits

theorem ofFile_eq_ok_iff :
    ofFile fileSystem path = .ok limits ↔
      ∃ size bytes text, fileSystem.find path = .ok (.file ⟨size, .finite bytes⟩) ∧
        Utf8.decode? bytes = some text ∧ ofText? text = some limits := by
  constructor
  · intro loaded
    unfold ofFile at loaded
    split at loaded
    case h_5 size bytes found =>
      cases text : Utf8.decode? bytes with
      | none => simp [text] at loaded
      | some text' =>
        cases set : ofText? text' with
        | none => simp [text, set] at loaded
        | some limits' =>
          simp only [text, set] at loaded
          cases loaded
          exact ⟨size, bytes, text', found, text, set⟩
    all_goals cases loaded
  · rintro ⟨size, bytes, text, found, decoded, set⟩
    simp only [ofFile, found, decoded, set]

theorem load_eq_ok_iff : load fileSystem = .ok limits ↔ Sets fileSystem limits := by
  constructor
  · intro loaded
    unfold load at loaded
    split at loaded
    case h_1 fault missing =>
      cases loaded
      exact .absent missing
    case h_2 node found =>
      obtain ⟨size, bytes, text, file, decoded, set⟩ := ofFile_eq_ok_iff.1 loaded
      exact .present file decoded set
  · intro sets
    cases sets with
    | absent missing => simp only [load, missing]
    | present found decoded set =>
      simp only [load, found]
      exact ofFile_eq_ok_iff.2 ⟨_, _, _, found, decoded, set⟩

/-- A limit in a document is a signed word. -/
theorem limit?_le {table : Toml.Table} {key : String} {absent limit : Nat}
    (found : limit? table key absent = some limit)
    (small : absent ≤ Decimal.maxSigned) : limit ≤ Decimal.maxSigned := by
  unfold limit? at found
  split at found
  case h_1 =>
    cases found
    exact small
  case h_2 value _ =>
    split at found
    · cases found
      have bound := value.toInt_lt
      have greatest : (Decimal.maxSigned : Int) = 2 ^ 63 - 1 := by decide
      omega
    · cases found
  case h_3 => cases found

/-- The limits that are set are signed words. -/
theorem Sets.signed (sets : Sets fileSystem limits) :
    limits.maxFileSize ≤ Decimal.maxSigned ∧ limits.maxDepth ≤ Decimal.maxSigned := by
  cases sets with
  | absent => decide
  | present found decoded set =>
    simp only [ofText?, Option.bind_eq_bind, Option.bind_eq_some_iff] at set
    obtain ⟨table, -, maxFileSize, size, maxDepth, depth, made⟩ := set
    cases made
    exact ⟨limit?_le size (by decide), limit?_le depth (by decide)⟩

end Config

/-! ## Hashing a file -/

namespace Hashing

variable {hash : InfoHash}

/-- The path leads to a file that reports and holds at most `limit` octets, and these
are what it holds. -/
def Holds (fileSystem : FileSystem) (path : NativeText) (limit : Nat) (bytes : Bytes) :
    Prop :=
  ∃ size, fileSystem.find path = .ok (.file ⟨size, .finite bytes⟩) ∧ size ≤ limit ∧
    bytes.length ≤ limit

theorem Holds.length_le (holds : Holds fileSystem path limit bytes) :
    bytes.length ≤ limit := by
  obtain ⟨-, -, -, few⟩ := holds
  exact few

/-- Reading has a result only for a file that does not report too much, and then it is
what has been taken, if that is not too much. -/
theorem result_readBy_eq_ok_iff {take : Stream → Bytes} :
    (readBy take fileSystem path limit).result = .ok bytes ↔
      ∃ file, fileSystem.find path = .ok (.file file) ∧ file.size ≤ limit ∧
        take file.stream = bytes ∧ bytes.length ≤ limit := by
  constructor
  · intro read
    unfold readBy at read
    split at read
    case h_4 file found =>
      split at read
      case isTrue => cases read
      case isFalse small =>
        simp only at read
        split at read
        case isTrue => cases read
        case isFalse few =>
          cases read
          exact ⟨file, found, Nat.le_of_not_lt small, rfl, Nat.le_of_not_lt few⟩
    all_goals cases read
  · rintro ⟨file, found, small, rfl, few⟩
    simp only [readBy, found, Nat.not_lt.2 small, Nat.not_lt.2 few, if_false]

/-- Whether a stream holds at most `limit` octets is seen from the first `limit + 1` of
them. -/
theorem length_take_le_iff {stream : Stream} :
    (stream.take (limit + 1)).length ≤ limit ↔
      ∃ bytes, stream = .finite bytes ∧ bytes.length ≤ limit := by
  cases stream with
  | endless octetAt => simp [Stream.take]
  | finite content =>
    simp only [Stream.take, List.length_take, Stream.finite.injEq, exists_eq_left']
    omega

/-- A limit below the greatest word can be counted up. -/
theorem readBound_eq (below : limit < Decimal.maxWord) : readBound limit = limit + 1 :=
  Nat.mod_eq_of_lt (by omega)

theorem load_eq_ok_iff (below : limit < Decimal.maxWord) :
    load fileSystem path limit = .ok bytes ↔ Holds fileSystem path limit bytes := by
  rw [load, result_readBy_eq_ok_iff, readBound_eq below]
  constructor
  · rintro ⟨⟨size, stream⟩, found, small, rfl, few⟩
    obtain ⟨content, rfl, whole⟩ := length_take_le_iff.1 few
    have all : content.take (limit + 1) = content := List.take_of_length_le (by omega)
    rw [Stream.take, all]
    exact ⟨size, found, small, whole⟩
  · rintro ⟨size, found, small, whole⟩
    have all : bytes.take (limit + 1) = bytes := List.take_of_length_le (by omega)
    exact ⟨_, found, small, all, whole⟩

/-- The octets are a text of the grammar for a dictionary that lies no deeper than
`limit`, and `info` has these entries in it. -/
def Describes (limit : Nat) (bytes : Bytes) (info : List (Bytes × Value)) : Prop :=
  ∃ entries, Derives bytes (.dictionary entries) ∧
    (Value.dictionary entries).depth ≤ limit ∧
    (InfoHash.infoKey, Value.dictionary info) ∈ entries

/-- A value has an info-hash if and only if it is a dictionary with an info
dictionary. -/
theorem ofValue_eq_ok_iff {top : Value} :
    InfoHash.ofValue top = .ok hash ↔
      ∃ info, top.get? InfoHash.infoKey = some (.dictionary info) ∧
        hash = ⟨Sha1.digest (Value.dictionary info).encode⟩ := by
  constructor
  · intro hashed
    cases held : top.get? InfoHash.infoKey with
    | none =>
      rw [InfoHash.ofValue, InfoHash.infoBytes, InfoHash.infoEntries, held] at hashed
      cases hashed
    | some value =>
      cases value with
      | dictionary info =>
        rw [ofValue_eq held] at hashed
        cases hashed
        exact ⟨info, rfl, rfl⟩
      | _ =>
        rw [InfoHash.ofValue, InfoHash.infoBytes, InfoHash.infoEntries, held] at hashed
        cases hashed
  · rintro ⟨info, held, rfl⟩
    exact ofValue_eq held

/-- Octets have the info-hash of what they decode to. -/
theorem result_hashBytes_eq_ok {threshold : Threshold} :
    (hashBytes threshold limits bytes).result = .ok hash ↔
      ∃ top, decode limits.maxDepth bytes = .ok top ∧
        InfoHash.ofValue top = .ok hash := by
  unfold hashBytes
  cases decode limits.maxDepth bytes with
  | error error => simp
  | ok top => cases hashed : InfoHash.ofValue top <;> simp [hashed]

end Hashing

/-! ## Running the command -/

namespace Command

open Hashing

/-- Nothing is printed, and the last message tells what was being done. -/
structure Outcome.FailsAt (outcome : Outcome) (context : String) : Prop where
  status : outcome.status = 1
  output : outcome.output = ""
  message : ∃ cause,
    outcome.errors.getLast? = some ("Error: " ++ context ++ ": " ++ cause)

variable {outcome : Outcome} {context : String}

theorem Outcome.FailsAt.warned (fails : outcome.FailsAt context)
    (warnings : List String) :
    Outcome.FailsAt { outcome with errors := warnings ++ outcome.errors } context := by
  obtain ⟨status, output, cause, last⟩ := fails
  refine ⟨status, output, cause, ?_⟩
  simp [List.getLast?_append, last]

end Command

end Metainfo
