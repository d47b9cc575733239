import Metainfo.Proofs.CommandLine
import Metainfo.Proofs.LogRecords
import Metainfo.Proofs.Torrent.Summary

/-!
# What the records tell of a summary

A summary is made for the records alone.  Main statement: whether octets have an
info-hash, and which one, depends neither on their summary nor on the threshold.  Once
records of level `debug` are let through, one of them tells the digits of the info-hash
if there is a summary, and a warning tells why if there is none.
-/

namespace Metainfo.Hashing

open Bencode Log

variable {threshold : Threshold} {limits : Limits} {bytes : Bytes} {top : Value}
  {hash : InfoHash} {records others warned alsoWarned told alsoTold : List Record}
  {level : Level} {message : String}

/-- What a message that tells an info-hash begins with. -/
def hashHeading : String := "  Info Hash: "

/-- Whether a message tells an info-hash. -/
def tellsHash (message : String) : Bool :=
  hashHeading.toList.isPrefixOf message.toList

/-- The record that tells an info-hash by these digits. -/
def hashLine (digits : String) : Record :=
  ⟨.debug, target, hashHeading ++ digits⟩

/-- The warning that tells why there is no summary. -/
def noSummary (error : Torrent.Error) : Record :=
  ⟨.warn, target, "Could not summarize torrent metadata: " ++ error.message⟩

/-- The warnings among the records, and those of the records that tell an info-hash. -/
structure Tells (records warned told : List Record) : Prop where
  warnings : (records.filter fun record => record.level = .warn) = warned
  hashLines : (records.filter fun record => tellsHash record.message) = told

/-- A run that fails gives no warning and tells no info-hash.  One that succeeds tells
the info-hash if there is a summary, by the two digits of each of its octets, and warns
if there is none. -/
structure TellsSummary (limits : Limits) (bytes : Bytes)
    (run : Logged (Except Error InfoHash)) : Prop where
  failed {error : Error} : run.result = .error error → Tells run.records [] []
  summarised {hash : InfoHash} {top : Value} {torrent : Torrent} :
    run.result = .ok hash →
    decode limits.maxDepth bytes = .ok top → Torrent.ofValue top = .ok torrent →
    ∃ digits, Hex.Shows digits hash.toBytes ∧ digits.toList.length = 40 ∧
      Tells run.records [] [hashLine digits]
  unsummarised {hash : InfoHash} {top : Value} {error : Torrent.Error} :
    run.result = .ok hash →
    decode limits.maxDepth bytes = .ok top → Torrent.ofValue top = .error error →
    Tells run.records [noSummary error] []

/-! ## Messages that tell no info-hash -/

/-- The message and the heading differ at a place that both have. -/
def Departs (message : String) : Prop :=
  ¬hashHeading.toList <+: message.toList ∧ ¬message.toList <+: hashHeading.toList

instance (message : String) : Decidable (Departs message) :=
  inferInstanceAs (Decidable (_ ∧ _))

theorem Departs.append (departs : Departs message) (rest : String) :
    Departs (message ++ rest) := by
  obtain ⟨apart, short⟩ := departs
  simp only [Departs, String.toList_append]
  constructor
  · intro heading
    rcases List.prefix_or_prefix_of_prefix heading (List.prefix_append ..)
      with within | beyond
    · exact apart within
    · exact short beyond
  · intro whole
    exact short ((List.prefix_append ..).trans whole)

theorem Departs.tellsHash_eq_false (departs : Departs message) :
    tellsHash message = false := by
  rw [tellsHash, Bool.eq_false_iff, ne_eq, List.isPrefixOf_iff_prefix]
  exact departs.1

theorem tellsHash_heading_append (rest : String) :
    tellsHash (hashHeading ++ rest) = true := by
  rw [tellsHash, List.isPrefixOf_iff_prefix, String.toList_append]
  exact List.prefix_append ..

/-- One of the lines that describe a torrent tells the info-hash. -/
theorem filter_summaryLines (hash : InfoHash) (torrent : Torrent) :
    (summaryLines hash torrent).filter tellsHash = [hashHeading ++ hash.toHex] := by
  have tells : tellsHash ("  Info Hash: " ++ hash.toHex) = true :=
    tellsHash_heading_append _
  have untold {front : String} (rest : String) (departs : Departs front) :
      tellsHash (front ++ rest) = false := (departs.append rest).tellsHash_eq_false
  unfold summaryLines
  -- A date and a number of files are told only of some torrents.
  cases torrent.creationDate <;> cases torrent.info.isMultiFile <;>
    simp (disch := decide) [tells, untold, List.filter_cons, hashHeading]

/-! ## Records of a run -/

theorem Tells.append (tells : Tells records warned told)
    (tellsToo : Tells others alsoWarned alsoTold) :
    Tells (records ++ others) (warned ++ alsoWarned) (told ++ alsoTold) := by
  constructor
  · rw [List.filter_append, tells.warnings, tellsToo.warnings]
  · rw [List.filter_append, tells.hashLines, tellsToo.hashLines]

theorem tells_emit (other : level ≠ .warn) (departs : Departs message) :
    Tells (emit threshold level target message) [] [] := by
  have untold := departs.tellsHash_eq_false
  by_cases shown : threshold.allows level <;> constructor
    <;> simp [emit, shown, other, untold]

theorem tells_decoding (threshold : Threshold) (bytes : Bytes) :
    Tells (emit threshold .debug target s!"Decoding {bytes.length} bytes") [] [] := by
  have departs : Departs "Decoding " := by decide
  exact tells_emit (by decide) ((departs.append _).append _)

theorem tells_traceRecords (threshold : Threshold) (top : Value) :
    Tells (traceRecords threshold top) [] [] := by
  rw [traceRecords_eq]
  cases InfoHash.infoEntries top with
  | error error => exact ⟨rfl, rfl⟩
  | ok entries =>
    have departs : Departs "info dictionary: " := by decide
    exact tells_emit (by decide) (departs.append _)

theorem flatMap_emit (shown : threshold.allows level) (messages : List String) :
    messages.flatMap (emit threshold level target) =
      messages.map fun message => ⟨level, target, message⟩ := by
  rw [List.map_eq_flatMap]
  congr 1
  funext message
  rw [emit, if_pos shown]

theorem tells_summaryRecords_of_ok (detailed : threshold.allows .debug)
    {torrent : Torrent} (summary : Torrent.ofValue top = .ok torrent)
    (hash : InfoHash) :
    Tells (summaryRecords threshold top hash) [] [hashLine hash.toHex] := by
  have records : summaryRecords threshold top hash =
      (summaryLines hash torrent).map fun line => ⟨.debug, target, line⟩ := by
    simp only [summaryRecords, detailed, summary, if_true, flatMap_emit]
  rw [records]
  constructor
  · simp
  · rw [List.filter_map]
    exact congrArg (List.map _) (filter_summaryLines hash torrent)

theorem tells_summaryRecords_of_error (detailed : threshold.allows .debug)
    {error : Torrent.Error} (failed : Torrent.ofValue top = .error error)
    (hash : InfoHash) :
    Tells (summaryRecords threshold top hash) [noSummary error] [] := by
  have records : summaryRecords threshold top hash = [noSummary error] := by
    simp only [summaryRecords, detailed, failed, if_true, emit,
      Threshold.allows_warn detailed, noSummary]
  have departs : Departs "Could not summarize torrent metadata: " := by decide
  have untold : tellsHash (noSummary error).message = false :=
    (departs.append _).tellsHash_eq_false
  rw [records]
  exact ⟨rfl, by rw [List.filter_cons, untold]; rfl⟩

theorem records_of_error {error : Error}
    (failed : (hashBytes threshold limits bytes).result = .error error) :
    (hashBytes threshold limits bytes).records =
      emit threshold .debug target s!"Decoding {bytes.length} bytes" := by
  unfold hashBytes at failed ⊢
  cases decoded : decode limits.maxDepth bytes with
  | error error => rfl
  | ok top =>
    cases hashed : InfoHash.ofValue top with
    | error error => simp only [hashed]
    | ok hash =>
      simp only [decoded, hashed] at failed
      cases failed

theorem records_of_ok (hashed : (hashBytes threshold limits bytes).result = .ok hash)
    (decoded : decode limits.maxDepth bytes = .ok top) :
    (hashBytes threshold limits bytes).records =
      emit threshold .debug target s!"Decoding {bytes.length} bytes" ++
        traceRecords threshold top ++ summaryRecords threshold top hash := by
  obtain ⟨other, otherDecoded, found⟩ := result_hashBytes_eq_ok.1 hashed
  cases decoded.symm.trans otherDecoded
  rw [hashBytes, decoded]
  simp only [found]

/-- Apart from the records of the summary, those of a run tell nothing. -/
theorem Tells.of_summaryRecords
    (tells : Tells (summaryRecords threshold top hash) warned told)
    (hashed : (hashBytes threshold limits bytes).result = .ok hash)
    (decoded : decode limits.maxDepth bytes = .ok top) :
    Tells (hashBytes threshold limits bytes).records warned told := by
  rw [records_of_ok hashed decoded]
  exact ((tells_decoding threshold bytes).append
    (tells_traceRecords threshold top)).append tells

theorem tellsSummary_hashBytes (detailed : threshold.allows .debug) (limits : Limits)
    (bytes : Bytes) : TellsSummary limits bytes (hashBytes threshold limits bytes) where
  failed failed := by
    rw [records_of_error failed]
    exact tells_decoding threshold bytes
  summarised {hash} _ _ hashed decoded summary :=
    ⟨hash.toHex, hash.shows_toHex, hash.length_toHex,
      (tells_summaryRecords_of_ok detailed summary hash).of_summaryRecords hashed
        decoded⟩
  unsummarised hashed decoded failed :=
    (tells_summaryRecords_of_error detailed failed _).of_summaryRecords hashed decoded

/-! ## The info-hash -/

/-- In what octets decode to, a look-up tells the same as membership. -/
theorem get?_eq_some_iff_of_decode {limit : Nat} {key : Bytes} {value : Value}
    {entries : List (Bytes × Value)}
    (decoded : decode limit bytes = .ok (.dictionary entries)) :
    (Value.dictionary entries).get? key = some value ↔ (key, value) ∈ entries := by
  have ordered := ordered_of_decode decoded
  exact Entries.get?_eq_some_iff ordered.1.nodup

/-- Octets have an info-hash if and only if they decode, within the limit of depth, to a
dictionary with an info dictionary.  It is the digest of this, and it is the same for
every threshold.  What the records tell of the summary, from level `debug` on, comes
besides. -/
theorem hashBytes_apart_from_summary (limits : Limits) (bytes : Bytes) :
    (∀ threshold hash, (hashBytes threshold limits bytes).result = .ok hash ↔
      ∃ entries info, decode limits.maxDepth bytes = .ok (.dictionary entries) ∧
        (InfoHash.infoKey, .dictionary info) ∈ entries ∧
        hash = ⟨Sha1.digest (Value.dictionary info).encode⟩) ∧
    (∀ threshold other, (hashBytes threshold limits bytes).result =
      (hashBytes other limits bytes).result) ∧
    ∀ threshold, threshold.allows .debug →
      TellsSummary limits bytes (hashBytes threshold limits bytes) := by
  refine ⟨?_, fun threshold other => result_hashBytes_eq threshold other limits bytes,
    fun threshold detailed => tellsSummary_hashBytes detailed limits bytes⟩
  intro threshold hash
  rw [result_hashBytes_eq_ok]
  constructor
  · rintro ⟨top, decoded, hashed⟩
    obtain ⟨info, held, rfl⟩ := ofValue_eq_ok_iff.1 hashed
    cases top with
    | dictionary entries =>
      exact ⟨entries, info, decoded, (get?_eq_some_iff_of_decode decoded).1 held, rfl⟩
    | _ => cases held
  · rintro ⟨entries, info, decoded, member, rfl⟩
    have held := (get?_eq_some_iff_of_decode decoded).2 member
    exact ⟨_, decoded, ofValue_eq held⟩

/-- The info dictionary of one file. -/
def tuneInfo : List (Bytes × Value) :=
  [(Bytes.ofString "length", .ofNumber 3), (Bytes.ofString "name", .ofString "tune"),
    (Bytes.ofString "piece length", .ofNumber 16),
    (Bytes.ofString "pieces", .ofString "aaaaaaaaaaaaaaaaaaaa")]

/-- A torrent of this file. -/
def tune : Value :=
  .dictionary [(InfoHash.infoKey, .dictionary tuneInfo)]

/-- The summary of the torrent. -/
def tuneSummary : Torrent where
  announce := none
  comment := none
  creationDate := none
  info := ⟨"tune", 3, 16, [Bytes.ofString "aaaaaaaaaaaaaaaaaaaa"], []⟩

theorem decode_tune : decode Limits.default.maxDepth tune.encode = .ok tune := by
  have ordered : tune.Ordered := by
    simp [tune, tuneInfo, Value.Ordered, Value.OrderedEntries, Entries.Ascending,
      Entries.keys, Value.ofNumber, Value.ofString]
    decide
  exact decode_encode_of_ordered ordered (by decide) (by decide)

theorem ofValue_tune : Torrent.ofValue tune = .ok tuneSummary := by
  have content : Torrent.DescribesContent 3 [] tuneInfo := .single rfl rfl rfl
  have info : tuneSummary.info.Describes tuneInfo := ⟨rfl, rfl, rfl, by decide, content⟩
  have inRange : tuneSummary.info.InRange :=
    ⟨by decide, by decide, by decide, by decide⟩
  exact Torrent.ofValue_eq_ok_iff.2
    ⟨_, rfl, ⟨rfl, rfl, rfl, tuneInfo, rfl, info⟩, inRange, nofun⟩

/-- The digits of its info-hash. -/
def tuneDigits : String := "5d09704a6b67150a2c4c23bf983959724619ff5d"

theorem shows_tuneDigits :
    Hex.Shows tuneDigits (Sha1.digest (Value.dictionary tuneInfo).encode).toBytes := by
  rw [Hex.shows_iff]
  decide +kernel

/-- Of this torrent the info-hash is told, and of a nameless one that it has no
summary. -/
theorem tells_tune :
    (hashBytes (.upTo .debug) Limits.default tune.encode).result =
      .ok ⟨Sha1.digest (Value.dictionary tuneInfo).encode⟩ ∧
    Tells (hashBytes (.upTo .debug) Limits.default tune.encode).records []
      [⟨.debug, "rusbit_infohash::engine", "  Info Hash: " ++ tuneDigits⟩] ∧
    Tells (hashBytes (.upTo .trace) Limits.default nameless.encode).records
      [⟨.warn, "rusbit_infohash::engine",
        "Could not summarize torrent metadata: Missing 'name'"⟩] [] := by
  obtain ⟨tuneHash, -, tuneTells⟩ :=
    hashBytes_apart_from_summary Limits.default tune.encode
  obtain ⟨namelessHash, -, namelessTells⟩ :=
    hashBytes_apart_from_summary Limits.default nameless.encode
  have hashed := (tuneHash (.upTo .debug) _).2
    ⟨_, _, decode_tune, List.mem_singleton_self _, rfl⟩
  have otherHashed := (namelessHash (.upTo .trace) _).2
    ⟨_, _, decode_nameless, List.mem_singleton_self _, rfl⟩
  refine ⟨hashed, ?_, ?_⟩
  · obtain ⟨digits, shows, -, tells⟩ :=
      (tuneTells (.upTo .debug) rfl).summarised hashed decode_tune ofValue_tune
    rw [shows.unique shows_tuneDigits] at tells
    exact tells
  · exact (namelessTells (.upTo .trace) rfl).unsummarised otherHashed decode_nameless
      rfl

end Metainfo.Hashing
