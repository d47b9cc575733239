import Metainfo.Proofs.InfoSlice

/-!
# Log records under two thresholds

A more verbose threshold ought to add records to those that a less verbose one lets
through, and to leave these alone.  The records written while a torrent is hashed come
close to it.  Why a torrent has no summary is told in a warning, yet the summary is not
looked for unless records of level `debug` are let through.  Main statement: this
warning, under a threshold that lets it through but not `debug`, is all that is ever
missing.
-/

namespace Metainfo

namespace Log

variable {threshold lower upper : Threshold} {level : Level} {record : Record}

/-- Whatever the first threshold lets through, the second one lets through as well. -/
def Threshold.Within (lower upper : Threshold) : Prop :=
  ∀ level, lower.allows level → upper.allows level

/-- A threshold that lets through a level lets through the more important ones. -/
theorem Threshold.allows_of_le {other : Level}
    (important : level.verbosity ≤ other.verbosity) (allowed : threshold.allows other) :
    threshold.allows level := by
  cases threshold with
  | off => cases allowed
  | upTo limit =>
    simp only [allows, decide_eq_true_eq] at allowed ⊢
    exact important.trans allowed

theorem Threshold.allows_warn (detailed : threshold.allows .debug) :
    threshold.allows .warn :=
  allows_of_le (by decide) detailed

theorem Threshold.within_upTo_iff {lower upper : Level} :
    (Threshold.upTo lower).Within (.upTo upper) ↔
      lower.verbosity ≤ upper.verbosity := by
  constructor
  · intro within
    have allowed := within lower (by simp [allows])
    simpa [allows] using allowed
  · intro important level allowed
    simp only [allows, decide_eq_true_eq] at allowed ⊢
    exact allowed.trans important

theorem mem_emit {target message : String} :
    record ∈ emit threshold level target message ↔
      threshold.allows level ∧ record = ⟨level, target, message⟩ := by
  unfold emit
  split <;> simp_all

/-- Thresholds that let through a level give the same records of it. -/
theorem emit_eq (first : lower.allows level) (second : upper.allows level) :
    emit lower level = emit upper level := by
  funext target message
  rw [emit, emit, if_pos first, if_pos second]

/-- Those of the records that a threshold lets through. -/
def allowed (threshold : Threshold) (records : List Record) : List Record :=
  records.filter fun record => threshold.allows record.level

/-- There is a warning among the records. -/
def Warns (records : List Record) : Prop :=
  ∃ record ∈ records, record.level = .warn

@[simp] theorem not_warns_nil : ¬Warns [] := by
  simp [Warns]

@[simp] theorem warns_append {records others : List Record} :
    Warns (records ++ others) ↔ Warns records ∨ Warns others := by
  simp only [Warns, List.mem_append, or_and_right, exists_or]

@[simp] theorem warns_emit {target message : String} :
    Warns (emit threshold level target message) ↔
      threshold.allows .warn ∧ level = .warn := by
  simp only [Warns, mem_emit]
  constructor
  · rintro ⟨_, ⟨shown, rfl⟩, rfl⟩
    exact ⟨shown, rfl⟩
  · rintro ⟨shown, rfl⟩
    exact ⟨_, ⟨shown, rfl⟩, rfl⟩

end Log

namespace Hashing

open Bencode Files Log

variable {threshold lower upper : Threshold} {limits : Limits} {bytes : Bytes}
  {top : Value} {hash : InfoHash} {fileSystem : FileSystem} {path : NativeText}
  {record : Record} {written others : Threshold → List Record}

/-! ## What a threshold lets be written -/

/-- Whether a record is written: its level has to be let through, and a warning moreover
needs the level `debug`. -/
def writes (threshold : Threshold) (record : Record) : Bool :=
  threshold.allows record.level && (record.level ≠ .warn || threshold.allows .debug)

/-- For two thresholds, one within the other, what is written under the first can be
picked from what is written under the second. -/
def Narrows (written : Threshold → List Record) : Prop :=
  ∀ ⦃lower upper : Threshold⦄, lower.Within upper →
    written lower = (written upper).filter (writes lower)

theorem writes_of_ne_warn {level : Level} (other : level ≠ .warn)
    (target message : String) :
    writes threshold ⟨level, target, message⟩ = threshold.allows level := by
  simp [writes, other]

theorem writes_iff_of_detail (detail : record.level = .debug ∨ record.level = .warn) :
    writes threshold record ↔ threshold.allows .debug := by
  rcases detail with level | level
  · simp [writes, level]
  · simpa [writes, level] using Threshold.allows_warn

theorem narrows_emit {level : Level} (other : level ≠ .warn) (target message : String) :
    Narrows fun threshold => emit threshold level target message := by
  intro lower upper within
  by_cases shown : lower.allows level
  · simp [emit, shown, within level shown, writes_of_ne_warn other]
  · by_cases verbose : upper.allows level
      <;> simp [emit, shown, verbose, writes_of_ne_warn other]

theorem narrows_nil : Narrows fun _ => [] := by
  intro lower upper within
  rfl

theorem Narrows.append (first : Narrows written) (second : Narrows others) :
    Narrows fun threshold => written threshold ++ others threshold := by
  intro lower upper within
  simp only [List.filter_append, ← first within, ← second within]

/-- The info dictionary is told as a whole whenever the level `trace` is let through. -/
theorem traceRecords_eq (threshold : Threshold) (top : Value) :
    traceRecords threshold top =
      match InfoHash.infoEntries top with
      | .error _ => []
      | .ok entries =>
          emit threshold .trace target
            ("info dictionary: " ++ (Value.dictionary entries).toJson.text) := by
  unfold traceRecords
  split
  case isTrue => rfl
  case isFalse silent => cases InfoHash.infoEntries top <;> simp [emit, silent]

theorem narrows_traceRecords (top : Value) :
    Narrows fun threshold => traceRecords threshold top := by
  simp only [traceRecords_eq]
  cases InfoHash.infoEntries top with
  | error error => exact narrows_nil
  | ok entries => exact narrows_emit (by decide) _ _

theorem mem_summaryRecords :
    record ∈ summaryRecords threshold top hash ↔ threshold.allows .debug ∧
      ((∃ torrent, Torrent.ofValue top = .ok torrent ∧
          ∃ line ∈ summaryLines hash torrent, record = ⟨.debug, target, line⟩) ∨
        ∃ error, Torrent.ofValue top = .error error ∧
          record =
            ⟨.warn, target,
              "Could not summarize torrent metadata: " ++ error.message⟩) := by
  unfold summaryRecords
  by_cases detailed : threshold.allows .debug
  · cases summary : Torrent.ofValue top with
    | error error => simp [detailed, mem_emit, Threshold.allows_warn detailed]
    | ok torrent => simp [detailed, mem_emit]
  · simp [detailed]

/-- Thresholds that let through the level `debug` give the same summary. -/
theorem summaryRecords_eq (first : lower.allows .debug) (second : upper.allows .debug)
    (top : Value) (hash : InfoHash) :
    summaryRecords lower top hash = summaryRecords upper top hash := by
  unfold summaryRecords
  rw [if_pos first, if_pos second, emit_eq first second,
    emit_eq (Threshold.allows_warn first) (Threshold.allows_warn second)]

theorem narrows_summaryRecords (top : Value) (hash : InfoHash) :
    Narrows fun threshold => summaryRecords threshold top hash := by
  intro lower upper within
  -- A record of the summary is of level `debug` or a warning, and both take the level
  -- `debug`.
  have written (record : Record) (member : record ∈ summaryRecords upper top hash) :
      writes lower record ↔ lower.allows .debug := by
    apply writes_iff_of_detail
    obtain ⟨-, ⟨_, -, _, -, rfl⟩ | ⟨_, -, rfl⟩⟩ := mem_summaryRecords.1 member
    · exact .inl rfl
    · exact .inr rfl
  by_cases detailed : lower.allows .debug
  · have all : (summaryRecords upper top hash).filter (writes lower) =
        summaryRecords upper top hash := by
      rw [List.filter_eq_self]
      intro record member
      exact (written record member).2 detailed
    exact (summaryRecords_eq detailed (within .debug detailed) top hash).trans all.symm
  · have none : (summaryRecords upper top hash).filter (writes lower) = [] := by
      rw [List.filter_eq_nil_iff]
      intro record member shown
      exact detailed ((written record member).1 shown)
    exact (if_neg detailed).trans none.symm

theorem narrows_hashBytes (limits : Limits) (bytes : Bytes) :
    Narrows fun threshold => (hashBytes threshold limits bytes).records := by
  have size := narrows_emit (show Level.debug ≠ .warn by decide) target
    s!"Decoding {bytes.length} bytes"
  unfold hashBytes
  cases decode limits.maxDepth bytes with
  | error error => exact size
  | ok top =>
    cases hashed : InfoHash.ofValue top with
    | error error => simpa only [hashed] using size
    | ok hash =>
      simp only [hashed]
      exact (size.append (narrows_traceRecords top)).append
        (narrows_summaryRecords top hash)

/-- What is written does not bear on the result. -/
theorem result_hashBytes_eq (threshold other : Threshold) (limits : Limits)
    (bytes : Bytes) :
    (hashBytes threshold limits bytes).result =
      (hashBytes other limits bytes).result := by
  unfold hashBytes
  cases decode limits.maxDepth bytes with
  | error error => rfl
  | ok top => cases hashed : InfoHash.ofValue top <;> simp only [hashed]

/-- The records of a file in terms of those of its content: what is loaded is told
before them, and the info-hash after them. -/
theorem records_hashFile (threshold : Threshold) (limits : Limits)
    (fileSystem : FileSystem) (path : NativeText) :
    (hashFile threshold limits fileSystem path).records =
      emit threshold .info target ("Loading torrent file from " ++ path.display) ++
        match load fileSystem path limits.maxFileSize with
        | .error _ => []
        | .ok bytes =>
            (hashBytes threshold limits bytes).records ++
              match (hashBytes threshold limits bytes).result with
              | .error _ => []
              | .ok hash =>
                  emit threshold .info target
                    ("Info hash of " ++ path.display ++ ": " ++ hash.toHex) := by
  unfold hashFile hashFileWith
  cases load fileSystem path limits.maxFileSize with
  | error error => simp
  | ok bytes =>
    cases hashed : (hashBytes threshold limits bytes).result <;> simp [hashed]

theorem narrows_hashFile (limits : Limits) (fileSystem : FileSystem)
    (path : NativeText) :
    Narrows fun threshold => (hashFile threshold limits fileSystem path).records := by
  have loading := narrows_emit (show Level.info ≠ .warn by decide) target
    ("Loading torrent file from " ++ path.display)
  simp only [records_hashFile]
  apply loading.append
  cases load fileSystem path limits.maxFileSize with
  | error error => exact narrows_nil
  | ok bytes =>
    apply (narrows_hashBytes limits bytes).append
    simp only [result_hashBytes_eq _ .off]
    cases (hashBytes .off limits bytes).result with
    | error error => exact narrows_nil
    | ok hash => exact narrows_emit (by decide) _ _

/-! ## The missing warning -/

/-- The octets are those of a torrent that can be hashed but has no summary. -/
def Unsummarised (limits : Limits) (bytes : Bytes) : Prop :=
  ∃ top hash error, decode limits.maxDepth bytes = .ok top ∧
    InfoHash.ofValue top = .ok hash ∧
    Torrent.ofValue top = .error error

theorem not_warns_traceRecords (threshold : Threshold) (top : Value) :
    ¬Warns (traceRecords threshold top) := by
  rw [traceRecords_eq]
  cases InfoHash.infoEntries top <;> simp

theorem warns_summaryRecords :
    Warns (summaryRecords threshold top hash) ↔
      threshold.allows .debug ∧ ∃ error, Torrent.ofValue top = .error error := by
  simp only [Warns, mem_summaryRecords]
  constructor
  · rintro ⟨record, ⟨detailed, ⟨_, -, _, -, rfl⟩ | ⟨error, failed, -⟩⟩, level⟩
    · cases level
    · exact ⟨detailed, error, failed⟩
  · rintro ⟨detailed, error, failed⟩
    exact ⟨_, ⟨detailed, .inr ⟨error, failed, rfl⟩⟩, rfl⟩

theorem warns_hashBytes :
    Warns (hashBytes threshold limits bytes).records ↔
      threshold.allows .debug ∧ Unsummarised limits bytes := by
  unfold hashBytes Unsummarised
  cases decode limits.maxDepth bytes with
  | error error => simp
  | ok top =>
    cases hashed : InfoHash.ofValue top <;>
      simp [hashed, not_warns_traceRecords, warns_summaryRecords]

theorem warns_hashFile :
    Warns (hashFile threshold limits fileSystem path).records ↔
      threshold.allows .debug ∧
        ∃ bytes, load fileSystem path limits.maxFileSize = .ok bytes ∧
          Unsummarised limits bytes := by
  rw [records_hashFile]
  cases load fileSystem path limits.maxFileSize with
  | error error => simp
  | ok bytes =>
    cases hashed : (hashBytes threshold limits bytes).result
      <;> simp [hashed, warns_hashBytes]

/-- The first threshold lets through warnings but not the level `debug`, which the
second one lets through. -/
def Hides (lower upper : Threshold) : Prop :=
  lower.allows .warn ∧ ¬lower.allows .debug ∧ upper.allows .debug

/-- The only records that a less verbose threshold loses, although it lets them through,
are warnings. -/
theorem Narrows.eq_allowed_iff (narrows : Narrows written)
    (within : lower.Within upper) :
    written lower = allowed lower (written upper) ↔
      ¬(lower.allows .warn ∧ ¬lower.allows .debug ∧ Warns (written upper)) := by
  rw [narrows within, allowed]
  constructor
  · rintro same ⟨warned, brief, record, member, level⟩
    have shown : record ∈ (written upper).filter fun record =>
      lower.allows record.level := by
      rw [List.mem_filter, level]
      exact ⟨member, warned⟩
    rw [← same, List.mem_filter, writes_iff_of_detail (.inr level)] at shown
    exact brief shown.2
  · intro complete
    apply List.filter_congr
    intro record member
    -- Only for a warning does it matter whether `debug` is let through as well.
    by_cases level : record.level = .warn
    · have both : lower.allows .warn → lower.allows .debug := by
        intro warned
        by_contra brief
        exact complete ⟨warned, brief, record, member, level⟩
      simpa [writes, level] using both
    · simp [writes, level]

/-- A less verbose threshold loses nothing that it lets through, unless the torrent has
no summary and the threshold lets through warnings but not the level `debug`, which the
other one does.  What it loses then is the warning.  This holds for octets and for
files. -/
theorem records_eq_allowed_iff (within : lower.Within upper) (limits : Limits)
    (bytes : Bytes) (fileSystem : FileSystem) (path : NativeText) :
    ((hashBytes lower limits bytes).records =
      allowed lower (hashBytes upper limits bytes).records ↔
      ¬(Hides lower upper ∧ Unsummarised limits bytes)) ∧
    (hashBytes lower limits bytes).records =
      (hashBytes upper limits bytes).records.filter (writes lower) ∧
    ((hashFile lower limits fileSystem path).records =
        allowed lower (hashFile upper limits fileSystem path).records ↔
      ¬(Hides lower upper ∧
        ∃ bytes, load fileSystem path limits.maxFileSize = .ok bytes ∧
          Unsummarised limits bytes)) ∧
    (hashFile lower limits fileSystem path).records =
      (hashFile upper limits fileSystem path).records.filter (writes lower) := by
  have octets := narrows_hashBytes limits bytes
  have file := narrows_hashFile limits fileSystem path
  refine ⟨?_, octets within, ?_, file within⟩
  · rw [octets.eq_allowed_iff within, warns_hashBytes, Hides, and_assoc, and_assoc]
  · rw [file.eq_allowed_iff within, warns_hashFile, Hides, and_assoc, and_assoc]

/-- A torrent that has no summary, for want of a name. -/
def nameless : Value :=
  .dictionary
    [(InfoHash.infoKey, .dictionary [(Bytes.ofString "foo", .integer (.ofInt 1))])]

theorem decode_nameless :
    decode Limits.default.maxDepth nameless.encode = .ok nameless := by
  have ordered : nameless.Ordered := by
    simp [nameless, Value.Ordered, Value.OrderedEntries, Entries.Ascending,
      Entries.keys]
  exact decode_encode_of_ordered ordered (by decide) (by decide)

theorem unsummarised_nameless : Unsummarised Limits.default nameless.encode :=
  ⟨nameless, _, .missing "name", decode_nameless, ofValue_eq rfl, rfl⟩

/-- There is nothing but this torrent, wherever one looks. -/
def namelessEverywhere : FileSystem :=
  ⟨fun _ => .ok (.file (.ofBytes nameless.encode))⟩

/-- Nothing is lost between the levels `trace` and `debug`, but something is between
`debug` and `info`. -/
theorem records_nameless :
    (Threshold.upTo .debug).Within (.upTo .trace) ∧
    (Threshold.upTo .info).Within (.upTo .debug) ∧
    (hashBytes (.upTo .debug) Limits.default nameless.encode).records =
      allowed (.upTo .debug)
        (hashBytes (.upTo .trace) Limits.default nameless.encode).records ∧
    (hashFile (.upTo .info) Limits.default namelessEverywhere "a").records ≠
      allowed (.upTo .info)
        (hashFile (.upTo .debug) Limits.default namelessEverywhere "a").records := by
  have fine : (Threshold.upTo .debug).Within (.upTo .trace) :=
    Threshold.within_upTo_iff.2 (by decide)
  have coarse : (Threshold.upTo .info).Within (.upTo .debug) :=
    Threshold.within_upTo_iff.2 (by decide)
  refine ⟨fine, coarse, ?_, ?_⟩
  · apply (records_eq_allowed_iff fine _ _ namelessEverywhere "a").1.2
    rintro ⟨⟨-, brief, -⟩, -⟩
    exact brief rfl
  · intro same
    apply (records_eq_allowed_iff coarse _ nameless.encode _ _).2.2.1.1 same
    exact ⟨⟨rfl, by decide, rfl⟩, nameless.encode, rfl, unsummarised_nameless⟩

/-- Its warning is written if records of level `debug` are let through, but not if only
warnings are. -/
theorem warning_nameless :
    (Threshold.upTo .warn).Within (.upTo .debug) ∧
    nameless.encode = Bytes.ofString "d4:infod3:fooi1eee" ∧
    (hashBytes (.upTo .warn) Limits.default nameless.encode).records = [] ∧
    allowed (.upTo .warn)
      (hashBytes (.upTo .debug) Limits.default nameless.encode).records =
      [⟨.warn, target, "Could not summarize torrent metadata: Missing 'name'"⟩] := by
  have hashed : InfoHash.ofValue nameless = .ok ⟨Sha1.digest (Value.encode _)⟩ :=
    ofValue_eq rfl
  refine ⟨Threshold.within_upTo_iff.2 (by decide), by decide, ?_, ?_⟩
  · rw [hashBytes, decode_nameless]
    simp only [hashed]
    rfl
  · rw [hashBytes, decode_nameless]
    simp only [hashed]
    rfl

end Hashing

end Metainfo
