import Metainfo.Bencode.Edit
import Metainfo.Proofs.Bencode.Reordering

/-!
# The history of a dictionary

A dictionary is decoded and then edited step by step.  Main statement: after every step
its entries are in order, its canonical form decodes to it, and each key holds what the
last edit with an effect on that key has left there.  Nothing else of the history is to
be seen, neither in the canonical form nor in the info-hash.
-/

namespace Metainfo.Bencode

open Value

variable {limit depth : Nat} {value : Value} {entries : List (Bytes × Value)}

/-! ## Decoded values -/

namespace Value

theorem length_le_of_mem_flatMap {Part : Type} {part : Part} {parts : List Part}
    (member : part ∈ parts) (textOf : Part → Bytes) :
    (textOf part).length ≤ (parts.flatMap textOf).length :=
  (List.sublist_flatten_of_mem (List.mem_map_of_mem member)).length_le

/-- A value lies no deeper than its text is long. -/
theorem depth_le_length_encode (value : Value) : value.depth ≤ value.encode.length := by
  induction value using parts_induction with
  | byteString bytes => exact Nat.zero_le _
  | integer number => exact Nat.zero_le _
  | list items ih =>
    have inside : depthItems items ≤ (items.flatMap encode).length := by
      rw [depthItems_le_iff]
      intro item member
      exact (ih item member).trans (length_le_of_mem_flatMap member encode)
    simp only [depth, encode_list, List.length_append, List.length_cons]
    omega
  | dictionary entries ih =>
    have inside : depthEntries entries ≤
        (entries.flatMap fun entry =>
          encodeString entry.1 ++ entry.2.encode).length := by
      rw [depthEntries_le_iff]
      intro entry member
      have text := length_le_of_mem_flatMap member
        fun entry => encodeString entry.1 ++ entry.2.encode
      rw [List.length_append] at text
      exact (ih entry member).trans (by omega)
    simp only [depth, encode_dictionary, List.length_append, List.length_cons]
    omega

/-- A readable value stays readable when it is put in order. -/
theorem Readable.sorted {written : Value} (readable : written.Readable limit depth) :
    written.sorted.Readable limit depth := by
  have moves := (rearranged_sorted readable.distinct).moves
  generalize written.sorted = moved at moves
  induction moves with
  | refl => exact readable
  | tail _ step ih => exact (step.readable ih).1

/-- The value was decoded, under some limit, from octets whose number is a signed
word. -/
def Decoded (value : Value) : Prop :=
  ∃ limit input, input.length ≤ Decimal.maxSigned ∧ decode limit input = .ok value

/-- The value is in order, and nothing in it is too long or too deep to be decoded. -/
structure Restorable (value : Value) : Prop where
  ordered : value.Ordered
  readable : value.Readable Decimal.maxWord 0

theorem Restorable.decode_encode (restorable : value.Restorable) :
    decode Decimal.maxWord value.encode = .ok value :=
  decode_eq_ok_iff.2
    ⟨value, restorable.readable, rfl, restorable.ordered.sorted_eq.symm⟩

theorem Decoded.ordered (decoded : value.Decoded) : value.Ordered := by
  obtain ⟨limit, input, -, decoded⟩ := decoded
  exact ordered_of_decode decoded

/-- Inside another value, too, a decoded value is not too deep. -/
theorem Decoded.readable (decoded : value.Decoded) :
    value.Readable Decimal.maxWord 1 := by
  obtain ⟨limit, input, short, decoded⟩ := decoded
  obtain ⟨written, readable, rfl, rfl⟩ := decode_eq_ok_iff.1 decoded
  have shallow := depth_le_length_encode written
  have words : Decimal.maxSigned + 1 ≤ Decimal.maxWord := by decide
  refine ⟨readable.sorted.distinct, readable.sorted.fits, ?_⟩
  rw [depth_sorted readable.distinct]
  omega

theorem Decoded.restorable (decoded : value.Decoded) : value.Restorable := by
  have readable := decoded.readable
  have within := readable.within
  exact ⟨decoded.ordered, readable.distinct, readable.fits, by omega⟩

theorem restorable_dictionary_iff :
    (dictionary entries).Restorable ↔
      Entries.Ascending entries ∧
        ∀ entry ∈ entries, entry.1.length ≤ Decimal.maxWord ∧ entry.2.Ordered ∧
          entry.2.Readable Decimal.maxWord 1 := by
  constructor
  · rintro ⟨ordered, readable⟩
    rw [Ordered, orderedEntries_iff] at ordered
    have each := (readable_dictionary_iff.1 readable).2.2
    refine ⟨ordered.1, fun entry member => ?_⟩
    exact ⟨(each entry member).1, ordered.2 entry member, (each entry member).2⟩
  · rintro ⟨ascending, each⟩
    constructor
    · rw [Ordered, orderedEntries_iff]
      exact ⟨ascending, fun entry member => (each entry member).2.1⟩
    · refine readable_dictionary_iff.2
        ⟨by decide, ascending.nodup, fun entry member => ?_⟩
      exact ⟨(each entry member).1, (each entry member).2.2⟩

theorem Restorable.ascending (restorable : (dictionary entries).Restorable) :
    Entries.Ascending entries :=
  (restorable_dictionary_iff.1 restorable).1

/-- A decoded value may be put under any key that is not too long. -/
theorem Restorable.insert {key : Bytes} (restorable : (dictionary entries).Restorable)
    (short : key.length ≤ Decimal.maxWord) (decoded : value.Decoded) :
    (dictionary (Entries.insert key value entries)).Restorable := by
  obtain ⟨ascending, each⟩ := restorable_dictionary_iff.1 restorable
  refine restorable_dictionary_iff.2
    ⟨Entries.ascending_insert ascending, fun entry member => ?_⟩
  rcases Entries.mem_of_mem_insert member with rfl | member
  · exact ⟨short, decoded.ordered, decoded.readable⟩
  · exact each entry member

theorem Restorable.erase (key : Bytes) (restorable : (dictionary entries).Restorable) :
    (dictionary (Entries.erase key entries)).Restorable := by
  obtain ⟨ascending, each⟩ := restorable_dictionary_iff.1 restorable
  refine restorable_dictionary_iff.2
    ⟨Entries.ascending_erase key ascending, fun entry member => ?_⟩
  exact each entry ((Entries.erase_sublist key entries).subset member)

/-- A dictionary that stands under `info` is the info dictionary. -/
theorem get?_infoKey (entries : List (Bytes × Value)) :
    (dictionary [(InfoHash.infoKey, .dictionary entries)]).get? InfoHash.infoKey =
      some (.dictionary entries) := by
  simp [get?, entries?, Entries.get?]

end Value

/-! ## Steps -/

namespace Edit

/-- An edit, and how deep its value may lie. -/
structure Step where
  limit : Nat
  edit : Edit

namespace Step

/-- What the step answers, and the entries that it leaves unless it fails. -/
def apply (step : Step) (entries : List (Bytes × Value)) :
    Except DecodeError (Bool × List (Bytes × Value)) :=
  step.edit.applyWithin step.limit entries

/-- The entries after a step.  If it fails they are those before it. -/
def after (step : Step) (entries : List (Bytes × Value)) : List (Bytes × Value) :=
  match step.apply entries with
  | .error _ => entries
  | .ok (_, changed) => changed

/-- What the step leaves under a key, a value or nothing, if it has an effect on that
key. -/
def effectOn (key : Bytes) (step : Step) : Option (Option Value) :=
  match step.edit with
  | .set name encoded =>
      if name = key then (decode step.limit encoded).toOption.map some else none
  | .delete name => if name = key then some none else none

/-- The numbers of octets in the step are signed words. -/
def Short (step : Step) : Prop :=
  match step.edit with
  | .set key encoded =>
      key.length ≤ Decimal.maxSigned ∧ encoded.length ≤ Decimal.maxSigned
  | .delete _ => True

variable {step : Step}

/-- A step fails because its value cannot be decoded, or it puts a decoded value under
its key, or it takes its key away. -/
theorem apply_cases (step : Step) (entries : List (Bytes × Value)) :
    (∃ key encoded error, step.edit = .set key encoded ∧
      decode step.limit encoded = .error error ∧ step.apply entries = .error error) ∨
    (∃ key encoded value, step.edit = .set key encoded ∧
      decode step.limit encoded = .ok value ∧
      step.apply entries =
        .ok ((Entries.get? key entries).isSome, Entries.insert key value entries)) ∨
    ∃ key, step.edit = .delete key ∧
      step.apply entries =
        .ok ((Entries.get? key entries).isSome, Entries.erase key entries) := by
  obtain ⟨limit, edit⟩ := step
  cases edit with
  | set key encoded =>
    cases decoded : decode limit encoded with
    | error error =>
      refine .inl ⟨key, encoded, error, rfl, decoded, ?_⟩
      simp only [apply, applyWithin, decoded]
    | ok value =>
      refine .inr (.inl ⟨key, encoded, value, rfl, decoded, ?_⟩)
      simp only [apply, applyWithin, decoded]
  | delete key => exact .inr (.inr ⟨key, rfl, rfl⟩)

theorem after_of_error {error : DecodeError}
    (failed : step.apply entries = .error error) : step.after entries = entries := by
  rw [after, failed]

theorem after_of_ok {existed : Bool} {changed : List (Bytes × Value)}
    (applied : step.apply entries = .ok (existed, changed)) :
    step.after entries = changed := by
  rw [after, applied]

/-- A step fails if and only if it is to put something under a key that cannot be
decoded. -/
theorem apply_eq_error_iff :
    (∃ error, step.apply entries = .error error) ↔
      ∃ key encoded error,
        step.edit = .set key encoded ∧ decode step.limit encoded = .error error := by
  rcases apply_cases step entries with
    ⟨key, encoded, error, edit, failed, applied⟩ |
    ⟨key, encoded, value, edit, decoded, applied⟩ |
    ⟨key, edit, applied⟩
  · exact ⟨fun _ => ⟨key, encoded, error, edit, failed⟩, fun _ => ⟨error, applied⟩⟩
  · simp [applied, edit, decoded]
  · simp [applied, edit]

/-- A step that does not fail tells whether its key was there. -/
theorem existed_eq {existed : Bool} {changed : List (Bytes × Value)}
    (applied : step.apply entries = .ok (existed, changed)) :
    existed = (Entries.get? step.edit.key entries).isSome := by
  rcases apply_cases step entries with
    ⟨_, _, _, -, -, outcome⟩ | ⟨key, _, _, edit, -, outcome⟩ | ⟨key, edit, outcome⟩
  · rw [outcome] at applied
    cases applied
  · rw [outcome] at applied
    cases applied
    rw [edit, Edit.key]
  · rw [outcome] at applied
    cases applied
    rw [edit, Edit.key]

/-- After a step a key holds what the step left there, or what it held before if the
step has no effect on it. -/
theorem get?_after (ascending : Entries.Ascending entries) (key : Bytes) :
    Entries.get? key (step.after entries) =
      (step.effectOn key).getD (Entries.get? key entries) := by
  rcases apply_cases step entries with
    ⟨name, encoded, error, edit, failed, applied⟩ |
    ⟨name, encoded, value, edit, decoded, applied⟩ |
    ⟨name, edit, applied⟩
  · rw [after_of_error applied, effectOn, edit]
    simp [failed, Except.toOption]
  · rw [after_of_ok applied, effectOn, edit, Entries.get?_insert]
    by_cases same : name = key
    · simp [same, decoded, Except.toOption]
    · simp [same, Ne.symm same]
  · rw [after_of_ok applied, effectOn, edit, Entries.get?_erase ascending.nodup]
    by_cases same : name = key
    · simp [same]
    · simp [same, Ne.symm same]

/-- A step keeps a dictionary restorable. -/
theorem restorable_after (short : step.Short)
    (restorable : (dictionary entries).Restorable) :
    (dictionary (step.after entries)).Restorable := by
  rcases apply_cases step entries with
    ⟨_, _, _, -, -, applied⟩ |
    ⟨key, encoded, value, edit, decoded, applied⟩ | ⟨key, -, applied⟩
  · rw [after_of_error applied]
    exact restorable
  · rw [Short, edit] at short
    have words : Decimal.maxSigned ≤ Decimal.maxWord := by decide
    rw [after_of_ok applied]
    exact restorable.insert (short.1.trans words)
      ⟨step.limit, encoded, short.2, decoded⟩
  · rw [after_of_ok applied]
    exact restorable.erase key

end Step

/-! ## Runs -/

/-- The entries after steps made one after the other. -/
def afterAll (steps : List Step) (entries : List (Bytes × Value)) :
    List (Bytes × Value) :=
  steps.foldl (fun entries step => step.after entries) entries

/-- What a key holds after the steps: what the last of them with an effect on it has
left there, or what the key held in the beginning if there is none. -/
def heldAfter (steps : List Step) (entries : List (Bytes × Value)) (key : Bytes) :
    Option Value :=
  (steps.reverse.findSome? (Step.effectOn key)).getD (Entries.get? key entries)

variable {steps : List Step}

theorem afterAll_concat (step : Step) :
    afterAll (steps ++ [step]) entries = step.after (afterAll steps entries) := by
  rw [afterAll, List.foldl_append]
  rfl

/-- Steps keep a dictionary restorable. -/
theorem restorable_afterAll (short : ∀ step ∈ steps, step.Short)
    (restorable : (dictionary entries).Restorable) :
    (dictionary (afterAll steps entries)).Restorable := by
  induction steps generalizing entries with
  | nil => exact restorable
  | cons step steps ih =>
    rw [List.forall_mem_cons] at short
    exact ih short.2 (Step.restorable_after short.1 restorable)

/-- The keys hold what their last edits have left. -/
theorem get?_afterAll (short : ∀ step ∈ steps, step.Short)
    (restorable : (dictionary entries).Restorable) (key : Bytes) :
    Entries.get? key (afterAll steps entries) = heldAfter steps entries key := by
  induction steps generalizing entries with
  | nil => rfl
  | cons step steps ih =>
    rw [List.forall_mem_cons] at short
    -- The first step counts last: only if no later one has an effect on the key.
    have rest := ih short.2 (Step.restorable_after short.1 restorable)
    rw [heldAfter, Step.get?_after restorable.ascending] at rest
    rw [heldAfter, List.reverse_cons, List.findSome?_append, List.findSome?_singleton]
    refine rest.trans ?_
    cases steps.reverse.findSome? (Step.effectOn key) <;> rfl

/-- Edits of a decoded dictionary leave no trace but what the keys hold.  After every
step the entries are in order, the canonical form decodes to them, and each key holds
what the last step with an effect on it has left there.  A further step tells whether
its key holds anything; it fails only if its value cannot be decoded, and then changes
nothing.  Where two runs leave the same under all keys, they leave the same canonical
form and the same info-hash. -/
theorem history_independent (decoded : (dictionary entries).Decoded)
    (short : ∀ step ∈ steps, step.Short) :
    (dictionary (afterAll steps entries)).Ordered ∧
    decode Decimal.maxWord (dictionary (afterAll steps entries)).encode =
      .ok (.dictionary (afterAll steps entries)) ∧
    (∀ key, Entries.get? key (afterAll steps entries) = heldAfter steps entries key) ∧
    (∀ step : Step,
      (∀ existed changed, step.apply (afterAll steps entries) = .ok (existed, changed) →
        existed = (heldAfter steps entries step.edit.key).isSome ∧
        changed = afterAll (steps ++ [step]) entries) ∧
      ((∃ error, step.apply (afterAll steps entries) = .error error) ↔
        ∃ key encoded error,
          step.edit = .set key encoded ∧ decode step.limit encoded = .error error) ∧
      ((∃ error, step.apply (afterAll steps entries) = .error error) →
        afterAll (steps ++ [step]) entries = afterAll steps entries)) ∧
    ∀ (others : List (Bytes × Value)) (otherSteps : List Step),
      (dictionary others).Decoded → (∀ step ∈ otherSteps, step.Short) →
      (∀ key, heldAfter steps entries key = heldAfter otherSteps others key) →
        (dictionary (afterAll steps entries)).encode =
          (dictionary (afterAll otherSteps others)).encode ∧
        ∃ hash,
          InfoHash.ofValue
            (.dictionary [(InfoHash.infoKey, .dictionary (afterAll steps entries))]) =
            .ok hash ∧
          InfoHash.ofValue
            (.dictionary
              [(InfoHash.infoKey, .dictionary (afterAll otherSteps others))]) =
            .ok hash := by
  have restorable := restorable_afterAll short decoded.restorable
  have held := get?_afterAll short decoded.restorable
  refine ⟨restorable.ordered, restorable.decode_encode, held, fun step => ⟨?_, ?_, ?_⟩,
    ?_⟩
  · intro existed changed applied
    rw [← held, afterAll_concat, Step.after_of_ok applied]
    exact ⟨Step.existed_eq applied, rfl⟩
  · exact Step.apply_eq_error_iff
  · rintro ⟨error, failed⟩
    rw [afterAll_concat, Step.after_of_error failed]
  · intro others otherSteps otherDecoded otherShort same
    have otherRestorable := restorable_afterAll otherShort otherDecoded.restorable
    have otherHeld := get?_afterAll otherShort otherDecoded.restorable
    have equal : afterAll steps entries = afterAll otherSteps others := by
      apply restorable.ascending.eq_of_get? otherRestorable.ascending
      intro key
      rw [held, otherHeld, same]
    have hashed := Hashing.ofValue_eq (get?_infoKey (afterAll otherSteps others))
    rw [equal]
    exact ⟨rfl, _, hashed, hashed⟩

/-- The entries of a dictionary with one number in it. -/
def single (key : String) (number : Int) : List (Bytes × Value) :=
  [(Bytes.ofString key, .integer (.ofInt number))]

/-- A number is put under `b`, nothing that could be decoded under `a`, and `a` is taken
away. -/
def replacing : List Step :=
  [⟨defaultDepth, .set (Bytes.ofString "b") (Bytes.ofString "i2e")⟩,
    ⟨0, .set (Bytes.ofString "a") (Bytes.ofString "le")⟩,
    ⟨0, .delete (Bytes.ofString "a")⟩]

/-- What has been replaced is as if it had always been so. -/
theorem history_of_replacing :
    (dictionary (single "a" 1)).Decoded ∧ (dictionary (single "b" 2)).Decoded ∧
    (∀ step ∈ replacing, step.Short) ∧
    decode Decimal.maxWord (dictionary (afterAll replacing (single "a" 1))).encode =
      .ok (.dictionary (afterAll replacing (single "a" 1))) ∧
    (dictionary (afterAll replacing (single "a" 1))).encode =
      Bytes.ofString "d1:bi2ee" := by
  have decoded (key : String) (number : Int)
      (short : (dictionary (single key number)).encode.length ≤ Decimal.maxSigned) :
      (dictionary (single key number)).Decoded := by
    have ordered : (dictionary (single key number)).Ordered := by
      simp [single, Ordered, OrderedEntries, Entries.Ascending, Entries.keys]
    have words : Decimal.maxSigned ≤ Decimal.maxWord := by decide
    refine ⟨1, _, short, ?_⟩
    rw [decode_encode ordered.distinct (by simp [single, depth, depthEntries])
      (short.trans words),
      ordered.sorted_eq]
  have first := decoded "a" 1 (by decide)
  have second := decoded "b" 2 (by decide)
  have short : ∀ step ∈ replacing, step.Short := by
    simp only [replacing, List.forall_mem_cons, List.not_mem_nil, false_implies,
      implies_true, Step.Short]
    decide
  have two :
      decode defaultDepth (Bytes.ofString "i2e") = .ok (.integer (.ofInt 2)) := by
    have text : Bytes.ofString "i2e" = (integer (.ofInt 2)).encode := by decide
    rw [text]
    exact decode_encode trivial (by decide) (by decide)
  have tooDeep : decode 0 (Bytes.ofString "le") = .error (.depthLimitExceeded 0 0) := by
    have text : Bytes.ofString "le" = [Mark.list, Mark.finish] := by decide
    rw [text, decode_eq, valueAt_list]
    rfl
  have same (key : Bytes) :
      heldAfter replacing (single "a" 1) key = heldAfter [] (single "b" 2) key := by
    have apart : Bytes.ofString "a" ≠ Bytes.ofString "b" := by decide
    simp only [heldAfter, replacing, single, List.reverse_cons, List.reverse_nil,
      List.nil_append, List.cons_append, List.findSome?_cons, List.findSome?_nil,
      Step.effectOn, two, tooDeep, Except.toOption, Entries.get?]
    by_cases isFirst : Bytes.ofString "a" = key
    · subst isFirst
      simp [apart.symm]
    · by_cases isSecond : Bytes.ofString "b" = key
      · simp [isFirst, isSecond]
      · simp [isFirst, isSecond]
  have run := history_independent first short
  refine ⟨first, second, short, run.2.1, ?_⟩
  rw [(run.2.2.2.2 _ [] second (by simp) same).1]
  decide

end Edit

end Metainfo.Bencode
