import Mathlib.Data.List.Basic
import Metainfo.Text.Utf8

/-!
# Reading UTF-8

The octet sequences that encode a scalar value are laid down octet by octet, as the pass
over a byte string looks at them, and turn out to be those that are written.  Main
statement: a byte string is read as a text exactly if it is the UTF-8 form of that text.
-/

namespace Metainfo.Utf8

variable {char : Char} {bytes front rest : Bytes} {found : List (Option Char)}

/-- An octet that continues a sequence. -/
def Tail (byte : UInt8) : Prop :=
  0x80 ≤ byte ∧ byte ≤ 0xBF

/-- The sequence of one to four octets that encodes a scalar value.  The second octet is
restricted after some first octets, where it would make the sequence overlong, or the
number a surrogate or too great. -/
inductive Encodes (char : Char) : Bytes → Prop where
  | one {byte : UInt8} : byte < 0x80 → char.toNat = byte.toNat → Encodes char [byte]
  | two {lead last : UInt8} : 0xC2 ≤ lead → lead < 0xE0 → Tail last →
      char.toNat = (lead.toNat - 0xC0) * 64 + (last.toNat - 0x80) →
      Encodes char [lead, last]
  | three {lead second last : UInt8} : 0xE0 ≤ lead → lead < 0xF0 →
      Tail second → (lead = 0xE0 → 0xA0 ≤ second) → (lead = 0xED → second ≤ 0x9F) →
      Tail last →
      char.toNat =
        ((lead.toNat - 0xE0) * 64 + (second.toNat - 0x80)) * 64 + (last.toNat - 0x80) →
      Encodes char [lead, second, last]
  | four {lead second third last : UInt8} : 0xF0 ≤ lead → lead < 0xF5 →
      Tail second → (lead = 0xF0 → 0x90 ≤ second) → (lead = 0xF4 → second ≤ 0x8F) →
      Tail third → Tail last →
      char.toNat =
        (((lead.toNat - 0xF0) * 64 + (second.toNat - 0x80)) * 64 +
          (third.toNat - 0x80)) * 64 +
          (last.toNat - 0x80) →
      Encodes char [lead, second, third, last]

theorem Encodes.ne_nil (encodes : Encodes char bytes) : bytes ≠ [] := by
  cases encodes <;> exact List.cons_ne_nil _ _

/-! ## The sequence that is written -/

theorem ofNat_eq {number : Nat} {byte : UInt8} (same : number = byte.toNat) :
    UInt8.ofNat number = byte := by
  rw [same, UInt8.ofNat_toNat]

theorem utf8EncodeChar_eq_of_encodes (encodes : Encodes char bytes) :
    String.utf8EncodeChar char = bytes := by
  have number : char.val.toNat = char.toNat := rfl
  simp only [String.utf8EncodeChar, number]
  cases encodes with
  | one ascii same =>
    simp only [UInt8.lt_iff_toNat_lt, UInt8.reduceToNat] at ascii
    rw [if_pos (by omega), ofNat_eq same]
  | two lower upper last same =>
    simp only [Tail, UInt8.lt_iff_toNat_lt, UInt8.le_iff_toNat_le, UInt8.reduceToNat]
      at *
    rw [if_neg (by omega), if_pos (by omega)]
    simp only [List.cons.injEq, and_true]
    exact ⟨ofNat_eq (by omega), ofNat_eq (by omega)⟩
  | three lower upper second low high last same =>
    simp only [Tail, UInt8.lt_iff_toNat_lt, UInt8.le_iff_toNat_le, ← UInt8.toNat_inj,
      UInt8.reduceToNat] at *
    rw [if_neg (by omega), if_neg (by omega), if_pos (by omega)]
    simp only [List.cons.injEq, and_true]
    exact ⟨ofNat_eq (by omega), ofNat_eq (by omega), ofNat_eq (by omega)⟩
  | four lower upper second low high third last same =>
    simp only [Tail, UInt8.lt_iff_toNat_lt, UInt8.le_iff_toNat_le, ← UInt8.toNat_inj,
      UInt8.reduceToNat] at *
    rw [if_neg (by omega), if_neg (by omega), if_neg (by omega)]
    simp only [List.cons.injEq, and_true]
    exact ⟨ofNat_eq (by omega), ofNat_eq (by omega), ofNat_eq (by omega),
      ofNat_eq (by omega)⟩

/-- What is written for a scalar value is the sequence that encodes it. -/
theorem encodes_utf8EncodeChar (char : Char) :
    Encodes char (String.utf8EncodeChar char) := by
  have number : char.val.toNat = char.toNat := rfl
  have valid : char.toNat < 0xD800 ∨ 0xDFFF < char.toNat ∧ char.toNat < 0x110000 :=
    char.valid
  rw [String.utf8EncodeChar]
  simp only [number]
  split
  · apply Encodes.one
    · simp only [UInt8.lt_iff_toNat_lt, UInt8.reduceToNat, UInt8.toNat_ofNat']
      omega
    · simp only [UInt8.toNat_ofNat']
      omega
  split
  · apply Encodes.two
    all_goals
      simp only [Tail, UInt8.lt_iff_toNat_lt, UInt8.le_iff_toNat_le, UInt8.reduceToNat,
        UInt8.toNat_ofNat']
      omega
  split
  · apply Encodes.three
    all_goals
      simp only [Tail, UInt8.lt_iff_toNat_lt, UInt8.le_iff_toNat_le, ← UInt8.toNat_inj,
        UInt8.reduceToNat, UInt8.toNat_ofNat']
      omega
  · apply Encodes.four
    all_goals
      simp only [Tail, UInt8.lt_iff_toNat_lt, UInt8.le_iff_toNat_le, ← UInt8.toNat_inj,
        UInt8.reduceToNat, UInt8.toNat_ofNat']
      omega

theorem encodes_iff : Encodes char bytes ↔ String.utf8EncodeChar char = bytes := by
  constructor
  · exact utf8EncodeChar_eq_of_encodes
  · rintro rfl
    exact encodes_utf8EncodeChar char

/-! ## The pass over a byte string -/

theorem scanFrom_cons (state : State) (found : List (Option Char)) (byte : UInt8)
    (rest : Bytes) :
    scanFrom state found (byte :: rest) =
      scanFrom (step state byte).2 ((step state byte).1.reverse ++ found) rest := by
  cases state <;> rfl

/-- What was found stays found. -/
theorem mem_scanFrom {item : Option Char} (member : item ∈ found) (state : State)
    (bytes : Bytes) : item ∈ scanFrom state found bytes := by
  induction bytes generalizing state found with
  | nil => cases state <;> simp [scanFrom, member]
  | cons byte rest ih =>
    rw [scanFrom_cons]
    exact ih (List.mem_append_right _ member) _

section Steps

variable {byte lead bound least : UInt8} {scalar more : Nat} {low high : UInt8}

theorem not_lt_of_le (le : bound ≤ least) (lower : least ≤ lead) : ¬lead < bound :=
  UInt8.not_lt.2 (UInt8.le_trans le lower)

theorem first_one (ascii : lead < 0x80) :
    first lead = ([some (Char.ofNat lead.toNat)], .between) :=
  if_pos ascii

theorem first_two (lower : 0xC2 ≤ lead) (upper : lead < 0xE0) :
    first lead = ([], .within (lead.toNat - 0xC0) 0x80 0xBF 0) := by
  rw [first, if_neg (not_lt_of_le (by decide) lower), if_neg (UInt8.not_lt.2 lower),
    if_pos upper]

theorem first_three (lower : 0xE0 ≤ lead) (upper : lead < 0xF0) :
    first lead =
      ([], .within (lead.toNat - 0xE0)
        (if lead = 0xE0 then 0xA0 else 0x80)
        (if lead = 0xED then 0x9F else 0xBF) 1) := by
  rw [first, if_neg (not_lt_of_le (by decide) lower),
    if_neg (not_lt_of_le (by decide) lower), if_neg (UInt8.not_lt.2 lower),
    if_pos upper]

theorem first_four (lower : 0xF0 ≤ lead) (upper : lead < 0xF5) :
    first lead =
      ([], .within (lead.toNat - 0xF0)
        (if lead = 0xF0 then 0x90 else 0x80)
        (if lead = 0xF4 then 0x8F else 0xBF) 2) := by
  rw [first, if_neg (not_lt_of_le (by decide) lower),
    if_neg (not_lt_of_le (by decide) lower), if_neg (not_lt_of_le (by decide) lower),
    if_neg (UInt8.not_lt.2 lower), if_pos upper]

theorem scanFrom_last (within : low ≤ byte ∧ byte ≤ high) :
    scanFrom (.within scalar low high 0) found (byte :: rest) =
      scanFrom .between (some (Char.ofNat (scalar * 64 + (byte.toNat - 0x80))) :: found)
        rest := by
  rw [scanFrom_cons, step, if_pos within]
  rfl

theorem scanFrom_more (within : low ≤ byte ∧ byte ≤ high) :
    scanFrom (.within scalar low high (more + 1)) found (byte :: rest) =
      scanFrom (.within (scalar * 64 + (byte.toNat - 0x80)) 0x80 0xBF more) found
        rest := by
  rw [scanFrom_cons, step, if_pos within]
  rfl

/-- Inside a sequence the next octet is there and in range, if all is well-formed. -/
theorem exists_cons_of_clean
    (clean : none ∉ scanFrom (.within scalar low high more) found bytes) :
    ∃ byte rest, bytes = byte :: rest ∧ low ≤ byte ∧ byte ≤ high := by
  cases bytes with
  | nil => simp [scanFrom] at clean
  | cons byte rest =>
    refine ⟨byte, rest, rfl, ?_⟩
    by_contra outside
    have broken : step (.within scalar low high more) byte =
        (none :: (first byte).1, (first byte).2) := if_neg outside
    rw [scanFrom_cons, broken] at clean
    exact clean (mem_scanFrom (by simp) _ _)

end Steps

/-- The restriction of the second octet, written as a range. -/
theorem second_range {lead second strict strait low high : UInt8} (lower : 0x80 ≤ low)
    (upper : high ≤ 0xBF) :
    ((if lead = strict then low else 0x80) ≤ second ∧
      second ≤ (if lead = strait then high else 0xBF)) ↔
    Tail second ∧ (lead = strict → low ≤ second) ∧ (lead = strait → second ≤ high) := by
  have least (reaches : low ≤ second) : 0x80 ≤ second := UInt8.le_trans lower reaches
  have greatest (reaches : second ≤ high) : second ≤ 0xBF :=
    UInt8.le_trans reaches upper
  by_cases isStrict : lead = strict <;> by_cases isStrait : lead = strait <;>
    simp only [Tail, isStrict, isStrait, if_true, if_false, true_implies, false_implies]
      <;> grind

/-- The pass reads one sequence after the other. -/
theorem scanFrom_encodes (encodes : Encodes char front) :
    scanFrom .between found (front ++ rest) =
      scanFrom .between (some char :: found) rest := by
  have whole : Char.ofNat char.toNat = char := Char.ofNat_toNat char
  cases encodes with
  | one ascii same =>
    rw [List.singleton_append, scanFrom_cons, step, first_one ascii, ← same, whole]
    rfl
  | two lower upper last same =>
    rw [List.cons_append, scanFrom_cons, step, first_two lower upper]
    simp only [List.reverse_nil, List.nil_append, List.singleton_append]
    rw [scanFrom_last last, ← same, whole]
  | three lower upper second low high last same =>
    rw [List.cons_append, scanFrom_cons, step, first_three lower upper]
    simp only [List.reverse_nil, List.nil_append, List.cons_append]
    rw [scanFrom_more ((second_range (by decide) (by decide)).2 ⟨second, low, high⟩),
      scanFrom_last last, ← same, whole]
  | four lower upper second low high third last same =>
    rw [List.cons_append, scanFrom_cons, step, first_four lower upper]
    simp only [List.reverse_nil, List.nil_append, List.cons_append]
    rw [scanFrom_more ((second_range (by decide) (by decide)).2 ⟨second, low, high⟩),
      scanFrom_more third, scanFrom_last last, ← same, whole]

theorem toNat_ofNat_of_isValidChar {number : Nat} (valid : number.isValidChar) :
    (Char.ofNat number).toNat = number := by
  rw [Char.ofNat, dif_pos valid]
  exact UInt32.toNat_ofNatLT

/-- Where all is well-formed, a sequence stands in front. -/
theorem exists_encodes (nonempty : bytes ≠ [])
    (clean : none ∉ scanFrom .between [] bytes) :
    ∃ char front rest, bytes = front ++ rest ∧ Encodes char front := by
  obtain ⟨lead, rest, rfl⟩ := List.exists_cons_of_ne_nil nonempty
  rw [scanFrom_cons, step] at clean
  by_cases one : lead < 0x80
  · refine ⟨Char.ofNat lead.toNat, [lead], rest, rfl,
      .one one (toNat_ofNat_of_isValidChar ?_)⟩
    simp only [Nat.isValidChar, UInt8.lt_iff_toNat_lt, UInt8.reduceToNat] at *
    omega
  by_cases stray : lead < 0xC2
  · rw [first, if_neg one, if_pos stray] at clean
    exact absurd (mem_scanFrom (by simp) _ _) clean
  by_cases two : lead < 0xE0
  · rw [first_two (UInt8.not_lt.1 stray) two] at clean
    obtain ⟨last, rest, rfl, tail⟩ := exists_cons_of_clean clean
    refine ⟨_, [lead, last], rest, rfl,
      .two (UInt8.not_lt.1 stray) two tail (toNat_ofNat_of_isValidChar ?_)⟩
    simp only [Nat.isValidChar, UInt8.lt_iff_toNat_lt, UInt8.le_iff_toNat_le,
      UInt8.reduceToNat] at *
    omega
  by_cases three : lead < 0xF0
  · rw [first_three (UInt8.not_lt.1 two) three] at clean
    obtain ⟨second, rest, rfl, range⟩ := exists_cons_of_clean clean
    simp only [List.reverse_nil, List.nil_append] at clean
    rw [scanFrom_more range] at clean
    obtain ⟨last, rest, rfl, tail⟩ := exists_cons_of_clean clean
    obtain ⟨middle, low, high⟩ := (second_range (by decide) (by decide)).1 range
    refine ⟨_, [lead, second, last], rest, rfl,
      .three (UInt8.not_lt.1 two) three middle low high tail
        (toNat_ofNat_of_isValidChar ?_)⟩
    simp only [Tail, Nat.isValidChar, UInt8.lt_iff_toNat_lt, UInt8.le_iff_toNat_le,
      ← UInt8.toNat_inj, UInt8.reduceToNat] at *
    omega
  by_cases four : lead < 0xF5
  · rw [first_four (UInt8.not_lt.1 three) four] at clean
    obtain ⟨second, rest, rfl, range⟩ := exists_cons_of_clean clean
    simp only [List.reverse_nil, List.nil_append] at clean
    rw [scanFrom_more range] at clean
    obtain ⟨third, rest, rfl, inner⟩ := exists_cons_of_clean clean
    rw [scanFrom_more inner] at clean
    obtain ⟨last, rest, rfl, tail⟩ := exists_cons_of_clean clean
    obtain ⟨middle, low, high⟩ := (second_range (by decide) (by decide)).1 range
    refine ⟨_, [lead, second, third, last], rest, rfl,
      .four (UInt8.not_lt.1 three) four middle low high inner tail
        (toNat_ofNat_of_isValidChar ?_)⟩
    simp only [Tail, Nat.isValidChar, UInt8.lt_iff_toNat_lt, UInt8.le_iff_toNat_le,
      ← UInt8.toNat_inj, UInt8.reduceToNat] at *
    omega
  · rw [first, if_neg one, if_neg stray, if_neg two, if_neg three, if_neg four] at clean
    exact absurd (mem_scanFrom (by simp) _ _) clean

/-! ## Texts -/

/-- What was found before comes first. -/
theorem scanFrom_eq_append (state : State) (found : List (Option Char))
    (bytes : Bytes) :
    scanFrom state found bytes = found.reverse ++ scanFrom state [] bytes := by
  induction bytes generalizing state found with
  | nil => cases state <;> simp [scanFrom]
  | cons byte rest ih =>
    rw [scanFrom_cons, scanFrom_cons, ih, ih _ ((step state byte).1.reverse ++ [])]
    simp

theorem scan_encodes (encodes : Encodes char front) (rest : Bytes) :
    scan (front ++ rest) = some char :: scan rest := by
  rw [scan, scanFrom_encodes encodes, scanFrom_eq_append]
  rfl

/-- The pass over the UTF-8 form of characters finds them. -/
theorem scan_flatMap (chars : List Char) :
    scan (chars.flatMap String.utf8EncodeChar) = chars.map some := by
  induction chars with
  | nil => rfl
  | cons char chars ih =>
    rw [List.flatMap_cons, scan_encodes (encodes_utf8EncodeChar char), ih,
      List.map_cons]

/-- Where all is well-formed, characters were written. -/
theorem exists_flatMap_of_clean (bytes : Bytes) (clean : none ∉ scan bytes) :
    ∃ chars : List Char, bytes = chars.flatMap String.utf8EncodeChar := by
  by_cases empty : bytes = []
  · exact ⟨[], empty⟩
  · obtain ⟨char, front, rest, whole, encodes⟩ := exists_encodes empty clean
    have shorter : rest.length < bytes.length := by
      have positive := List.length_pos_iff.2 encodes.ne_nil
      rw [whole, List.length_append]
      omega
    rw [whole, scan_encodes encodes, List.mem_cons, not_or] at clean
    obtain ⟨chars, isRest⟩ := exists_flatMap_of_clean rest clean.2
    exact ⟨char :: chars,
      by rw [whole, isRest, List.flatMap_cons, encodes_iff.1 encodes]⟩
termination_by bytes.length

theorem mapM_id_eq_some_iff {found : List (Option Char)} {chars : List Char} :
    found.mapM id = some chars ↔ found = chars.map some := by
  induction found generalizing chars with
  | nil => cases chars <;> simp
  | cons item found ih =>
    cases item with
    | none => cases chars <;> simp
    | some char => cases chars <;> simp [Option.bind_eq_some_iff, ih, and_comm]

/-- A byte string is read as a text exactly if it is the UTF-8 form of the text. -/
theorem decode?_eq_some_iff {text : String} :
    decode? bytes = some text ↔ Bytes.ofString text = bytes := by
  rw [decode?, Option.map_eq_some_iff]
  simp only [mapM_id_eq_some_iff]
  constructor
  · rintro ⟨chars, found, rfl⟩
    have clean : none ∉ scan bytes := by simp [found]
    obtain ⟨written, rfl⟩ := exists_flatMap_of_clean bytes clean
    rw [scan_flatMap] at found
    obtain rfl := List.map_injective_iff.2 (fun _ _ => Option.some.inj) found
    rw [Bytes.ofString, String.toList_ofList]
  · rintro rfl
    exact ⟨text.toList, scan_flatMap _, String.ofList_toList⟩

theorem decodeLossy_ofString (text : String) :
    decodeLossy (Bytes.ofString text) = text := by
  rw [decodeLossy, Bytes.ofString, scan_flatMap, List.map_map]
  exact (congrArg String.ofList (List.map_id _)).trans String.ofList_toList

/-! ## Order -/

section Order

variable {other : Char} {left right tail : Bytes}

theorem cons_lt_cons_iff_toNat {byte octet : UInt8} :
    byte :: rest < octet :: tail ↔
      byte.toNat < octet.toNat ∨ byte.toNat = octet.toNat ∧ rest < tail := by
  rw [List.cons_lt_cons_iff, UInt8.lt_iff_toNat_lt, UInt8.toNat_inj]

/-- A scalar value that takes more octets is greater, and its first octet tells that. -/
theorem Encodes.lt_of_length_lt (encodesLeft : Encodes char left)
    (encodesRight : Encodes other right) (shorter : left.length < right.length) :
    char.toNat < other.toNat ∧ ∀ rest tail, left ++ rest < right ++ tail := by
  cases encodesLeft <;> cases encodesRight
  all_goals
    simp only [Tail, UInt8.lt_iff_toNat_lt, UInt8.le_iff_toNat_le, ← UInt8.toNat_inj,
      UInt8.reduceToNat, List.length_cons, List.length_nil, List.cons_append,
      cons_lt_cons_iff_toNat] at *
    first
      | omega
      | exact ⟨by omega, fun _ _ => .inl (by omega)⟩

/-- Of two sequences the one that encodes the smaller scalar value comes first, whatever
follows. -/
theorem Encodes.append_lt_append (encodesLeft : Encodes char left)
    (encodesRight : Encodes other right) (less : char.toNat < other.toNat) :
    left ++ rest < right ++ tail := by
  rcases Nat.lt_trichotomy left.length right.length with shorter | same | longer
  · exact (encodesLeft.lt_of_length_lt encodesRight shorter).2 rest tail
  · -- The octets after the first are digits to the base 64, so that the first
    -- difference decides.
    cases encodesLeft <;> cases encodesRight
    all_goals
      simp only [Tail, UInt8.lt_iff_toNat_lt, UInt8.le_iff_toNat_le, UInt8.reduceToNat,
        List.length_cons, List.length_nil, List.cons_append, List.nil_append,
        cons_lt_cons_iff_toNat] at *
      omega
  · have greater := (encodesRight.lt_of_length_lt encodesLeft longer).1
    omega

theorem flatMap_lt_flatMap {chars others : List Char} (less : chars < others) :
    chars.flatMap String.utf8EncodeChar < others.flatMap String.utf8EncodeChar := by
  induction chars generalizing others with
  | nil =>
    cases others with
    | nil => exact absurd less Std.lt_irrefl
    | cons other others =>
      obtain ⟨byte, bytes, cons⟩ :=
        List.exists_cons_of_ne_nil (encodes_utf8EncodeChar other).ne_nil
      rw [List.flatMap_cons, cons]
      exact List.nil_lt_cons ..
  | cons char chars ih =>
    cases others with
    | nil => exact absurd less (List.not_lt_nil _)
    | cons other others =>
      rw [List.flatMap_cons, List.flatMap_cons]
      rcases List.cons_lt_cons_iff.1 less with smaller | ⟨rfl, lessRest⟩
      · exact (encodes_utf8EncodeChar char).append_lt_append
          (encodes_utf8EncodeChar other)
          (UInt32.lt_iff_toNat_lt.1 smaller)
      · exact List.append_left_lt (ih lessRest)

/-- Texts stand in the order of their UTF-8 forms. -/
theorem ofString_lt_ofString_iff {text next : String} :
    Bytes.ofString text < Bytes.ofString next ↔ text < next := by
  constructor
  · intro less
    by_contra notLess
    rcases Std.le_iff_lt_or_eq.1 (Std.not_lt.1 notLess) with greater | rfl
    · exact Std.lt_irrefl (Std.lt_trans less (flatMap_lt_flatMap greater))
    · exact Std.lt_irrefl less
  · exact fun less => flatMap_lt_flatMap less

end Order

end Metainfo.Utf8
