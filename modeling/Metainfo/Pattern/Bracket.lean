import Metainfo.Pattern.Escape

/-!
# Classes in brackets

A class is read with the sets and operations around the present place on a stack.
Operations bind more loosely than standing side by side and are taken from left to
right.
-/

namespace Metainfo.Pattern

/-- The items of a class so far, the latest first. -/
structure Items where
  span : Span
  items : List ClassSet

namespace Items

/-- No items at a place. -/
def start (place : Place) : Items := ⟨Span.point place, []⟩

/-- Adds an item. -/
def push (items : Items) (item : ClassSet) : Items :=
  match items.items with
  | [] => ⟨item.span, [item]⟩
  | before => ⟨⟨items.span.start, item.span.finish⟩, item :: before⟩

/-- The items as one set. -/
def toSet (items : Items) : ClassSet :=
  match items.items with
  | [] => .empty items.span
  | [item] => item
  | several => .union items.span several.reverse

end Items

/-- What has been begun around the present place: a bracket with the items before it, or
an operation with its left operand. -/
inductive ClassFrame where
  | bracket (before : Items) (opening : Span) (negated : Bool)
  | operation (operation : SetOperation) (left : ClassSet)

/-- The complaint that the innermost bracket is not closed. -/
def unclosedClass (scan : Scan) : List ClassFrame → Complaint
  | [] => ⟨scan.here, .classUnclosed⟩
  | .bracket _ opening _ :: _ => ⟨opening, .classUnclosed⟩
  | .operation _ _ :: frames => unclosedClass scan frames

/-- Completes the operation whose right operand is given, if one has been begun in the
present bracket. -/
def completeOperation (right : ClassSet) : List ClassFrame → ClassSet × List ClassFrame
  | .operation operation left :: frames =>
      (.operation ⟨left.span.start, right.span.finish⟩ operation left right, frames)
  | frames => (right, frames)

/-- The class of a name. -/
def namedClass? (name : List Char) : Option NamedClass :=
  let names : List (String × NamedClass) := [
    ("alnum", .alnum), ("alpha", .alpha), ("ascii", .ascii), ("blank", .blank),
    ("cntrl", .cntrl), ("digit", .digit), ("graph", .graph), ("lower", .lower),
    ("print", .print), ("punct", .punct), ("space", .space), ("upper", .upper),
    ("word", .word), ("xdigit", .xdigit)]
  (names.find? fun entry => entry.1.toList = name).map Prod.snd

/-- Reads a named class at its bracket.  What is none is left to be read as a
bracket. -/
def readNamed? (scan : Scan) : Option (ClassSet × Scan) :=
  match scan.rest with
  | '[' :: ':' :: chars =>
      let (negated, chars) := match chars with
        | '^' :: chars => (true, chars)
        | chars => (false, chars)
      let name := chars.takeWhile (· != ':')
      match chars.dropWhile (· != ':') with
      | ':' :: ']' :: _ =>
          (namedClass? name).map fun found =>
            let after := scan.advanceBy (name.length + if negated then 5 else 4)
            (.named (after.since scan.place) found negated, after)
      | _ => none
  | _ => none

/-- Reads the hyphens at the front of a class, at most `count` of them; each stands for
itself. -/
def readHyphens (start : Place) :
    (count : Nat) → Items → Scan → Except Complaint (Items × Scan)
  | 0, items, scan => .ok (items, scan)
  | count + 1, items, scan =>
      if scan.rest.head? = some '-' then
        let items := items.push (.literal ⟨scan.charSpan, '-', false⟩)
        if scan.next.atEnd then .error ⟨Span.point start, .classUnclosed⟩
        else readHyphens start count items scan.next
      else .ok (items, scan)

/-- Reads the beginning of a class: its bracket, the negation, and the hyphens and the
closing bracket that stand for themselves there.  Returns the span so far, whether the
class is negated, and the items. -/
def readOpening (bracket : Scan) : Except Complaint (Span × Bool × Items × Scan) := do
  let start := bracket.place
  let unclosed (scan : Scan) : Complaint := ⟨scan.since start, .classUnclosed⟩
  let scan := bracket.next
  if scan.atEnd then throw (unclosed scan)
  let negated := scan.rest.head? = some '^'
  let scan := if negated then scan.next else scan
  if scan.atEnd then throw (unclosed scan)
  let (items, scan) ← readHyphens start scan.rest.length (Items.start scan.place) scan
  if items.items.isEmpty ∧ scan.rest.head? = some ']' then
    let items := items.push (.literal ⟨scan.charSpan, ']', false⟩)
    let scan := scan.next
    if scan.atEnd then throw (unclosed scan)
    return (scan.since start, negated, items, scan)
  return (scan.since start, negated, items, scan)

/-- Reads one character or escape of a class. -/
def readClassPrimitive (scan : Scan) : Except Complaint (Primitive × Scan) :=
  match scan.rest with
  | '\\' :: _ => readEscape scan
  | char :: _ => .ok (.literal ⟨scan.charSpan, char, false⟩, scan.advance)
  | [] => .error ⟨scan.here, .classUnclosed⟩

/-- A primitive as an item of a class. -/
def itemOf : Primitive → Except Complaint ClassSet
  | .literal char => .ok (.literal char)
  | .letter span name negated => .ok (.letter span name negated)
  | .property span name => .ok (.property span name)
  | other => .error ⟨other.span, .classEscape⟩

/-- A primitive as an end of a range. -/
def endOf : Primitive → Except Complaint Literal
  | .literal char => .ok char
  | other => .error ⟨other.span, .classRangeEnd⟩

/-- Reads a range, or one item if no range begins here. -/
def readRange (frames : List ClassFrame) (scan : Scan) :
    Except Complaint (ClassSet × Scan) := do
  let (first, scan) ← readClassPrimitive scan
  let scan := scan.skip
  if scan.atEnd then throw (unclosedClass scan frames)
  if scan.rest.head? ≠ some '-' ∨ scan.second? = some ']' ∨ scan.second? = some '-' then
    return (← itemOf first, scan)
  let scan := scan.next
  if scan.atEnd then throw (unclosedClass scan frames)
  let (last, scan) ← readClassPrimitive scan
  let span : Span := ⟨first.span.start, last.span.finish⟩
  let low ← endOf first
  let high ← endOf last
  if high.char < low.char then throw ⟨span, .classRangeOrder⟩
  return (.range span low high, scan)

/-- The operation of two equal characters. -/
def operation? : Char → Option SetOperation
  | '&' => some .intersection
  | '-' => some .difference
  | '~' => some .symmetricDifference
  | _ => none

/-- The operation at the front of a text. -/
def operationAt? : List Char → Option SetOperation
  | first :: second :: _ => if first = second then operation? first else none
  | _ => none

/-- Reads a class up to the bracket that closes the outermost frame, in at most `count`
steps. -/
def readClassFrom : (count : Nat) → Items → List ClassFrame → Scan →
    Except Complaint (Tree × Scan)
  | 0, _, frames, scan => .error (unclosedClass scan frames)
  | count + 1, items, frames, scan =>
      let scan := scan.skip
      match scan.rest with
      | [] => .error (unclosedClass scan frames)
      | '[' :: _ =>
          match readNamed? scan with
          | some (named, after) => readClassFrom count (items.push named) frames after
          | none => do
              let (opening, negated, inner, after) ← readOpening scan
              readClassFrom count inner (.bracket items opening negated :: frames) after
      | ']' :: _ =>
          let (inner, frames) := completeOperation items.toSet frames
          let after := scan.advance
          match frames with
          | [.bracket _ opening negated] =>
              .ok (.bracketed (after.since opening.start) negated inner, after)
          | .bracket before opening negated :: frames =>
              readClassFrom count
                (before.push (.bracketed (after.since opening.start) negated inner))
                frames after
          | frames => .error (unclosedClass scan frames)
      | chars =>
          match operationAt? chars with
          | some operation =>
              let (left, frames) := completeOperation items.toSet frames
              let after := scan.advanceBy 2
              readClassFrom count (Items.start after.place)
                (.operation operation left :: frames) after
          | none => do
              let (item, after) ← readRange frames scan
              readClassFrom count (items.push item) frames after

/-- Reads a class at its bracket. -/
def readClass (bracket : Scan) : Except Complaint (Tree × Scan) := do
  let (opening, negated, inner, scan) ← readOpening bracket
  readClassFrom (scan.rest.length + 1) inner
    [.bracket (Items.start bracket.place) opening negated] scan

end Metainfo.Pattern
