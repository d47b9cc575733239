import Metainfo.Pattern.Bracket
import Metainfo.Pattern.Group

/-!
# Reading patterns

A pattern is read from left to right into a tree, with the groups around the present
place on a stack.  Groups and classes lie inside each other up to a limit.
-/

namespace Metainfo.Pattern

/-- The parts of a branch of an alternation so far, the latest first. -/
structure Branch where
  start : Place
  parts : List Tree

/-- A branch as a tree. -/
def Branch.toTree (branch : Branch) (finish : Place) : Tree :=
  match branch.parts with
  | [] => .empty ⟨branch.start, finish⟩
  | [part] => part
  | several => .sequence ⟨branch.start, finish⟩ several.reverse

/-- What is inside a group so far: where it begins, the branches before the present one,
the latest first, and the present branch. -/
structure Inside where
  start : Place
  before : List Tree
  branch : Branch

namespace Inside

/-- Nothing, at the place where it begins. -/
def ofPlace (place : Place) : Inside := ⟨place, [], ⟨place, []⟩⟩

/-- Adds a part to the present branch. -/
def push (inside : Inside) (part : Tree) : Inside :=
  { inside with branch := ⟨inside.branch.start, part :: inside.branch.parts⟩ }

/-- Ends the present branch at one place and begins a further one at another. -/
def nextBranch (inside : Inside) (finish start : Place) : Inside :=
  { inside with
    before := inside.branch.toTree finish :: inside.before
    branch := ⟨start, []⟩ }

/-- What is inside as a tree. -/
def toTree (inside : Inside) (finish : Place) : Tree :=
  match inside.before with
  | [] => inside.branch.toTree finish
  | before =>
      .alternation ⟨inside.start, finish⟩
        (inside.branch.toTree finish :: before).reverse

/-- The latest part, if it can be repeated, and the rest. -/
def latest? (inside : Inside) : Option (Tree × Inside) :=
  match inside.branch.parts with
  | [] | .empty _ :: _ | .flags _ _ :: _ => none
  | part :: parts => some (part, { inside with branch := ⟨inside.branch.start, parts⟩ })

end Inside

/-- A group that has been begun: what is before it, its opening, its flags if it does
not capture, and whether the pattern was spaced before it. -/
structure OpenGroup where
  before : Inside
  opening : Span
  marks? : Option (List FlagMark)
  spaced : Bool

/-- The group with its content, up to a place. -/
def OpenGroup.toTree (group : OpenGroup) (inner : Tree) (finish : Place) : Tree :=
  let span : Span := ⟨group.opening.start, finish⟩
  match group.marks? with
  | none => .capture span inner
  | some marks => .group span marks inner

/-- Whether the mark of a repetition that takes as little as it can is missing, and the
scan after it. -/
def readGreed (scan : Scan) : Bool × Scan :=
  if scan.rest.head? = some '?' then (false, scan.advance) else (true, scan)

/-- Reads a count in decimal with white space around it.  It has to fit into 32 bits. -/
def readCount (scan : Scan) : Except Complaint Nat × Scan :=
  let scan := scan.skipBlank
  let rec digits : (count : Nat) → (value? : Option Nat) → Scan → Option Nat × Scan
    | 0, value?, scan => (value?, scan)
    | count + 1, value?, scan =>
        match scan.rest with
        | [] => (value?, scan)
        | char :: _ =>
            if char.isDigit then
              digits count (some (value?.getD 0 * 10 + (char.toNat - '0'.toNat)))
                scan.next
            else (value?, scan)
  let (value?, after) := digits scan.rest.length none scan
  let span := after.since scan.place
  let result := match value? with
    | none => .error ⟨span, .countMissing⟩
    | some value =>
        if value < UInt32.size then .ok value else .error ⟨span, .countTooLarge⟩
  (result, after.skipBlank)

/-- Reads the counts of a repetition after its brace: the least one, and the greatest
one if there is one. -/
def readCounts (brace : Scan) : Except Complaint (Nat × Option Nat × Scan) := do
  let unclosed (scan : Scan) : Complaint := ⟨scan.since brace.place, .countUnclosed⟩
  let scan := brace.next
  if scan.atEnd then throw (unclosed scan)
  let (least, scan) := readCount scan
  if scan.atEnd then throw (unclosed scan)
  if scan.rest.head? ≠ some ',' then
    let least ← least
    return (least, some least, scan)
  let scan := scan.next
  if scan.atEnd then throw (unclosed scan)
  let least ← least
  if scan.rest.head? = some '\x7d' then
    return (least, none, scan)
  let (most, scan) := readCount scan
  return (least, some (← most), scan)

/-- Reads a repetition by counts at its brace. -/
def readCounted (inside : Inside) (brace : Scan) :
    Except Complaint (Inside × Scan) := do
  let some (part, inside) := inside.latest? | throw ⟨brace.here, .nothingToRepeat⟩
  let (least, most, scan) ← readCounts brace
  if scan.rest.head? ≠ some '\x7d' then throw ⟨scan.since brace.place, .countUnclosed⟩
  let (greedy, after) := readGreed scan.next
  if most.any (· < least) then throw ⟨after.since brace.place, .countOrder⟩
  return (inside.push
    (.repetition (after.since part.span.start) least most greedy part), after)

/-- Reads a repetition by a mark. -/
def readMarked (least : Nat) (most : Option Nat) (inside : Inside) (mark : Scan) :
    Except Complaint (Inside × Scan) := do
  let some (part, inside) := inside.latest? | throw ⟨mark.here, .nothingToRepeat⟩
  let (greedy, after) := readGreed mark.advance
  return (inside.push
    (.repetition (after.since part.span.start) least most greedy part), after)

/-- The state of white space after flags. -/
def spacedAfter (marks : List FlagMark) (spaced : Bool) : Bool :=
  (stateOf? .spaced marks true).getD spaced

/-- The tree of a pattern that ends where the scan stands. -/
def finish (inside : Inside) (outer : List OpenGroup) (scan : Scan) :
    Except Complaint Tree :=
  match outer with
  | [] => .ok (inside.toTree scan.place)
  | group :: _ => .error ⟨group.opening, .groupUnclosed⟩

/-- Reads a pattern to its end, in at most `count` steps. -/
def readFrom : (count : Nat) → Inside → List OpenGroup → Scan → Except Complaint Tree
  | 0, inside, outer, scan => finish inside outer scan
  | count + 1, inside, outer, scan => do
      let scan := scan.skip
      match scan.rest with
      | [] => finish inside outer scan
      | '(' :: _ =>
          let (start, after) ← readGroupStart scan
          match start with
          | .flags span marks =>
              readFrom count (inside.push (.flags span marks)) outer
                { after with spaced := spacedAfter marks after.spaced }
          | .capture opening =>
              readFrom count (Inside.ofPlace after.place)
                (⟨inside, opening, none, after.spaced⟩ :: outer) after
          | .group opening marks =>
              readFrom count (Inside.ofPlace after.place)
                (⟨inside, opening, some marks, after.spaced⟩ :: outer)
                { after with spaced := spacedAfter marks after.spaced }
      | ')' :: _ =>
          match outer with
          | [] => throw ⟨scan.charSpan, .groupUnopened⟩
          | group :: outer =>
              let after := scan.advance
              let tree := group.toTree (inside.toTree scan.place) after.place
              readFrom count (group.before.push tree) outer
                { after with spaced := group.spaced }
      | '|' :: _ =>
          let after := scan.advance
          readFrom count (inside.nextBranch scan.place after.place) outer after
      | '[' :: _ =>
          let (tree, after) ← readClass scan
          readFrom count (inside.push tree) outer after
      | '?' :: _ =>
          let (inside, after) ← readMarked 0 (some 1) inside scan
          readFrom count inside outer after
      | '*' :: _ =>
          let (inside, after) ← readMarked 0 none inside scan
          readFrom count inside outer after
      | '+' :: _ =>
          let (inside, after) ← readMarked 1 none inside scan
          readFrom count inside outer after
      | '\x7b' :: _ =>
          let (inside, after) ← readCounted inside scan
          readFrom count inside outer after
      | _ =>
          let (primitive, after) ← readPrimitive scan
          readFrom count (inside.push primitive.toTree) outer after

/-- How deep groups, classes, repetitions, alternations and sequences may lie inside
each other. -/
def nestingLimit : Nat := 250

mutual

/-- The first set in the class that lies too deep, the class itself being inside `depth`
others. -/
def ClassSet.tooDeep? (depth : Nat) : ClassSet → Option Span
  | .bracketed span _ inner =>
      if depth ≥ nestingLimit then some span else inner.tooDeep? (depth + 1)
  | .union span items =>
      if depth ≥ nestingLimit then some span else setsTooDeep? (depth + 1) items
  | .operation span _ left right =>
      if depth ≥ nestingLimit then some span
      else (left.tooDeep? (depth + 1)).or (right.tooDeep? (depth + 1))
  | _ => none

/-- The first set in the list that lies too deep. -/
def setsTooDeep? (depth : Nat) : List ClassSet → Option Span
  | [] => none
  | set :: sets => (set.tooDeep? depth).or (setsTooDeep? depth sets)

end

mutual

/-- The first part of the tree that lies too deep, the tree itself being inside `depth`
others. -/
def Tree.tooDeep? (depth : Nat) : Tree → Option Span
  | .bracketed span _ inner =>
      if depth ≥ nestingLimit then some span else inner.tooDeep? (depth + 1)
  | .repetition span _ _ _ inner | .capture span inner | .group span _ inner =>
      if depth ≥ nestingLimit then some span else inner.tooDeep? (depth + 1)
  | .alternation span branches =>
      if depth ≥ nestingLimit then some span else treesTooDeep? (depth + 1) branches
  | .sequence span parts =>
      if depth ≥ nestingLimit then some span else treesTooDeep? (depth + 1) parts
  | _ => none

/-- The first part in the list that lies too deep. -/
def treesTooDeep? (depth : Nat) : List Tree → Option Span
  | [] => none
  | tree :: trees => (tree.tooDeep? depth).or (treesTooDeep? depth trees)

end

/-- The tree of a pattern. -/
def readTree (chars : List Char) : Except Complaint Tree := do
  let scan := Scan.ofChars chars
  let tree ← readFrom (chars.length + 1) (Inside.ofPlace scan.place) [] scan
  match tree.tooDeep? 0 with
  | some span => throw ⟨span, .tooNested nestingLimit⟩
  | none => return tree

end Metainfo.Pattern
