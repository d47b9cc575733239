import Metainfo.Pattern.Scan
import Metainfo.Pattern.Tree
import Metainfo.Text.Letters

/-!
# Beginnings of groups

What stands after an opening parenthesis: nothing for a group that captures, a name for
one that does so by name, flags for one that does not capture, or flags alone, which
hold from there on.
-/

namespace Metainfo.Pattern

/-- What an opening parenthesis begins. -/
inductive GroupStart where
  /-- Flags for what follows, with nothing in the group. -/
  | flags (span : Span) (marks : List FlagMark)
  | capture (opening : Span)
  | group (opening : Span) (marks : List FlagMark)

/-- The flag of a letter, or the hyphen; nothing for other characters. -/
def flag? : Char → Option (Option Flag)
  | '-' => some none
  | 'i' => some (some .ignoreCase)
  | 'm' => some (some .multiLine)
  | 's' => some (some .dotLineEnd)
  | 'U' => some (some .swapGreed)
  | 'u' => some (some .unicode)
  | 'R' => some (some .carriageReturn)
  | 'x' => some (some .spaced)
  | _ => none

/-- The fault of a mark that stood at a place already. -/
def repeatedMark (first : Span) : Option Flag → Fault
  | none => .hyphenAgain first
  | some _ => .flagAgain first

/-- Reads flags up to a colon or a closing parenthesis, `done` holding those before in
reverse order.  At most `count` are read. -/
def readFlags : (count : Nat) → (done : List FlagMark) → Scan →
    Except Complaint (List FlagMark × Scan)
  | 0, done, scan => .ok (done.reverse, scan)
  | count + 1, done, scan =>
      match scan.rest with
      | [] => .error ⟨scan.here, .flagsUnfinished⟩
      | char :: _ =>
          if char = ':' ∨ char = ')' then
            match done with
            | ⟨span, none⟩ :: _ => .error ⟨span, .hyphenDangling⟩
            | _ => .ok (done.reverse, scan)
          else
            match flag? char with
            | none => .error ⟨scan.charSpan, .flagUnknown⟩
            | some flag =>
                match done.find? fun mark => mark.flag = flag with
                | some first => .error ⟨scan.charSpan, repeatedMark first.span flag⟩
                | none => readFlags count (⟨scan.charSpan, flag⟩ :: done) scan.advance

/-- Whether a character can stand in the name of a group. -/
def isNameChar (first : Bool) (char : Char) : Bool :=
  if first then char = '_' || Text.isLetter char
  else
    char = '_' || char = '.' || char = '[' || char = ']' || Text.isLetterOrNumeral char

/-- The characters of a name up to an angle bracket or the end, at most `count` of
them. -/
def readName :
    (count : Nat) → (done : List Char) → Scan → Except Complaint (List Char × Scan)
  | 0, done, scan => .ok (done.reverse, scan)
  | count + 1, done, scan =>
      match scan.rest with
      | [] => .ok (done.reverse, scan)
      | char :: _ =>
          if char = '>' then .ok (done.reverse, scan)
          else if isNameChar done.isEmpty char then
            readName count (char :: done) scan.advance
          else .error ⟨scan.charSpan, .nameChar⟩

/-- Reads the name of a group and the angle bracket after it. -/
def readGroupName (scan : Scan) : Except Complaint Scan := do
  let (name, close) ← readName scan.rest.length [] scan
  if close.atEnd then throw ⟨close.here, .nameUnclosed⟩
  let span := close.since scan.place
  if name.isEmpty then throw ⟨span, .nameEmpty⟩
  match close.names.find? fun entry => entry.1 = name with
  | some first => throw ⟨span, .nameAgain first.2⟩
  | none => return { close.advance with names := (name, span) :: close.names }

/-- How many characters at the front of a text ask for a look around. -/
def lookAround? : List Char → Option Nat
  | '?' :: '=' :: _ => some 2
  | '?' :: '!' :: _ => some 2
  | '?' :: '<' :: '=' :: _ => some 3
  | '?' :: '<' :: '!' :: _ => some 3
  | _ => none

/-- Reads the beginning of a group at its parenthesis. -/
def readGroupStart (parenthesis : Scan) : Except Complaint (GroupStart × Scan) := do
  let opening := parenthesis.charSpan
  let scan := parenthesis.next
  if let some count := lookAround? scan.rest then
    throw ⟨(scan.advanceBy count).since opening.start, .lookAround⟩
  match scan.rest with
  | '?' :: 'P' :: '<' :: _ =>
      return (.capture opening, ← readGroupName (scan.advanceBy 3))
  | '?' :: '<' :: _ => return (.capture opening, ← readGroupName (scan.advanceBy 2))
  | '?' :: [] => throw ⟨opening, .groupUnclosed⟩
  | '?' :: marks =>
      let (marks, close) ← readFlags (marks.length + 1) [] scan.advance
      let after := close.advance
      if close.rest.head? = some ')' then
        if marks.isEmpty then throw ⟨scan.here, .nothingToRepeat⟩
        return (.flags (after.since opening.start) marks, after)
      return (.group opening marks, after)
  | _ => return (.capture opening, scan)

end Metainfo.Pattern
