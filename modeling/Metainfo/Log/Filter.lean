import Metainfo.Log.Record
import Metainfo.Pattern
import Metainfo.Text.Blank

/-!
# Log filters

A filter is described by directives between commas, each a level for all targets, or a
target with an optional level, and after a slash a pattern that messages have to match.
For a record the directive with the longest target that its own target begins with
counts; so each target has its threshold.  Directives that make no sense are left out
with a warning.
-/

namespace Metainfo.Log

/-- A threshold for the targets that begin with a name, or for all. -/
structure Directive where
  target : Option (List Char)
  threshold : Threshold
  deriving DecidableEq, Repr

namespace Directive

/-- The number of octets of the name of the target. -/
def size (directive : Directive) : Nat :=
  match directive.target with
  | none => 0
  | some name => (String.ofList name).utf8ByteSize

/-- Whether the directive is about a target. -/
def concerns (directive : Directive) (target : List Char) : Bool :=
  match directive.target with
  | none => true
  | some name => name.isPrefixOf target

/-- The most verbose threshold, which a target without a level has. -/
def verbose : Threshold := .upTo .trace

/-- Reads a directive that is not blank; an error is the text that makes no sense. -/
def ofText (text : List Char) : Except (List Char) Directive :=
  let threshold? (level : List Char) : Option Threshold :=
    Threshold.ofName? (String.ofList level)
  match text.splitOnP (· == '=') with
  | [part] =>
      match threshold? part with
      | some threshold => .ok ⟨none, threshold⟩
      | none => .ok ⟨some part, verbose⟩
  | [name, level] =>
      let level := Text.trim level
      if level = [] then .ok ⟨some name, verbose⟩
      else
        match threshold? level with
        | some threshold => .ok ⟨some name, threshold⟩
        | none => .error level
  | _ => .error text

/-- Adds a directive, which takes the place of one with the same target. -/
def add (directive : Directive) : List Directive → List Directive
  | [] => [directive]
  | present :: rest =>
      if present.target = directive.target then directive :: rest
      else present :: add directive rest

end Directive

/-- The directives in the order of the size of their targets, and the pattern for
messages if there is one. -/
structure Filter where
  directives : List Directive
  pattern : Option Pattern
  deriving DecidableEq, Repr

namespace Filter

/-- The filter made of directives; without any, errors alone are let through. -/
def ofDirectives (directives : List Directive) (pattern : Option Pattern) : Filter :=
  let distinct := directives.foldl (fun done directive => directive.add done) []
  match distinct with
  | [] => ⟨[⟨none, .upTo .error⟩], pattern⟩
  | distinct => ⟨distinct.mergeSort fun left right => left.size ≤ right.size, pattern⟩

/-- The warning about a text that makes no sense. -/
def warning (text : List Char) (reason : String) : String :=
  "warning: invalid logging spec '" ++ String.ofList text ++ "', ignoring it" ++ reason

/-- The filter that a text describes, and the warnings about it. -/
def ofText (text : String) : Filter × List String :=
  match text.toList.splitOnP (· == '/') with
  | directives :: patterns =>
      if patterns.length > 1 then
        (ofDirectives [] none, [warning text.toList " (too many '/'s)"])
      else
        let parts := (directives.splitOnP (· == ',')).map Text.trim |>.filter (· ≠ [])
        let read := parts.map Directive.ofText
        let warnings := read.filterMap fun
          | .ok _ => none
          | .error text => some (warning text "")
        let accepted := read.filterMap Except.toOption
        match patterns with
        | [] => (ofDirectives accepted none, warnings)
        | pattern :: _ =>
            match Pattern.ofChars pattern with
            | .ok found => (ofDirectives accepted (some found), warnings)
            | .error refusal =>
                (ofDirectives accepted none,
                  warnings ++
                    ["warning: invalid regex filter - " ++ refusal.text pattern])
  | [] => (ofDirectives [] none, [])

/-- The threshold for the records of a target. -/
def threshold (filter : Filter) (target : String) : Threshold :=
  match filter.directives.reverse.find? (·.concerns target.toList) with
  | some directive => directive.threshold
  | none => .off

/-- Whether a record that its threshold lets through is also written, as its message
matches the pattern. -/
def shows (filter : Filter) (record : Record) : Bool :=
  match filter.pattern with
  | none => true
  | some pattern => pattern.occursIn record.message

end Filter

namespace Record

/-- The characters with a text in front of each line after the first. -/
def indented (indent chars : List Char) : List Char :=
  chars.flatMap fun char => if char = '\n' then char :: indent else [char]

/-- The record as it is written: level and target in brackets, then the message, whose
further lines are indented. -/
def text (record : Record) : String :=
  "[" ++ String.ofList (record.level.name.toList.rightpad 5 ' ') ++ " " ++
    record.target ++ "] " ++
    String.ofList (indented (List.replicate 4 ' ') record.message.toList)

end Record

end Metainfo.Log
