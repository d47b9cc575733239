import Metainfo.Command.Arguments
import Metainfo.Config
import Metainfo.Hashing
import Metainfo.Log.Filter

/-!
# The command

Given a path, the command loads the configuration, hashes the torrent at the path and
writes the info-hash.  Log records and errors go to the error output: an error is
written twice, as a log record and by itself, each time with everything that caused it.
-/

namespace Metainfo.Command

open Files Log

/-- The name under which the command is called. -/
def name : String := "rusbit-infohash"

/-- The version of the command. -/
def version : String := "0.1.0"

/-- The target of the records that the command itself writes. -/
def target : String := "rusbit_infohash"

/-- The filter where none is asked for. -/
def defaultFilter : String := "warn"

/-- The line that shows how the command is called. -/
def usageText : String := s!"Usage: {name} <TORRENT>\n"

/-- The answer to the option that asks for help. -/
def helpText : String :=
  "Print the BitTorrent info-hash of a .torrent file\n\n" ++ usageText ++
    "\nArguments:\n  <TORRENT>  Path to a bencoded .torrent file\n" ++
    "\nOptions:\n  -h, --help     Print help\n  -V, --version  Print version\n"

/-- The answer to the option that asks for the version. -/
def versionText : String := s!"{name} {version}\n"

/-- What the command leaves: its exit status, what it wrote to the output, and the texts
it wrote to the error output, each with a line end after it. -/
structure Outcome where
  status : Nat
  output : String
  errors : List String
  deriving DecidableEq, Repr

namespace Outcome

/-- A line without a carriage return at its end. -/
def dropReturn (line : List Char) : List Char :=
  if line.getLast? = some '\r' then line.dropLast else line

/-- The lines of the error output. -/
def errorLines (outcome : Outcome) : List String :=
  outcome.errors.flatMap fun text =>
    (text.toList.splitOnP (· == '\n')).map fun line => String.ofList (dropReturn line)

end Outcome

/-- An error with its causes, after what was being done. -/
def chain (context message : String) (causes : List String) : String :=
  String.intercalate ": " (context :: message :: causes)

/-- The records that a filter shows, as they are written. -/
def shown (filter : Filter) (records : List Record) : List String :=
  (records.filter filter.shows).map Record.text

/-- What the command leaves when it fails after some texts written to the error
output. -/
def failing (filter : Filter) (before : List String) (message : String) : Outcome :=
  let record := emit (filter.threshold target) .error target message
  ⟨1, "", before ++ shown filter record ++ ["Error: " ++ message]⟩

/-- Hashes the torrent at a path, which a reader reads. -/
def hashWith (reader : Hashing.Reader) (filter : Filter) (fileSystem : FileSystem)
    (path : NativeText) : Outcome :=
  match Config.load fileSystem with
  | .error error =>
      failing filter []
        (chain "failed to load configuration" error.message error.cause?.toList)
  | .ok limits =>
      let logged := Hashing.hashFileWith reader (filter.threshold Hashing.target) limits
        fileSystem path
      let records := shown filter logged.records
      match logged.result with
      | .ok hash => ⟨0, hash.toHex ++ "\n", records⟩
      | .error error =>
          failing filter records
            (chain ("failed to hash " ++ path.display) error.message error.causes)

/-- Runs the command with a reader for the torrent, with the text that describes the log
filter, if there is one, and with its arguments.  There is no outcome to speak of when
the command is misused. -/
def runWith (reader : Hashing.Reader) (filterText : Option String)
    (words : List NativeText) (fileSystem : FileSystem) : Option Outcome :=
  let (filter, warnings) := Filter.ofText (filterText.getD defaultFilter)
  match Request.ofArguments words with
  | .help => some ⟨0, helpText, warnings⟩
  | .version => some ⟨0, versionText, warnings⟩
  | .misuse => none
  | .hash path =>
      let outcome := hashWith reader filter fileSystem path
      some { outcome with errors := warnings ++ outcome.errors }

/-- Runs the command. -/
def run : Option String → List NativeText → FileSystem → Option Outcome :=
  runWith Hashing.load

end Metainfo.Command
