import Metainfo.Bencode.Cursor
import Metainfo.Bencode.Edit
import Metainfo.Bencode.Sequence
import Metainfo.Files.Tree
import Metainfo.Main
import Metainfo.Proofs.Bencode.Continuation
import Metainfo.Proofs.Bencode.DepthLimit
import Metainfo.Proofs.Bencode.Evidence
import Metainfo.Proofs.Bencode.Lengths
import Metainfo.Proofs.Bencode.Messages
import Metainfo.Proofs.Bencode.Position
import Metainfo.Proofs.Bencode.Reordering
import Metainfo.Proofs.Bencode.RepeatedKeys
import Metainfo.Proofs.Bencode.Safety
import Metainfo.Proofs.Bencode.Sequences
import Metainfo.Proofs.Bencode.Truncation
import Metainfo.Proofs.CommandLine
import Metainfo.Proofs.ConfigFile
import Metainfo.Proofs.Editing
import Metainfo.Proofs.SizeLimit
import Metainfo.Proofs.SummaryRecords
import Metainfo.Proofs.Torrent.Mode
import Metainfo.Proofs.Torrent.Presence
import Metainfo.Proofs.Bencode.Integers
import Metainfo.Proofs.Json.Reading
import Metainfo.Proofs.Bencode.JsonView
import Metainfo.Proofs.TraceRecords
