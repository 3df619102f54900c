import PosixFiles.Operation.Comparison
import PosixFiles.Trial
import PosixFiles.System.Contested
import PosixFiles.World.Inventory
import PosixFiles.Proofs.Directory.Protocol
import PosixFiles.Proofs.Path.Ancestor
import PosixFiles.Proofs.World.Arrival
import PosixFiles.Proofs.Directory.Stepwise
import PosixFiles.Proofs.World.Growth
import PosixFiles.Proofs.World.Open
import PosixFiles.Proofs.Directory.Race
import PosixFiles.Proofs.Interruption.Agreement
import PosixFiles.Proofs.Interruption.Operation
import PosixFiles.Proofs.Interruption.Listing
import PosixFiles.Proofs.Interruption.Session
import PosixFiles.Proofs.Interruption.Trial
import PosixFiles.Proofs.World.Attribute
import PosixFiles.Proofs.Operation.Attribute
import PosixFiles.Proofs.Operation.Record
import PosixFiles.Proofs.Operation.Fault
import PosixFiles.Proofs.Listing.Stream
import PosixFiles.Proofs.Listing.Typing
import PosixFiles.Proofs.World.Entry
import PosixFiles.Proofs.World.Creation
import PosixFiles.Proofs.World.Deletion
import PosixFiles.Proofs.Operation.Deletion
import PosixFiles.Proofs.Interruption.Attribute
import PosixFiles.Proofs.Operation.View
import PosixFiles.Proofs.Operation.Effect
import PosixFiles.Proofs.Operation.Ruling
import PosixFiles.Proofs.Operation.Times
import PosixFiles.Proofs.Directory.Creation
import PosixFiles.Proofs.Digest.Message
import PosixFiles.Proofs.Digest.Reading
import PosixFiles.Proofs.Digest.Precedence
import PosixFiles.Proofs.Operation.Tagging
import PosixFiles.Proofs.Operation.Handle
import PosixFiles.Proofs.Operation.Refusal
import PosixFiles.Proofs.Operation.NulByte
import PosixFiles.Proofs.Operation.Target
import PosixFiles.Proofs.Toml.Numeral
import PosixFiles.Proofs.Toml.Assignment
import PosixFiles.Proofs.Config.RoundTrip
import PosixFiles.Proofs.Operation.Parameter
import PosixFiles.Proofs.Listing.Following
import PosixFiles.Proofs.Operation.Idempotence
import PosixFiles.Proofs.Path.Boundary
import PosixFiles.Proofs.Operation.Value
import PosixFiles.Proofs.Operation.Event
import PosixFiles.Proofs.Directory.Event
import PosixFiles.Proofs.Listing.Event
import PosixFiles.Proofs.Operation.Telling
import PosixFiles.Proofs.Toml.Order
import PosixFiles.Proofs.Config.Precedence
