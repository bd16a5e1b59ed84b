import TagReader.Classic.SectorTrailer
import TagReader.Engine.Builder
import TagReader.Hex.Parser
import TagReader.Json.Values
import TagReader.Link.Recorder
import TagReader.Link.Responder
import TagReader.Link.Sum
import TagReader.Operation
import TagReader.Stream.Channel
import TagReader.UltralightC.Channel
import TagReader.Proofs.Correspondence
import TagReader.Proofs.Attempts
import TagReader.Proofs.Decoding
import TagReader.Proofs.Refusal
import TagReader.Proofs.Overrun
import TagReader.Proofs.Peer
import TagReader.Proofs.Journal
import TagReader.Proofs.Wire
import TagReader.Proofs.Resync
import TagReader.Proofs.LateReply
import TagReader.Proofs.Transmissions
import TagReader.Proofs.Framing
import TagReader.Proofs.Register
import TagReader.Proofs.Detection
import TagReader.Proofs.Bursts
import TagReader.Proofs.Identification
import TagReader.Proofs.Remainder
import TagReader.Proofs.Acts
import TagReader.Proofs.Disturbance
import TagReader.Proofs.Blocks
import TagReader.Proofs.Handshake
import TagReader.Proofs.Losses
import TagReader.Proofs.Conveyance
import TagReader.Proofs.LossyHandshake
import TagReader.Proofs.Exchanges
import TagReader.Proofs.Memory
import TagReader.Proofs.Questions
import TagReader.Proofs.Queries
import TagReader.Proofs.Accesses
import TagReader.Proofs.Bounds
import TagReader.Proofs.Excerpts
import TagReader.Proofs.Secrecy
import TagReader.Proofs.Redundancy
import TagReader.Proofs.Metering
import TagReader.Proofs.Output
import TagReader.Proofs.Babble
import TagReader.Proofs.Absence
import TagReader.Proofs.Permissions
import TagReader.Proofs.ValueBlocks
import TagReader.Proofs.Validation
import TagReader.Proofs.UserData
import TagReader.Proofs.Chunking
import TagReader.Proofs.Replies
import TagReader.Proofs.TagLists
import TagReader.Proofs.Activations
import TagReader.Proofs.SystemReports
import TagReader.Proofs.Hexadecimal
import TagReader.Proofs.RawChannel
import TagReader.Proofs.Passwords
