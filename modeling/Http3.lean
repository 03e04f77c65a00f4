import Http3.Lib.Proc
import Http3.Lib.Reader
import Http3.Lib.Runs
import Http3.Lib.Bytes
import Http3.Lib.Cut
import Http3.Lib.Loop
import Http3.Lib.IdMap
import Http3.Lib.Queues
import Http3.Lib.Safe
import Http3.Lib.Scan
import Http3.Lib.SortedSet
import Http3.Lib.Utf8
import Http3.Lib.StructuredField
import Http3.VarInt
import Http3.Settings
import Http3.Error
import Http3.Frame
import Http3.Framing
import Http3.Qpack.Instruction
import Http3.Qpack.Integer
import Http3.Lib.Bits
import Http3.Qpack.Huffman
import Http3.Qpack.HuffmanCode
import Http3.Qpack.HuffmanDecode
import Http3.Header
import Http3.Qpack.StaticTable
import Http3.Qpack.Wire
import Http3.Qpack.DynamicTable
import Http3.Qpack.Encoder
import Http3.Qpack.Eviction
import Http3.Qpack.TableRuns
import Http3.Qpack.BlockedStreams
import Http3.Qpack.Decoder
import Http3.Qpack.LineSyntax
import Http3.Qpack.StaticDecoder
import Http3.Qpack.EncoderStream
import Http3.Qpack.FieldLine
import Http3.Qpack.Replication
import Http3.Qpack.RequiredInsertCount
import Http3.Qpack.Section
import Http3.Qpack.Representation
import Http3.Qpack.NeverIndexed
import Http3.Qpack.SliceEncoder
import Http3.Qpack.WordReaders
import Http3.Qpack.WordDecoder
import Http3.Qpack.References
import Http3.Qpack.DecoderStream
import Http3.Stream.Buffer
import Http3.Validation
import Http3.Authority
import Http3.RequestRules
import Http3.HeaderCheck
import Http3.Stream.Control
import Http3.Stream.Request
import Http3.Stream.Reading
import Http3.Stream.Message
import Http3.Stream.BodyLimit
import Http3.Codec
import Http3.SettingsCodec
import Http3.Lib.Writer
import Http3.WebTransport.Capsule
import Http3.WebTransport.SfParser
import Http3.WebTransport.SfLists
import Http3.WebTransport.ConnectRequest
import Http3.WebTransport.FlowControl
import Http3.WebTransport.Session
import Http3.WebTransport.Lifecycle
import Http3.WebTransport.SendLimits
import Http3.WebTransport.Sendable
import Http3.WebTransport.CapsuleCodec
import Http3.Lib.Window
import Http3.Event
import Http3.Connection.Types
import Http3.Connection.State
import Http3.Connection.WtSession
import Http3.Connection.WtCapsule
import Http3.Connection.WtStream
import Http3.Connection.WtConnect
import Http3.Connection.Frames
import Http3.Connection.Control
import Http3.Connection.Feed
import Http3.Connection.Moves
import Http3.Connection.Send
import Http3.Connection.Api
import Http3.Connection.CallMoves
import Http3.Connection.Runs
import Http3.Connection.Errors
import Http3.Connection.SessionIds
import Http3.Connection.StreamIds
import Http3.Connection.Panics
import Http3.Connection.Deferred
import Http3.Connection.Division
import Http3.Connection.Requests
import Http3.Connection.Rejected
import Http3.Connection.Delivery
import Http3.Connection.KnownReceived
import Http3.Connection.Negotiation
import Http3.Connection.SessionRules
import Http3.Connection.QueuedCapsules
import Http3.Connection.ControlStream
import Http3.Connection.ControlFields
import Http3.Connection.ControlPieces
import Http3.Connection.ControlOrder
import Http3.Connection.EarlySessions
import Http3.Connection.Goaway
import Http3.Connection.OtherStreams
import Http3.Connection.Told
import Http3.Connection.ContentLength
import Http3.Lib.Track
import Http3.Lib.Grant
import Http3.Lib.Log
import Http3.Lib.Residue
import Http3.WebTransport.ReceiveWindows
import Http3.Lib.Skip
import Http3.WebTransport.ErrorCode
import Http3.WebTransport.StreamHeader
import Http3.Qpack.PrefixIntegers
import Http3.Lib.Feedback
import Http3.Qpack.SharedLog
import Http3.Qpack.SentSections
import Http3.Qpack.EndToEnd
import Http3.Lib.Credit
import Http3.WebTransport.SendFlowControl
import Http3.Connection.SessionWindows
import Http3.Connection.Exchange
import Http3.Lib.Pieces
import Http3.Connection.Beside
import Http3.Connection.MessageReader
import Http3.Connection.Answers
import Http3.Connection.Hearing
import Http3.Connection.MessageRun
import Http3.Connection.SentMessage
import Http3.Connection.Arrivals
import Http3.Connection.Crossing
import Http3.Connection.DraftChoice
import Http3.Connection.Handshake
import Http3.Lib.Monitor
import Http3.Connection.HeldBack
import Http3.Connection.SessionMoves
import Http3.Connection.SessionEvents
import Http3.Connection.AskedSessions
import Http3.Connection.SessionBuffers
