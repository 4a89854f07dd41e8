import Tbquic.Lib.Fallible
import Tbquic.Lib.Window
import Tbquic.Common
import Tbquic.Lib.Bytes
import Tbquic.PktNumber
import Tbquic.Packet
import Tbquic.PacketBounds
import Tbquic.VarInt
import Tbquic.VarCodec
import Tbquic.VarCopy
import Tbquic.Lib.Trace
import Tbquic.QBuff
import Tbquic.Crypto
import Tbquic.Protect
import Tbquic.Ping
import Tbquic.Nonce
import Tbquic.PktAgreement
import Tbquic.Lib.Segment
import Tbquic.Stream.State
import Tbquic.Stream.Recv
import Tbquic.Stream.Reassembly
import Tbquic.Stream.Completeness
import Tbquic.Frame.StreamParser
import Tbquic.Frame.Parser
import Tbquic.Frame.Receive
import Tbquic.Frame.Wire
import Tbquic.Frame.StreamBuild
import Tbquic.Stream.Fin
import Tbquic.Frame.Draft
import Tbquic.Frame.Crypto
import Tbquic.Frame.CryptoBuild
import Tbquic.Tls.Delivery
import Tbquic.Tls.Dispatch
import Tbquic.Tls.Frames
import Tbquic.Tls.Provenance
import Tbquic.Tls.Segmentation
import Tbquic.Frame.Ack
import Tbquic.Tls.CryptoBounds
import Tbquic.Tls.Library
import Tbquic.Tls.Psk
import Tbquic.Tls.SigAlg
import Tbquic.Tls.SigScheme
import Tbquic.Tls.Ciphers
import Tbquic.Tls.Alpn
import Tbquic.Tls.Extensions
import Tbquic.Tls.ExtParse
import Tbquic.Frame.AckDelay
import Tbquic.Frame.AckSent
import Tbquic.Lib.Loop
import Tbquic.Lib.Hkdf
import Tbquic.Lib.NumQueue
import Tbquic.Tls.Hkdf
import Tbquic.Tls.ExpandLabel
import Tbquic.Frame.Reserve
import Tbquic.Frame.Buffers
import Tbquic.Frame.Connection
import Tbquic.Frame.Layout
import Tbquic.Frame.Grammar
import Tbquic.Frame.Atomic
import Tbquic.Frame.Limits
import Tbquic.Datagram.Header
import Tbquic.Datagram.Split
import Tbquic.Datagram.Coalesced
import Tbquic.Datagram.Build
import Tbquic.Datagram.Seal
import Tbquic.Datagram.Sender
import Tbquic.Datagram.Length
import Tbquic.Datagram.RoundTrip
import Tbquic.Stream.Open
import Tbquic.Frame.Moves
import Tbquic.Frame.Entries
import Tbquic.Frame.Endpoint
import Tbquic.Frame.StreamStates
import Tbquic.Frame.Credit
import Tbquic.Frame.SendLimits
import Tbquic.Frame.Grants
import Tbquic.Frame.PeerStreams
import Tbquic.Frame.LocalStreams
import Tbquic.Frame.LargestAcked
import Tbquic.Datagram.SentQueue
import Tbquic.Frame.Received
import Tbquic.Frame.RecvLimits
import Tbquic.Conn.CidPool
import Tbquic.Conn.CidRetire
import Tbquic.Tls.TransParams
import Tbquic.Tls.TransRoundTrip
import Tbquic.Conn.StatelessReset
import Tbquic.Stream.InOrder
import Tbquic.Frame.Notices
import Tbquic.Frame.ReadPlan
import Tbquic.Frame.ReadFlags
import Tbquic.Frame.Unallocated
import Tbquic.Frame.Buffered
import Tbquic.Frame.BufferLife
import Tbquic.Lib.RefHeap
import Tbquic.Conn.SessionOwners
import Tbquic.Keys.Prepare
import Tbquic.Keys.Open
import Tbquic.Keys.Install
import Tbquic.Keys.Use
import Tbquic.Keys.Invariant
import Tbquic.Writer.Memory
import Tbquic.Writer.Outline
import Tbquic.Writer.Fields
import Tbquic.Writer.Nested
import Tbquic.Lib.Ring
import Tbquic.Lists.Head
import Tbquic.Lists.Refine
import Tbquic.Lists.Loops
import Tbquic.Lists.Queues
import Tbquic.Datagram.Opening
import Tbquic.Datagram.Inbox
import Tbquic.Datagram.Transfer
import Tbquic.Datagram.Delivery
import Tbquic.Datagram.AckNetwork
import Tbquic.Datagram.AckDelivery
import Tbquic.Tls.ExtBuild
import Tbquic.Tls.KeyShare
import Tbquic.Tls.Ticket
import Tbquic.Tls.Resumption
import Tbquic.Tls.PskOffer
