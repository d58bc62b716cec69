import Chiaki.Lib.Serial
import Chiaki.Lib.Machine
import Chiaki.Lib.SlotWindow
import Chiaki.Lib.Memory
import Chiaki.Lib.Sieve
import Chiaki.Lib.LittleEndian
import Chiaki.Lib.Ring
import Chiaki.Lib.Bump
import Chiaki.Common
import Chiaki.NetworkOrder
import Chiaki.SeqNum
import Chiaki.ReorderQueue.Model
import Chiaki.ReorderQueue.Conservation
import Chiaki.ReorderQueue.Assertions
import Chiaki.ReorderQueue.WindowMap
import Chiaki.ReorderQueue.SixteenBit
import Chiaki.Takion.AVPacket
import Chiaki.Frame.Processor
import Chiaki.Frame.Allocation
import Chiaki.Frame.Flush
import Chiaki.Frame.Bounds
import Chiaki.Frame.Reachable
import Chiaki.Frame.Reception
import Chiaki.Frame.Assembly
import Chiaki.Frame.Fec
import Chiaki.Frame.Encode
import Chiaki.Frame.Final
import Chiaki.Takion.Packet
import Chiaki.GKCrypt.KeyState
import Chiaki.GKCrypt.Gmac
import Chiaki.GKCrypt.KeyStream
import Chiaki.GKCrypt.KeyBuf
import Chiaki.Takion.Mac
import Chiaki.Takion.SendBuffer
import Chiaki.Takion.Send
import Chiaki.Takion.SendSystem
import Chiaki.Takion.CryptSend
import Chiaki.Takion.Reservation
import Chiaki.Takion.SendStep
import Chiaki.Takion.SendInvariant
import Chiaki.Takion.Acknowledgement
import Chiaki.Takion.Reliability
import Chiaki.Takion.Receive
import Chiaki.Takion.MacAgreement
import Chiaki.Takion.Verification
import Chiaki.Takion.DataDelivery
import Chiaki.Takion.CryptActivation
import Chiaki.Bitstream.Reader
import Chiaki.Bitstream.Slice
import Chiaki.Video.Receiver
import Chiaki.Video.Delivery
import Chiaki.Video.Steps
import Chiaki.Bitstream.Cursor
import Chiaki.Bitstream.Unit
import Chiaki.Bitstream.Rewrite
import Chiaki.Bitstream.RoundTrip
import Chiaki.Video.References
import Chiaki.Video.Reordering
import Chiaki.Video.FramesLost
import Chiaki.Controller.State
import Chiaki.Controller.Touches
import Chiaki.Lib.SlotDiff
import Chiaki.Feedback.History
import Chiaki.Feedback.Replay
import Chiaki.Ctrl.Framing
import Chiaki.Takion.AVParse
import Chiaki.Ctrl.FramingSafety
import Chiaki.Rudp.Codec
import Chiaki.Audio.Receiver
import Chiaki.Lib.Newest
import Chiaki.Audio.Delivery
import Chiaki.Lib.Account
import Chiaki.Takion.Thread
import Chiaki.Takion.Ownership
import Chiaki.Ctrl.Notification
import Chiaki.Ctrl.Wakeup
import Chiaki.Rudp.SendBuffer
import Chiaki.Rudp.Reliability
import Chiaki.Rudp.GivingUp
import Chiaki.Takion.AVFormat
import Chiaki.PacketStats
import Chiaki.Frame.Accounting
import Chiaki.Takion.Reacknowledgement
import Chiaki.Audio.Sender
import Chiaki.Audio.SenderLayout
import Chiaki.Audio.CircularBuffer
import Chiaki.Audio.CircularBufferRuns
import Chiaki.Holepunch.Acknowledgement
import Chiaki.Discovery.Refinement
import Chiaki.Lib.EmulationPrevention
import Chiaki.Bitstream.Escaped
import Chiaki.Bitstream.SliceHeader
import Chiaki.Lib.Masking
import Chiaki.GKCrypt.Decrypt
import Chiaki.Takion.Handshake
import Chiaki.Feedback.HistoryBuffer
import Chiaki.StreamConnection.BigMessage
import Chiaki.Lib.Bisection
import Chiaki.Senkusha.State
import Chiaki.Senkusha.Mtu
import Chiaki.Ctrl.Sending
import Chiaki.Lib.FirstMatch
import Chiaki.Http.Receive
import Chiaki.Http.HeaderParse
import Chiaki.Http.HeaderLines
import Chiaki.Http.HeaderBlock
import Chiaki.Holepunch.Stun
import Chiaki.Regist.Hex
import Chiaki.Regist.Response
import Chiaki.Ctrl.RudpReceive
import Chiaki.Ctrl.Handlers
import Chiaki.Ctrl.HandlerSafety
import Chiaki.Holepunch.ConnectionRequest
import Chiaki.Holepunch.PortPrediction
import Chiaki.Controller.Merge
import Chiaki.Regist.FormatHex
import Chiaki.Holepunch.StunServers
import Chiaki.Holepunch.PortAllocation
import Chiaki.Lib.Orbit
import Chiaki.Holepunch.StunConforming
import Chiaki.Base64.Encode
import Chiaki.Base64.Decode
import Chiaki.Base64.DecodeSafety
import Chiaki.Base64.Outcome
import Chiaki.Lib.Json
import Chiaki.Holepunch.SessionMessageParse
import Chiaki.Holepunch.OfferSafety
import Chiaki.Printf
import Chiaki.Lib.JsonText
import Chiaki.Lib.JsonWritten
import Chiaki.Holepunch.SessionMessageSerialize
import Chiaki.Holepunch.SerializedText
import Chiaki.Lib.JsonRefused
import Chiaki.Holepunch.SerializedJson
import Chiaki.Holepunch.SerializedValue
import Chiaki.Holepunch.SerializedCut
import Chiaki.Holepunch.SerializeRoundTrip
import Chiaki.Lib.Mutex
import Chiaki.Holepunch.StateMutex
import Chiaki.TextScan
import Chiaki.Holepunch.StunDownload
import Chiaki.Holepunch.CandidateSelection
import Chiaki.Holepunch.CandidateSockets
import Chiaki.Lib.Runs
import Chiaki.StreamConnection.Callbacks
import Chiaki.StreamConnection.Outcome
import Chiaki.StreamConnection.Safety
import Chiaki.StreamConnection.Stopping
import Chiaki.Session.LoginPin
import Chiaki.Session.QuitReasons
import Chiaki.Session.Stopping
import Chiaki.Lib.CipherFeedback
