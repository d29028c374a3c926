import AbletonLink.Audio.Audience
import AbletonLink.Audio.AudioBuffer
import AbletonLink.Audio.ByteStream
import AbletonLink.Audio.ByteStreamLaws
import AbletonLink.Audio.Captured
import AbletonLink.Audio.ChannelList
import AbletonLink.Audio.ChannelNotifications
import AbletonLink.Audio.ChannelPublisher
import AbletonLink.Audio.ChannelView
import AbletonLink.Audio.Channels
import AbletonLink.Audio.Codec
import AbletonLink.Audio.Directory
import AbletonLink.Audio.Engine
import AbletonLink.Audio.Entries
import AbletonLink.Audio.GlobalBeats
import AbletonLink.Audio.Lifecycle
import AbletonLink.Audio.MessageSplit
import AbletonLink.Audio.Messages
import AbletonLink.Audio.PacketBudget
import AbletonLink.Audio.Payload
import AbletonLink.Audio.PeerRounds
import AbletonLink.Audio.PeerSync
import AbletonLink.Audio.PeriodBuffer
import AbletonLink.Audio.Resizer
import AbletonLink.Audio.ResizerLaws
import AbletonLink.Audio.Rounds
import AbletonLink.Audio.SinkBounds
import AbletonLink.Audio.SinkBuffers
import AbletonLink.Audio.SlotQueue
import AbletonLink.Audio.SlotQueueLaws
import AbletonLink.Audio.SlotValues
import AbletonLink.Audio.Stream
import AbletonLink.Audio.Teardown
import AbletonLink.Audio.TeardownLaws
import AbletonLink.Audio.Transport
import AbletonLink.Audio.Utf8
import AbletonLink.Discovery.Announcements
import AbletonLink.Discovery.AudioEndpoints
import AbletonLink.Discovery.Gateway
import AbletonLink.Discovery.Interfaces
import AbletonLink.Discovery.InterfacesLaws
import AbletonLink.Discovery.MeasurementRoutes
import AbletonLink.Discovery.Membership
import AbletonLink.Discovery.NewestWins
import AbletonLink.Discovery.NoZombies
import AbletonLink.Discovery.Observations
import AbletonLink.Discovery.Pruning
import AbletonLink.Discovery.Registry
import AbletonLink.Discovery.RouteLaws
import AbletonLink.Library.Binary64
import AbletonLink.Library.Bindings
import AbletonLink.Library.Bytes
import AbletonLink.Library.Dyadic
import AbletonLink.Library.Euclid
import AbletonLink.Library.FirstMatch
import AbletonLink.Library.HalfAway
import AbletonLink.Library.Leases
import AbletonLink.Library.MachineInt
import AbletonLink.Library.Mailbox
import AbletonLink.Library.NextFit
import AbletonLink.Library.Optimistic
import AbletonLink.Library.Ownership
import AbletonLink.Library.PlainOps
import AbletonLink.Library.Register
import AbletonLink.Library.Replica
import AbletonLink.Library.Roster
import AbletonLink.Library.Rounding
import AbletonLink.Library.Run
import AbletonLink.Library.Serialised
import AbletonLink.Library.Turns
import AbletonLink.Link.AcceptedState
import AbletonLink.Link.Api
import AbletonLink.Link.AudioCommits
import AbletonLink.Link.AudioTickets
import AbletonLink.Link.BeatOrigin
import AbletonLink.Link.Candidates
import AbletonLink.Link.ClientComposition
import AbletonLink.Link.ClientTimeline
import AbletonLink.Link.ClockRoundTrip
import AbletonLink.Link.Commit
import AbletonLink.Link.CommitLaws
import AbletonLink.Link.Continuity
import AbletonLink.Link.Convergence
import AbletonLink.Link.Conversions
import AbletonLink.Link.Dispatch
import AbletonLink.Link.DispatchLaws
import AbletonLink.Link.Duration
import AbletonLink.Link.Election
import AbletonLink.Link.FastAnchor
import AbletonLink.Link.ForceBeat
import AbletonLink.Link.GhostChecked
import AbletonLink.Link.GhostForward
import AbletonLink.Link.GhostInverse
import AbletonLink.Link.GhostXForm
import AbletonLink.Link.Measurement
import AbletonLink.Link.MeasurementJob
import AbletonLink.Link.MeasurementRegistrations
import AbletonLink.Link.MeasurementTurns
import AbletonLink.Link.Node
import AbletonLink.Link.NodeLaws
import AbletonLink.Link.Phase
import AbletonLink.Link.PhaseLaws
import AbletonLink.Link.PhaseMatch
import AbletonLink.Link.PingChain
import AbletonLink.Link.PingResponder
import AbletonLink.Link.PlainAgreement
import AbletonLink.Link.PlainLaws
import AbletonLink.Link.PlainTimeline
import AbletonLink.Link.PlaybackNotifications
import AbletonLink.Link.PongReply
import AbletonLink.Link.Publication
import AbletonLink.Link.Queue
import AbletonLink.Link.RequestBeat
import AbletonLink.Link.Revision
import AbletonLink.Link.SampleBounds
import AbletonLink.Link.SessionComposition
import AbletonLink.Link.Sessions
import AbletonLink.Link.SessionsLaws
import AbletonLink.Link.ShiftedOrigin
import AbletonLink.Link.StartStopTrip
import AbletonLink.Link.State
import AbletonLink.Link.Tempo
import AbletonLink.Link.TempoNotifications
import AbletonLink.Link.TempoRange
import AbletonLink.Link.Timeline
import AbletonLink.Link.TimelineLaws
import AbletonLink.Link.WireIds
import AbletonLink.Wire.Encoding
import AbletonLink.Wire.Grammar
import AbletonLink.Wire.Messages
import AbletonLink.Wire.Payload
import AbletonLink.Wire.Period
import AbletonLink.Wire.Ping
import AbletonLink.Wire.RoundTrip
