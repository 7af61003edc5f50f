import BlockFeed.Codec.Envelope
import BlockFeed.Signal
import BlockFeed.Text.Blank
import BlockFeed.Text.Lowercase
import BlockFeed.Text.Quoted
import BlockFeed.Text.Digits
import BlockFeed.Binary.Decimal
import BlockFeed.Binary.Shortest
import BlockFeed.Json.Value
import BlockFeed.Record.Marshal
import BlockFeed.FeedError
import BlockFeed.Config.Load
import BlockFeed.Link.Address
import BlockFeed.Pipeline
import BlockFeed.Main
import BlockFeed.Proofs.Codec.Messages
import BlockFeed.Proofs.Codec.Exact
import BlockFeed.Proofs.Run
import BlockFeed.Proofs.Text.Decimal
import BlockFeed.Proofs.Signal
import BlockFeed.Proofs.Link.Classification
import BlockFeed.Proofs.Link.Traffic
import BlockFeed.Proofs.Link.Histories
import BlockFeed.Proofs.Link.Load
import BlockFeed.Proofs.Link.Sturdy
import BlockFeed.Proofs.Sender.Moves
import BlockFeed.Proofs.Sender.Writes
import BlockFeed.Proofs.Sender.Ledger
import BlockFeed.Proofs.Sender.Attested
import BlockFeed.Proofs.Sender.Steady
import BlockFeed.Proofs.Sender.Closing
import BlockFeed.Proofs.Receiver.Moves
import BlockFeed.Proofs.Receiver.Steady
import BlockFeed.Proofs.Receiver.Closing
import BlockFeed.Proofs.Receiver.Deeds
import BlockFeed.Proofs.Receiver.Transcript
import BlockFeed.Proofs.Link.Channel
import BlockFeed.Proofs.Delivery.Audit
import BlockFeed.Proofs.Delivery.Routing
import BlockFeed.Proofs.Pipeline.Course
import BlockFeed.Proofs.Pipeline.Work
import BlockFeed.Proofs.Pipeline.Delivery
import BlockFeed.Proofs.Pipeline.Wiring
import BlockFeed.Proofs.Pipeline.Blocked
import BlockFeed.Proofs.Pipeline.Order
import BlockFeed.Proofs.Pipeline.Steady
import BlockFeed.Proofs.Pipeline.Turns
import BlockFeed.Proofs.Pipeline.Acknowledged
import BlockFeed.Proofs.Pipeline.Spread
import BlockFeed.Proofs.Pipeline.Flawless
import BlockFeed.Proofs.Pipeline.Completion
import BlockFeed.Proofs.Pipeline.Counters
import BlockFeed.Proofs.Pipeline.Footprint
import BlockFeed.Proofs.Pipeline.Lifecycle
import BlockFeed.Proofs.Pipeline.Transcript
import BlockFeed.Proofs.Pipeline.Listening
import BlockFeed.Proofs.Pipeline.Release
import BlockFeed.Proofs.Client.Moves
import BlockFeed.Proofs.Client.Exchange
import BlockFeed.Proofs.Client.Regular
import BlockFeed.Proofs.Client.Closing
import BlockFeed.Proofs.Client.Delivery
import BlockFeed.Proofs.Client.Progress
import BlockFeed.Proofs.Client.Pace
import BlockFeed.Proofs.Client.Outcome
import BlockFeed.Proofs.Json.Tokens
import BlockFeed.Proofs.Json.Trees
import BlockFeed.Proofs.Record.Faithful
import BlockFeed.Proofs.Binary.Quotients
import BlockFeed.Proofs.Binary.Nearest
import BlockFeed.Proofs.Binary.Shortest
import BlockFeed.Proofs.Binary.Gaps
import BlockFeed.Proofs.Binary.Readback
import BlockFeed.Proofs.Json.Reals
import BlockFeed.Proofs.Record.Ratings
import BlockFeed.Proofs.Link.Registrations
import BlockFeed.Proofs.Pipeline.Registrations
import BlockFeed.Proofs.Socket.Moves
import BlockFeed.Proofs.Socket.Session
import BlockFeed.Proofs.Socket.Generations
import BlockFeed.Proofs.Socket.Guards
import BlockFeed.Proofs.Sender.Fanout
import BlockFeed.Proofs.Sender.Tally
import BlockFeed.Proofs.Pipeline.Fanout
import BlockFeed.Proofs.Json.Members
import BlockFeed.Proofs.Text.Spelling
import BlockFeed.Proofs.Config.Layers
import BlockFeed.Proofs.Server.Moves
import BlockFeed.Proofs.Server.Service
import BlockFeed.Proofs.Server.Sound
import BlockFeed.Proofs.Server.Work
import BlockFeed.Proofs.Server.Bookkeeping
import BlockFeed.Proofs.Client.Slot
import BlockFeed.Proofs.Client.Kept
import BlockFeed.Proofs.Client.Effects
import BlockFeed.Proofs.Client.Rest
import BlockFeed.Proofs.Line
import BlockFeed.Proofs.Client.Standing
import BlockFeed.Proofs.Client.Winding
import BlockFeed.Proofs.Client.Results
import BlockFeed.Proofs.Client.Shutdown
import BlockFeed.Proofs.Config.Validity
import BlockFeed.Proofs.Pipeline.Losses
import BlockFeed.Proofs.Link.Places
import BlockFeed.Proofs.Broadcast.Await
import BlockFeed.Proofs.Broadcast.Fates
import BlockFeed.Proofs.Broadcast.Undisturbed
import BlockFeed.Proofs.Broadcast.Orders
import BlockFeed.Proofs.Sender.Solo
import BlockFeed.Proofs.Server.Audience
import BlockFeed.Proofs.Text.Trimming
import BlockFeed.Proofs.Operation
import BlockFeed.Proofs.Json.Layers
import BlockFeed.Proofs.Sender.Hearing
import BlockFeed.Proofs.Network.Moves
import BlockFeed.Proofs.Network.Work
import BlockFeed.Proofs.Network.Rounds
