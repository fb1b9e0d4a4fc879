import TradingFeed.Library.Runs
import TradingFeed.Library.Interference
import TradingFeed.Library.JsonGrammar
import TradingFeed.Library.JsonMembers
import TradingFeed.Library.Lines
import TradingFeed.Library.Paths
import TradingFeed.Library.Tagged
import TradingFeed.Library.Walks
import TradingFeed.Library.Network
import TradingFeed.Json.Numbers
import TradingFeed.Json.RoundTrip
import TradingFeed.Json.NonFinite
import TradingFeed.Json.Reload
import TradingFeed.Json.WellFormed
import TradingFeed.Json.Members
import TradingFeed.Json.NormalForm
import TradingFeed.Json.Printed
import TradingFeed.Sockets.EndPoint
import TradingFeed.Sockets.Uri
import TradingFeed.Broadcaster.State
import TradingFeed.Broadcaster.Callback
import TradingFeed.Broadcaster.Step
import TradingFeed.Broadcaster.Frames
import TradingFeed.Broadcaster.Registry
import TradingFeed.Broadcaster.Transitions
import TradingFeed.Broadcaster.Requests
import TradingFeed.Broadcaster.Delivery
import TradingFeed.Broadcaster.Vanished
import TradingFeed.Broadcaster.Batching
import TradingFeed.Broadcaster.Replies
import TradingFeed.Broadcaster.Repost
import TradingFeed.Broadcaster.Interleaved
import TradingFeed.Broadcaster.Freshness
import TradingFeed.Broadcaster.LatestPrice
import TradingFeed.Broadcaster.Visits
import TradingFeed.Broadcaster.FanOut
import TradingFeed.Broadcaster.ArrivalOrder
import TradingFeed.Broadcaster.LastSubscribe
import TradingFeed.Broadcaster.Registered
import TradingFeed.Broadcaster.TrackedIds
import TradingFeed.Broadcaster.Progress
import TradingFeed.Broadcaster.Clearing
import TradingFeed.Broadcaster.Unsubscribe
import TradingFeed.Broadcaster.Providers
import TradingFeed.Broadcaster.Adding
import TradingFeed.Broadcaster.Untracked
import TradingFeed.Broadcaster.Waiting
import TradingFeed.Broadcaster.Accounting
import TradingFeed.Broadcaster.Forwarded
import TradingFeed.Aggregator.Transitions
import TradingFeed.Aggregator.Ownership
import TradingFeed.Aggregator.Connections
import TradingFeed.Aggregator.Teardown
import TradingFeed.Aggregator.Routing
import TradingFeed.Aggregator.Acknowledged
import TradingFeed.Aggregator.Completion
import TradingFeed.Aggregator.Forgotten
import TradingFeed.Aggregator.ValidIds
import TradingFeed.Aggregator.Sources
import TradingFeed.Aggregator.Settled
import TradingFeed.Aggregator.Addresses
import TradingFeed.Storage.Store
import TradingFeed.Storage.Protocol
import TradingFeed.Storage.Posting
import TradingFeed.Storage.Answers
import TradingFeed.Storage.Lookup
import TradingFeed.Escapes
import TradingFeed.SymbolRequests
import TradingFeed.Common.DataProviderMessage
import TradingFeed.Common.Decoding
import TradingFeed.Common.WholeReads
import TradingFeed.Common.Utils
import TradingFeed.DataProvider.Server
import TradingFeed.DataProvider.Rounds
import TradingFeed.DataProvider.Completion
import TradingFeed.Relay
import TradingFeed.Startup
import TradingFeed.Feed.Network
import TradingFeed.Feed.Transport
import TradingFeed.Feed.Origins
import TradingFeed.Feed.Prices
import TradingFeed.Feed.Requests
import TradingFeed.Feed.Delivery
import TradingFeed.Feed.Storing
