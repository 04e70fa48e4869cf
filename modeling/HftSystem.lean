import HftSystem.Lib.Ring
import HftSystem.Lib.Fallible
import HftSystem.Lib.RingLoop
import HftSystem.Lib.PriceTime
import HftSystem.Lib.SortedMap
import HftSystem.Lib.Sessions
import HftSystem.Lib.FixedCodec
import HftSystem.Lib.Framing
import HftSystem.Lib.KeySort
import HftSystem.Lib.Reserve
import HftSystem.Lib.CircularBuffer
import HftSystem.Lib.Routing
import HftSystem.Lib.Tally
import HftSystem.Common.Types
import HftSystem.Common.LFQueue
import HftSystem.Common.EmptinessTests
import HftSystem.Common.QueueAccesses
import HftSystem.Common.MemPool
import HftSystem.Common.PoolRuns
import HftSystem.Common.TCPSocket
import HftSystem.Common.Backpressure
import HftSystem.Common.LimitOrderBook
import HftSystem.Common.BookSpine
import HftSystem.Common.BookRepr
import HftSystem.Common.BookOps
import HftSystem.Common.BookView
import HftSystem.Common.BookBlocks
import HftSystem.Common.BookText
import HftSystem.Common.BookHome
import HftSystem.Common.StaleTable
import HftSystem.Common.BookPointers
import HftSystem.Common.OrderIndex
import HftSystem.Exchange.Messages
import HftSystem.Exchange.MessageLayout
import HftSystem.Exchange.MEOrderBook
import HftSystem.Exchange.Matching
import HftSystem.Exchange.Resting
import HftSystem.Exchange.BookInvariant
import HftSystem.Exchange.PriceTimeMatching
import HftSystem.Exchange.Reporting
import HftSystem.Exchange.OrderFeed
import HftSystem.Exchange.SnapshotSynthesizer
import HftSystem.Exchange.LifeCycle
import HftSystem.Exchange.MarketOrderIds
import HftSystem.Exchange.CancelIndex
import HftSystem.Exchange.CancelFrame
import HftSystem.Exchange.FreshIds
import HftSystem.Exchange.AnyRequest
import HftSystem.Exchange.OrderServer
import HftSystem.Exchange.PollCycle
import HftSystem.Exchange.ClientSequencing
import HftSystem.Exchange.FIFOSequencing
import HftSystem.Exchange.RequestIntake
import HftSystem.Trading.MarketOrderBook
import HftSystem.Trading.BookUpdates
import HftSystem.Trading.BookMirror
import HftSystem.Trading.LevelOwnership
import HftSystem.Trading.BookClear
import HftSystem.Trading.BookReading
import HftSystem.Trading.BestBidOffer
import HftSystem.Trading.ClearReset
import HftSystem.Trading.BookFeed
import HftSystem.Trading.FeedReplay
import HftSystem.Trading.MarketDataConsumer
import HftSystem.Trading.SnapshotSync
import HftSystem.Trading.SnapshotRecovery
import HftSystem.Trading.RecoveryCompletion
import HftSystem.Trading.SnapshotMix
import HftSystem.Trading.ReadBatching
import HftSystem.Trading.OrderManager
import HftSystem.Trading.OrderExchange
import HftSystem.Trading.OpenOrders
import HftSystem.Trading.JustifiedRequests
import HftSystem.Trading.PositionKeeper
import HftSystem.Trading.PositionLimit
import HftSystem.Trading.OrderIdentity
import HftSystem.Trading.OrderGateway
import HftSystem.Trading.RequestPath
import HftSystem.Trading.ResponsePath
import HftSystem.Trading.ProfitAndLoss
import HftSystem.Exchange.MarketDataPublisher
import HftSystem.Trading.FeatureEngine
import HftSystem.Trading.TradeEngine
import HftSystem.Trading.TickerIsolation
import HftSystem.Trading.ClientOrders
import HftSystem.Trading.Market
import HftSystem.Exchange.EngineRuns
import HftSystem.Exchange.BookLifetime
import HftSystem.Exchange.BookRule
import HftSystem.Exchange.Conservation
import HftSystem.Exchange.CancelAnswers
import HftSystem.Trading.MarketPositions
import HftSystem.Trading.PublishedStream
import HftSystem.Trading.LateJoiner
import HftSystem.Trading.FeedBlocks
import HftSystem.Trading.Printouts
import HftSystem.Trading.RandomOrders
import HftSystem.Trading.MarketIds
import HftSystem.Trading.OrderTable
