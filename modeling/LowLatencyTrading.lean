import LowLatencyTrading.Basic
import LowLatencyTrading.LFQueue
import LowLatencyTrading.MemPool
import LowLatencyTrading.OrderBook
import LowLatencyTrading.OrderBookInvariant
import LowLatencyTrading.Protocol
import LowLatencyTrading.Codec
import LowLatencyTrading.MatchingEngine
import LowLatencyTrading.RequestEffects
import LowLatencyTrading.OrderServer
import LowLatencyTrading.OrderGateway
import LowLatencyTrading.GatewayPoll
import LowLatencyTrading.MarketData
import LowLatencyTrading.Exchange
import LowLatencyTrading.Position
import LowLatencyTrading.PositionPnl
import LowLatencyTrading.Risk
import LowLatencyTrading.TradeEngine
import LowLatencyTrading.BboTracking
import LowLatencyTrading.MarketDataReceiver
import LowLatencyTrading.F64
import LowLatencyTrading.Logging
import LowLatencyTrading.LiquidityTaker
import LowLatencyTrading.MarketMaker
import LowLatencyTrading.FeatureEngine
import LowLatencyTrading.TradeEngineInvariant
import LowLatencyTrading.PnlCache
import LowLatencyTrading.TradingClient
