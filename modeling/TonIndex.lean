import TonIndex.Basic
import TonIndex.Detect.Entities
import TonIndex.Detect.Pipeline
import TonIndex.Detect.Impl
import TonIndex.Detect.Events
import TonIndex.Detect.JettonSystem
import TonIndex.Detect.WalletCheck
import TonIndex.Detect.JettonCache
import TonIndex.Detect.NftSystem
import TonIndex.Detect.NftCheck
import TonIndex.Emulator.Process
import TonIndex.Emulator.BlockParser
import TonIndex.Emulator.McBlock
import TonIndex.Emulator.McRun
import TonIndex.Emulator.TraceTree
import TonIndex.Emulator.TailActor
import TonIndex.Emulator.TailRefine
import TonIndex.Emulator.TailLive
import TonIndex.Redis.Store
import TonIndex.Redis.Inserter
import TonIndex.Redis.Overlap
import TonIndex.Redis.Reader
import TonIndex.Redis.Effect
import TonIndex.Redis.ReaderSpec
