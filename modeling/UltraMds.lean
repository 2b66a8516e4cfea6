import UltraMds.Configrelated.ConfigRead
import UltraMds.CtpRelated.Dispatcher
import UltraMds.DataHandler.Checks
import UltraMds.DataHandler.ConfigLayers
import UltraMds.DataHandler.Disorder
import UltraMds.DataHandler.Endpoint
import UltraMds.DataHandler.Ladder
import UltraMds.DataHandler.Relax
import UltraMds.DataHandler.TickHandler
import UltraMds.DataHandler.TimestampOrder
import UltraMds.DataHandler.UnitProcessor
import UltraMds.Library.Adjacent
import UltraMds.Library.Checked
import UltraMds.Library.Fallible
import UltraMds.Library.FilterLine
import UltraMds.Library.MixedRadix
import UltraMds.Library.StreamFilter
import UltraMds.Library.Tally
import UltraMds.Library.Watermark
import UltraMds.Lifecycle
import UltraMds.Pipeline.Burst
import UltraMds.Pipeline.Invariant
import UltraMds.Pipeline.Refinement
import UltraMds.Pipeline.System
import UltraMds.SharedDefine.TickData
import UltraMds.SystemStart
import UltraMds.Teardown
import UltraMds.Library.ReleaseAcquire
import UltraMds.Library.RingIndex
import UltraMds.Pipeline.RingRefinement
import UltraMds.CtpRelated.MarketSPI
import UltraMds.Library.OrderedFilter
import UltraMds.Pipeline.Loss
import UltraMds.Pipeline.Progress
import UltraMds.Program
import UltraMds.Tool.JsonLocality
