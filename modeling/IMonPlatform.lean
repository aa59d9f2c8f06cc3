import IMonPlatform.Lib.Transition
import IMonPlatform.Lib.Buffer
import IMonPlatform.Lib.LockOrder
import IMonPlatform.Lib.CString
import IMonPlatform.Net.ReaderBounds
import IMonPlatform.Net.NetworkLocks
import IMonPlatform.Net.Connections
import IMonPlatform.Net.QueuePacket
import IMonPlatform.Net.BusySender
import IMonPlatform.Net.ServerBusy
import IMonPlatform.Net.WireOrder
import IMonPlatform.Net.DuplexProgress
import IMonPlatform.Net.RemoteCall
import IMonPlatform.Net.RequestIds
import IMonPlatform.Net.ReceiveWait
import IMonPlatform.Net.Responses
import IMonPlatform.Net.Registry
import IMonPlatform.Net.Registration
import IMonPlatform.Net.Handles
import IMonPlatform.Net.AcceptRead
import IMonPlatform.Net.PairedNotifications
import IMonPlatform.Net.Lifecycle
import IMonPlatform.Net.EndedConnections
import IMonPlatform.Net.Instances
import IMonPlatform.Util.ConcurrentQueue
import IMonPlatform.Net.Shutdown
import IMonPlatform.Net.BindAndAccept
import IMonPlatform.Net.SendPacket
import IMonPlatform.Net.IoServicePool
import IMonPlatform.Format.Parse
import IMonPlatform.Format.DoFormat
import IMonPlatform.Format.Language
import IMonPlatform.Format.Escape
import IMonPlatform.Format.BufferRenderer
import IMonPlatform.Format.Integer
import IMonPlatform.Format.Pointer
import IMonPlatform.Format.FormatReads
import IMonPlatform.Format.Reading
import IMonPlatform.Format.StrayPercent
import IMonPlatform.Format.LoggerArgument
import IMonPlatform.Format.ScratchBuffer
import IMonPlatform.Format.Agreement
import IMonPlatform.Convert.Utf8
import IMonPlatform.Convert.Decode
import IMonPlatform.Convert.Encode
import IMonPlatform.Convert.Converters
import IMonPlatform.Util.RoundRobinAllocator
import IMonPlatform.Util.XMLMapper
import IMonPlatform.Lib.Replace
import IMonPlatform.Util.StringReplace
import IMonPlatform.Util.VolumePath
import IMonPlatform.Logger.AsyncLog
import IMonPlatform.Logger.StopLogger
import IMonPlatform.Logger.RecordFlow
import IMonPlatform.Lib.DepthFirst
import IMonPlatform.Lib.MarkedSearch
import IMonPlatform.Logger.SplitLog
import IMonPlatform.Logger.Configuration
import IMonPlatform.Logger.Hierarchy
import IMonPlatform.Logger.SetConfiguration
import IMonPlatform.Logger.Callbacks
import IMonPlatform.Logger.LogRecord
import IMonPlatform.Logger.Rotation
import IMonPlatform.Logger.LogFiles
import IMonPlatform.Logger.LogPipeline
import IMonPlatform.Logger.LogToFile
import IMonPlatform.Util.ElapsedTime
import IMonPlatform.Lib.CivilDate
import IMonPlatform.Logger.FileLifetime
import IMonPlatform.Util.DateTime
import IMonPlatform.Util.DateRoundTrip
import IMonPlatform.Util.DateSafety
import IMonPlatform.Util.TwelveHour
import IMonPlatform.Util.IsDate
import IMonPlatform.Util.CommandLine
import IMonPlatform.Util.CreateDirectory
import IMonPlatform.Util.XMLMapperLock
import IMonPlatform.Util.AdapterAddress
import IMonPlatform.Util.MultiString
import IMonPlatform.Util.SharedQueue
import IMonPlatform.Util.Downloader
import IMonPlatform.Lib.Doubling
import IMonPlatform.Lib.Relational
import IMonPlatform.Util.FormatArgList
import IMonPlatform.Util.NetworkInfos
import IMonPlatform.Util.XMLMapperCache
