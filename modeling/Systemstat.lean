import Systemstat.Linux.CpuLoad
import Systemstat.Linux.ProcDiskstats
import Systemstat.Linux.ProcMeminfo
import Systemstat.Linux.MountNames
import Systemstat.Linux.MountWords
import Systemstat.Platform.Battery
import Systemstat.Platform.CpuLoadAggregate
import Systemstat.Linux.CpuSection
import Systemstat.Linux.Truncation
import Systemstat.Linux.BlankLines
import Systemstat.Linux.OverMount
import Systemstat.Collections.GroupFold
import Systemstat.Text.Lossy
import Systemstat.Unix.Addr
import Systemstat.Unix.Networks
import Systemstat.Arith.Accumulate
import Systemstat.Platform.LoadFractions
import Systemstat.Linux.FileValues
import Systemstat.Linux.BatteryLife
import Systemstat.Linux.BatteryUnits
import Systemstat.Linux.DirectoryOrder
import Systemstat.Bsd.Statfs
import Systemstat.Linux.BlockUnits
import Systemstat.Bsd.PageShift
import Systemstat.Bsd.Memory
import Systemstat.Collections.IndexedWrites
import Systemstat.Linux.Memory
import Systemstat.Windows.CpuLoad
import Systemstat.Linux.CpuAggregate
import Systemstat.Unix.NetworkStats
import Systemstat.Linux.SockStat
import Systemstat.Text.Runs
import Systemstat.Linux.UsizeToken
import Systemstat.Linux.MeminfoLines
import Systemstat.Linux.MeminfoOverflow
import Systemstat.Platform.Swap
import Systemstat.Time.Instant
import Systemstat.Platform.Uptime
import Systemstat.Bytes.PrefixMask
import Systemstat.Windows.Netmask
import Systemstat.Text.Utf16
import Systemstat.Trace.Resources
import Systemstat.Windows.Strings
import Systemstat.Windows.NetworkInterfaces
import Systemstat.Platform.InterfaceTable
import Systemstat.Collections.FirstError
import Systemstat.Windows.Drives
import Systemstat.Text.Integers
import Systemstat.Linux.BootTime
import Systemstat.Platform.Clock
import Systemstat.Trace.Sampling
import Systemstat.Bsd.CpuLoad
import Systemstat.Platform.CpuLoadRuns
import Systemstat.Arith.Averages
import Systemstat.Platform.AggregateRuns
import Systemstat.Windows.QueryHandles
import Systemstat.Collections.PointerChain
import Systemstat.Unix.AddressLists
import Systemstat.Windows.LoadInstances
import Systemstat.Unix.InterfaceCounters
import Systemstat.Bsd.MemoryReport
import Systemstat.Trace.Readings
import Systemstat.Platform.MovingKernel
import Systemstat.Collections.Covering
import Systemstat.Bsd.Mounts
import Systemstat.Bsd.MovingMemory
import Systemstat.Linux.MovingMounts
