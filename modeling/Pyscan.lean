import Pyscan.Application.MonitorService
import Pyscan.Application.ScanSpacing
import Pyscan.Application.SweepRate
import Pyscan.Domain.Coverage
import Pyscan.Domain.DetectorOrder
import Pyscan.Domain.Framing
import Pyscan.Lib.Framed
import Pyscan.Py.Struct
import Pyscan.Adapters.PcapReader
import Pyscan.Adapters.PcapFile
import Pyscan.Adapters.PcapWriter
import Pyscan.Adapters.PcapngBlocks
import Pyscan.Adapters.PcapRefusal
import Pyscan.Adapters.PcapngFile
import Pyscan.Adapters.PcapngSimple
import Pyscan.Application.Retries
import Pyscan.Application.ScanOutcome
import Pyscan.Py.Inet
import Pyscan.Domain.Spelling
import Pyscan.Domain.ApduStream
import Pyscan.Domain.DeviceIdentity
import Pyscan.Domain.Szl
import Pyscan.Domain.Checksums
import Pyscan.Wire.Authentication
import Pyscan.Adapters.CaptureClock
import Pyscan.Adapters.S7commScan
import Pyscan.Domain.Fingerprint
import Pyscan.Domain.PortSpec
import Pyscan.Adapters.Strategies
import Pyscan.Application.PeerScan
import Pyscan.Application.WatchedScan
import Pyscan.Application.SweepOutcome
import Pyscan.Domain.Targets
import Pyscan.Cli.Lab
import Pyscan.Cli.Sniff
import Pyscan.Domain.UdpProbes
import Pyscan.Application.UdpReport
import Pyscan.Cli.MonitorTui
import Pyscan.Adapters.ScanJson
import Pyscan.Adapters.SynScan
import Pyscan.Cli.Sweep
