import SonicBuildimage.Lib.PyStr
import SonicBuildimage.Lib.PyInt
import SonicBuildimage.Lib.PyDict
import SonicBuildimage.Lib.Run
import SonicBuildimage.StaticRouteBfd.Model
import SonicBuildimage.StaticRouteBfd.Steps
import SonicBuildimage.StaticRouteBfd.Publish
import SonicBuildimage.StaticRouteBfd.Index
import SonicBuildimage.StaticRouteBfd.Sessions
import SonicBuildimage.StaticRouteBfd.Hold
import SonicBuildimage.StaticRouteBfd.Interfaces
import SonicBuildimage.StaticRouteBfd.Rebuild
import SonicBuildimage.Bgpcfgd.Manager
import SonicBuildimage.Bgpcfgd.Intf
import SonicBuildimage.Bgpcfgd.DeviceGlobal
import SonicBuildimage.Bgpcfgd.StaticRt
import SonicBuildimage.Bgpcfgd.StaticRtFrr
import SonicBuildimage.Lib.ImageDiff
import SonicBuildimage.Bgpcfgd.Canonical
import SonicBuildimage.YangMgmt.Schema
import SonicBuildimage.YangMgmt.Xlate
import SonicBuildimage.YangMgmt.XlateSpec
import SonicBuildimage.YangMgmt.History
import SonicBuildimage.Lib.Memory
import SonicBuildimage.Iccpd.Framing
import SonicBuildimage.Lib.Overlay
import SonicBuildimage.Versions.Model
import SonicBuildimage.Versions.Levels
import SonicBuildimage.Versions.Freeze
import SonicBuildimage.Versions.Adjust
import SonicBuildimage.Frrcfgd.KeyMap
import SonicBuildimage.Frrcfgd.Tables
import SonicBuildimage.Lib.Utf8
import SonicBuildimage.Frrcfgd.Reply
import SonicBuildimage.Eventd.Capture
import SonicBuildimage.Eventd.Startup
import SonicBuildimage.Eventd.Service
import SonicBuildimage.Eventd.Timestamp
import SonicBuildimage.Lib.RingBuffer
import SonicBuildimage.Lib.Traced
import SonicBuildimage.Iccpd.Routing
import SonicBuildimage.Iccpd.Decode
import SonicBuildimage.Iccpd.Batch
import SonicBuildimage.Iccpd.MlacpFsm
import SonicBuildimage.Iccpd.ExchangeEntry
import SonicBuildimage.Iccpd.Syncd
import SonicBuildimage.Lib.Feed
import SonicBuildimage.DhcpUtilities.Monitor
import SonicBuildimage.DhcpUtilities.Relayd
import SonicBuildimage.DhcpUtilities.Merge
import SonicBuildimage.Lib.WriteBuffer
import SonicBuildimage.Bgpmon.BgpMon
import SonicBuildimage.Tacacs.BashPlugin
import SonicBuildimage.SystemHealth.Sysmonitor
import SonicBuildimage.Iccpd.Stream
import SonicBuildimage.Iccpd.Csm
import SonicBuildimage.Iccpd.Handshake
import SonicBuildimage.Lib.NestedDict
import SonicBuildimage.DhcpUtilities.Lease
import SonicBuildimage.Radius.CacheRadius
import SonicBuildimage.Ctrmgrd.Container
import SonicBuildimage.Lib.Timers
import SonicBuildimage.Lib.IpAddress
import SonicBuildimage.Lib.Outline
import SonicBuildimage.Ctrmgrd.ServerJoin
import SonicBuildimage.Ctrmgrd.TagLatest
import SonicBuildimage.Ctrmgrd.Iptables
import SonicBuildimage.Ctrmgrd.CleanImage
import SonicBuildimage.Bgpcfgd.AdvertiseRt
import SonicBuildimage.Frrcfgd.PrefixLists
import SonicBuildimage.Lib.Subnet
import SonicBuildimage.Frrcfgd.PrefixMatch
import SonicBuildimage.Frrcfgd.PrefixRetry
import SonicBuildimage.Frrcfgd.StaticRoute
import SonicBuildimage.Frrcfgd.ConfedPeers
import SonicBuildimage.DhcpServer.Integrity
import SonicBuildimage.DhcpServer.Update
import SonicBuildimage.Versions.Files
import SonicBuildimage.Iccpd.LocalIf
import SonicBuildimage.Lib.Binary64
import SonicBuildimage.ConfigEngine.Ecmp
import SonicBuildimage.Sflow.PortIndexMapper
import SonicBuildimage.Supervisor.ExitListener
import SonicBuildimage.Bgpcfgd.StaticRtTimer
import SonicBuildimage.Lib.KeyTree
import SonicBuildimage.ConfigEngine.DeepUpdate
import SonicBuildimage.ConfigEngine.Breakout
import SonicBuildimage.Bgpcfgd.Bbr
import SonicBuildimage.Lib.MostRecent
import SonicBuildimage.Scripts.CoreCleanup
