import Variorum.Runs
import Variorum.Error
import Variorum.Topology
import Variorum.MsrDevice
import Variorum.MsrCore
import Variorum.Batch
import Variorum.BatchCapacity
import Variorum.BatchDirection
import Variorum.BatchCompat
import Variorum.Bits
import Variorum.Counter
import Variorum.Rapl
import Variorum.RaplEnergy
import Variorum.Highlander
import Variorum.Platform
import Variorum.Status
import Variorum.Lifecycle
import Variorum.LifecycleStatus
import Variorum.Api
import Variorum.ApiDispatch
import Variorum.LifecycleBalance
import Variorum.Turbo
import Variorum.PowerCap
import Variorum.GpuCap
import Variorum.CapFailure
import Variorum.PowerCapExact
import Variorum.BatchImage
import Variorum.ReadModifyWrite
import Variorum.GpuBlocks
import Variorum.JsonApi
import Variorum.NodeEnergy
import Variorum.Sampler
import Variorum.CString
import Variorum.Fields
import Variorum.PowerJson
import Variorum.PowerJsonSpec
import Variorum.Monitor
import Variorum.PowerMerge
import Variorum.MonitorShape
import Variorum.MonitorAgree
import Variorum.MonitorCsv
import Variorum.UtilJson
import Variorum.UtilAgree
import Variorum.GpuReport
import Variorum.BatchLoad
import Variorum.TurboSwitch
import Variorum.FlatIndex
import Variorum.DramEnergy
import Variorum.EpycCap
import Variorum.RequestScaling
import Variorum.InitMsr
import Variorum.NodeCap
import Variorum.Binade
import Variorum.RaplWindow
import Variorum.RaplOrder
import Variorum.Masked
import Variorum.FixedCounters
import Variorum.FrequencyCap
import Variorum.PowerWrapper
import Variorum.Timer
import Variorum.Perfmon
import Variorum.Uncore
import Variorum.AllPowerData
import Variorum.FrequencyJson
import Variorum.CScan
import Variorum.CpuUtil
import Variorum.UtilAtomic
import Variorum.AmdEnergy
import Variorum.Bytes
import Variorum.OccSensors
import Variorum.OccBounds
import Variorum.OccPower
import Variorum.OccThermal
import Variorum.OccRead
import Variorum.FreqArray
import Variorum.JunoPower
import Variorum.Components
import Variorum.MonitorBuffers
import Variorum.BatchIndependence
import Variorum.NodeReport
import Variorum.ThermalJson
import Variorum.FrequencyReport
import Variorum.Locked
import Variorum.MonitorThread
import Variorum.AvailableFrequencies
import Variorum.Settings
import Variorum.AmdGpuTables
import Variorum.ArmDescriptors
import Variorum.TopologyLayout
import Variorum.OccMonitor
import Variorum.ArchDetect
import Variorum.NodeSetup
import Variorum.RaplAccount
