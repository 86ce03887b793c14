import RiscvMonitor.MonitorMemory
import RiscvMonitor.FastChannels
import RiscvMonitor.SuspendedHarts
import RiscvMonitor.FencePending
import RiscvMonitor.StartAtomic
import RiscvMonitor.StopDrains
import RiscvMonitor.HsmTruth
import RiscvMonitor.EntryPolicy
import RiscvMonitor.EventStack
import RiscvMonitor.MonitorExit
import RiscvMonitor.BridgeSlots
import RiscvMonitor.ServiceReset
import RiscvMonitor.FreshContext
import RiscvMonitor.Timer
import RiscvMonitor.FwftLocks
import RiscvMonitor.PmuAlloc
import RiscvMonitor.DbtrModes
import RiscvMonitor.RpmiAnswers
import RiscvMonitor.RpmiFiltered
import RiscvMonitor.SuspendTypes
import RiscvMonitor.ReqfwdPieces
import RiscvMonitor.Carriers
import RiscvMonitor.RangeFence
import RiscvMonitor.ShmemBounds
import RiscvMonitor.ChannelPaging
import RiscvMonitor.AmoEmulation
import RiscvMonitor.Division
import RiscvMonitor.BootHeap
import RiscvMonitor.IsaList
