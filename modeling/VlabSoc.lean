import VlabSoc.Buffer
import VlabSoc.Runs
import VlabSoc.Unwinding
import VlabSoc.Queues
import VlabSoc.Doorbells
import VlabSoc.MemRegions
import VlabSoc.PlatformVlab
import VlabSoc.SocBus
import VlabSoc.RegionTables
import VlabSoc.SocPerf
import VlabSoc.SocIntc
import VlabSoc.SocTimer
import VlabSoc.SocUart
import VlabSoc.SocMemory
import VlabSoc.SocDma
import VlabSoc.DmaEngine
import VlabSoc.Soc
import VlabSoc.SocFrames
import VlabSoc.SocRuns
import VlabSoc.BusContract
import VlabSoc.SocRegs
import VlabSoc.DmaTransfer
import VlabSoc.DmaCompletion
import VlabSoc.DmaFaults
import VlabSoc.FlatMemory
import VlabSoc.Firmware
import VlabSoc.DmaDriver
import VlabSoc.DmaValidate
import VlabSoc.DmaCapability
import VlabSoc.DriverCalls
import VlabSoc.Isr
import VlabSoc.FirmwareRuns
import VlabSoc.DmaPhase
import VlabSoc.DmaLifecycle
import VlabSoc.DmaRecovery
import VlabSoc.DmaFinish
import VlabSoc.Polling
import VlabSoc.Isolation
import VlabSoc.SocRaises
import VlabSoc.IntcTrace
import VlabSoc.DmaFlight
import VlabSoc.DmaInterrupts
import VlabSoc.DmaDuration
import VlabSoc.PerfCounts
import VlabSoc.Reboot
import VlabSoc.TwoStepClear
import VlabSoc.DmaLatches
import VlabSoc.StreamRoundTrip
import VlabSoc.Countdown
import VlabSoc.TimerRuns
import VlabSoc.TimerPeriod
import VlabSoc.TimerDriver
import VlabSoc.UartStreams
import VlabSoc.UartDriver
import VlabSoc.UartLink
import VlabSoc.DriverErrors
import VlabSoc.LatencyExact
import VlabSoc.IsrDispatch
import VlabSoc.IsrService
import VlabSoc.TimerService
import VlabSoc.Search
import VlabSoc.RunUntil
import VlabSoc.FaultLifecycle
import VlabSoc.DmaJobs
import VlabSoc.PerfWindow
import VlabSoc.UartDelivery
import VlabSoc.UartTraffic
import VlabSoc.DataErasure
import VlabSoc.RegisterFile
import VlabSoc.CpuVsDma
import VlabSoc.AppMain
import VlabSoc.DmaPolled
import VlabSoc.LazyInit
