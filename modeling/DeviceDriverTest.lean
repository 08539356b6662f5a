import DeviceDriverTest.DmaChainTransfer
import DeviceDriverTest.DmaVerdict
import DeviceDriverTest.DmaThreadAccess
import DeviceDriverTest.DmaSingleChannelModules
import DeviceDriverTest.DmaChainDynamic
import DeviceDriverTest.DmaChainStatic
import DeviceDriverTest.DmaChainThread
import DeviceDriverTest.DmaChainStress
import DeviceDriverTest.CompletionCounter
import DeviceDriverTest.DmaDloadThread
import DeviceDriverTest.DmaThreadCompletion
import DeviceDriverTest.CameraBufferShare
import DeviceDriverTest.AllocationLedger
import DeviceDriverTest.DmaChainIndices
import DeviceDriverTest.DmaDload
import DeviceDriverTest.DmaMapping
import DeviceDriverTest.McbspDma
import DeviceDriverTest.McbspPoll
import DeviceDriverTest.McspiDatatest
import DeviceDriverTest.FifoDriver
import DeviceDriverTest.VideoBufferPools
import DeviceDriverTest.VideoStreaming
import DeviceDriverTest.VideoStreamingWb
import DeviceDriverTest.CameraBurst
import DeviceDriverTest.Bisect
import DeviceDriverTest.RingHistory
import DeviceDriverTest.SegmentAnimation
import DeviceDriverTest.HandlerError
import DeviceDriverTest.MergeTool
import DeviceDriverTest.MergeToolDirty
import DeviceDriverTest.MergeToolTargets
import DeviceDriverTest.GpioTest
import DeviceDriverTest.IndexedListing
import DeviceDriverTest.ProcessParallelism
import DeviceDriverTest.TestRunner
import DeviceDriverTest.TestLog
import DeviceDriverTest.TestLogVerdict
import DeviceDriverTest.TestLogRecords
import DeviceDriverTest.FbUserTests
import DeviceDriverTest.DvfsData
import DeviceDriverTest.DvfsOppTuple
import DeviceDriverTest.DvfsStress
import DeviceDriverTest.AcquireRelease
import DeviceDriverTest.CpuHotPlug
import DeviceDriverTest.DmaDloadGather
import DeviceDriverTest.GpadcSmp
import DeviceDriverTest.ResourceDebug
import DeviceDriverTest.PaddedCopy
import DeviceDriverTest.PowerRetention
import DeviceDriverTest.UartTransfer
import DeviceDriverTest.CString
import DeviceDriverTest.ClockTest
import DeviceDriverTest.ColorBar
import DeviceDriverTest.McbspJustification
import DeviceDriverTest.McbspSrg
import DeviceDriverTest.McspiVerdict
import DeviceDriverTest.RandomWindow
import DeviceDriverTest.CmdOptions
import DeviceDriverTest.FrameRate
import DeviceDriverTest.RotateImage
import DeviceDriverTest.TilerLayout
import DeviceDriverTest.AlarmSet
import DeviceDriverTest.FbColorBars
import DeviceDriverTest.FbRotation
import DeviceDriverTest.FbTest
import DeviceDriverTest.H3aStats
import DeviceDriverTest.LineDrawing
import DeviceDriverTest.FieldSplitting
import DeviceDriverTest.HandlerCmd
import DeviceDriverTest.TestRunnerScenarios
import DeviceDriverTest.AndroidPM
import DeviceDriverTest.CpuAffinity
import DeviceDriverTest.CpuFreqScal
import DeviceDriverTest.FpsTimers
import DeviceDriverTest.HandlerOmapconf
import DeviceDriverTest.InterruptTable
import DeviceDriverTest.IrqAffinity
import DeviceDriverTest.MemTester
import DeviceDriverTest.MmcsdBlock
import DeviceDriverTest.OmapconfCompare
import DeviceDriverTest.ProcessPriority
import DeviceDriverTest.StreamingZoom
import DeviceDriverTest.AppTop2
import DeviceDriverTest.BindUnbind
import DeviceDriverTest.DmaPattern
import DeviceDriverTest.PriorityComparison
import DeviceDriverTest.BcDivide
import DeviceDriverTest.BcPower
import DeviceDriverTest.BcConstant
import DeviceDriverTest.BcGenerate
import DeviceDriverTest.BcLoad
import DeviceDriverTest.BcCall
import DeviceDriverTest.BcProgram
import DeviceDriverTest.BcSymbolTable
import DeviceDriverTest.BcSettings
