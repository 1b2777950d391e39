import SeriesxEmu.Runs
import SeriesxEmu.Counting
import SeriesxEmu.Scheduler
import SeriesxEmu.XbeRam
import SeriesxEmu.Objects
import SeriesxEmu.Dispatcher
import SeriesxEmu.Calls
import SeriesxEmu.System
import SeriesxEmu.Registry
import SeriesxEmu.WakeUps
import SeriesxEmu.Fibers
import SeriesxEmu.Effects
import SeriesxEmu.MachineInvariant
import SeriesxEmu.EffectSoundness
import SeriesxEmu.Paths
import SeriesxEmu.Views
import SeriesxEmu.WaitPaths
import SeriesxEmu.EndingPaths
import SeriesxEmu.CallPaths
import SeriesxEmu.SystemPaths
import SeriesxEmu.Histories
import SeriesxEmu.Words
import SeriesxEmu.WaitAnswers
import SeriesxEmu.ThreadIdentity
import SeriesxEmu.ThreadStarts
import SeriesxEmu.ThreadTermination
import SeriesxEmu.HandleClosing
import SeriesxEmu.SemaphoreConservation
import SeriesxEmu.MutantOwnership
import SeriesxEmu.Channels
import SeriesxEmu.EventConservation
import SeriesxEmu.GuestPages
import SeriesxEmu.GuestWords
import SeriesxEmu.CriticalSections
import SeriesxEmu.SectionRuns
import SeriesxEmu.ThreadResumption
import SeriesxEmu.ThreadJoins
import SeriesxEmu.SchedulerRuns
import SeriesxEmu.VirtualTime
import SeriesxEmu.ContiguousMemory
import SeriesxEmu.Traced
import SeriesxEmu.XbeImage
import SeriesxEmu.LoadedXbe
import SeriesxEmu.ParsedImages
import SeriesxEmu.MappedImages
import SeriesxEmu.LoaderSafety
import SeriesxEmu.ImageContents
import SeriesxEmu.Thunks
import SeriesxEmu.GuestRegions
import SeriesxEmu.MemMap
import SeriesxEmu.AliasWindows
import SeriesxEmu.IoQueue
import SeriesxEmu.QueueOrder
import SeriesxEmu.QueueGates
import SeriesxEmu.QueueEffects
import SeriesxEmu.Intervals
import SeriesxEmu.GuestCpu
import SeriesxEmu.AttachedPages
import SeriesxEmu.PageGrants
import SeriesxEmu.CpuMappings
import SeriesxEmu.GuestAllocators
import SeriesxEmu.LostWakeups
import SeriesxEmu.GpuStub
import SeriesxEmu.RejectedPackets
import SeriesxEmu.ThreadHandles
import SeriesxEmu.ObjectInitialisers
import SeriesxEmu.Touches
import SeriesxEmu.TouchedWaits
import SeriesxEmu.TouchedCalls
import SeriesxEmu.TouchedSteps
import SeriesxEmu.Slots
import SeriesxEmu.HandleTable
import SeriesxEmu.GuestMirrors
import SeriesxEmu.SignalStates
import SeriesxEmu.MutantTails
import SeriesxEmu.WaitingFibers
import SeriesxEmu.WaitResults
import SeriesxEmu.Deadlines
import SeriesxEmu.KernelMutants
import SeriesxEmu.ExclusiveMutants
import SeriesxEmu.IntervalConversion
import SeriesxEmu.RoundRobin
import SeriesxEmu.FirstFit
import SeriesxEmu.ParseGuarantees
import SeriesxEmu.ImageLayouts
import SeriesxEmu.TlsTemplates
import SeriesxEmu.ThunkPatching
import SeriesxEmu.Calendar
import SeriesxEmu.TimeFields
import SeriesxEmu.IntegerFormats
import SeriesxEmu.DebugPrint
import SeriesxEmu.FinishedFibers
import SeriesxEmu.FinishObservers
import SeriesxEmu.ObserverRuns
import SeriesxEmu.KernelCalls
import SeriesxEmu.FailedCalls
import SeriesxEmu.KernelFailures
import SeriesxEmu.TerminatedTables
import SeriesxEmu.ThunkWalks
import SeriesxEmu.ThunkOrdinals
import SeriesxEmu.ThreadFrames
import SeriesxEmu.HeapClasses
import SeriesxEmu.BitFields
import SeriesxEmu.Scalars
import SeriesxEmu.VertexShader
import SeriesxEmu.VertexMicrocode
import SeriesxEmu.VertexPrograms
import SeriesxEmu.Combiners
import SeriesxEmu.CombinerInputs
import SeriesxEmu.CombinerRanges
import SeriesxEmu.RenderTargets
import SeriesxEmu.XboxAudio
import SeriesxEmu.AudioFrames
import SeriesxEmu.ThreadFates
import SeriesxEmu.TlsHost
import SeriesxEmu.TlsNotifications
import SeriesxEmu.TlsBlocks
import SeriesxEmu.KernelExports
import SeriesxEmu.GuestRun
import SeriesxEmu.GuestCalls
import SeriesxEmu.GuestRuns
import SeriesxEmu.Batches
import SeriesxEmu.NativeGuest
import SeriesxEmu.KeyedLists
import SeriesxEmu.Transcripts
import SeriesxEmu.VirtualFiles
import SeriesxEmu.XboxDisplay
import SeriesxEmu.RunOrigins
import SeriesxEmu.DisplayRuns
import SeriesxEmu.Pixmaps
import SeriesxEmu.FrameFiles
import SeriesxEmu.XboxInput
import SeriesxEmu.GamepadRuns
import SeriesxEmu.CommandHistory
import SeriesxEmu.Ledgers
import SeriesxEmu.VulkanDevice
import SeriesxEmu.DeviceSelection
import SeriesxEmu.BufferMemory
import SeriesxEmu.GpuBatch
import SeriesxEmu.BatchLedgers
import SeriesxEmu.PackedFields
import SeriesxEmu.RootArguments
import SeriesxEmu.BatchHistory
import SeriesxEmu.SegmentDescriptors
import SeriesxEmu.ThreadBlocks
import SeriesxEmu.Potentials
import SeriesxEmu.QueueDrains
import SeriesxEmu.Liveness
import SeriesxEmu.VertexLiveness
import SeriesxEmu.TlsCallbacks
