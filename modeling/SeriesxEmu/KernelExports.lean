import SeriesxEmu.KernelCalls

/-!
# The export table

The kernel exports with their names, calling conventions and argument bytes. The dispatch
switch needs only the convention of an export; a CPU that serves a call of the guest also
needs the bytes, to find the arguments and to pop them, and the names for its faults.
-/

namespace SeriesxEmu

/-- `arg_bytes` are the bytes that a `stdcall` callee pops, or all argument bytes of a
`fastcall` function. -/
structure Export where
  ordinal : Nat
  name : String
  conv : Conv
  argBytes : Nat
deriving DecidableEq, Repr

/-- `kExports`. -/
def kExports : List Export :=
  [⟨1, "AvGetSavedDataAddress", .stdcall, 0⟩, ⟨2, "AvSendTVEncoderOption", .stdcall, 16⟩,
    ⟨3, "AvSetDisplayMode", .stdcall, 24⟩, ⟨4, "AvSetSavedDataAddress", .stdcall, 4⟩,
    ⟨5, "DbgBreakPoint", .stdcall, 0⟩, ⟨6, "DbgBreakPointWithStatus", .stdcall, 4⟩,
    ⟨7, "DbgLoadImageSymbols", .stdcall, 12⟩, ⟨8, "DbgPrint", .cdecl, 0⟩, ⟨9, "HalReadSMCTrayState", .stdcall, 8⟩,
    ⟨10, "DbgPrompt", .stdcall, 12⟩, ⟨11, "DbgUnLoadImageSymbols", .stdcall, 12⟩,
    ⟨12, "ExAcquireReadWriteLockExclusive", .stdcall, 4⟩, ⟨13, "ExAcquireReadWriteLockShared", .stdcall, 4⟩,
    ⟨14, "ExAllocatePool", .stdcall, 4⟩, ⟨15, "ExAllocatePoolWithTag", .stdcall, 8⟩,
    ⟨16, "ExEventObjectType", .data, 0⟩, ⟨17, "ExFreePool", .stdcall, 4⟩,
    ⟨18, "ExInitializeReadWriteLock", .stdcall, 4⟩, ⟨19, "ExInterlockedAddLargeInteger", .stdcall, 16⟩,
    ⟨20, "ExInterlockedAddLargeStatistic", .fastcall, 8⟩, ⟨21, "ExInterlockedCompareExchange64", .fastcall, 12⟩,
    ⟨22, "ExMutantObjectType", .data, 0⟩, ⟨23, "ExQueryPoolBlockSize", .stdcall, 4⟩,
    ⟨24, "ExQueryNonVolatileSetting", .stdcall, 20⟩, ⟨25, "ExReadWriteRefurbInfo", .stdcall, 12⟩,
    ⟨26, "ExRaiseException", .stdcall, 4⟩, ⟨27, "ExRaiseStatus", .stdcall, 4⟩,
    ⟨28, "ExReleaseReadWriteLock", .stdcall, 4⟩, ⟨29, "ExSaveNonVolatileSetting", .stdcall, 16⟩,
    ⟨30, "ExSemaphoreObjectType", .data, 0⟩, ⟨31, "ExTimerObjectType", .data, 0⟩,
    ⟨32, "ExfInterlockedInsertHeadList", .fastcall, 8⟩, ⟨33, "ExfInterlockedInsertTailList", .fastcall, 8⟩,
    ⟨34, "ExfInterlockedRemoveHeadList", .fastcall, 4⟩, ⟨35, "FscGetCacheSize", .stdcall, 0⟩,
    ⟨36, "FscInvalidateIdleBlocks", .stdcall, 0⟩, ⟨37, "FscSetCacheSize", .stdcall, 4⟩,
    ⟨38, "HalClearSoftwareInterrupt", .fastcall, 4⟩, ⟨39, "HalDisableSystemInterrupt", .stdcall, 4⟩,
    ⟨40, "HalDiskCachePartitionCount", .data, 0⟩, ⟨41, "HalDiskModelNumber", .data, 0⟩,
    ⟨42, "HalDiskSerialNumber", .data, 0⟩, ⟨43, "HalEnableSystemInterrupt", .stdcall, 8⟩,
    ⟨44, "HalGetInterruptVector", .stdcall, 8⟩, ⟨45, "HalReadSMBusValue", .stdcall, 16⟩,
    ⟨46, "HalReadWritePCISpace", .stdcall, 24⟩, ⟨47, "HalRegisterShutdownNotification", .stdcall, 8⟩,
    ⟨48, "HalRequestSoftwareInterrupt", .fastcall, 4⟩, ⟨49, "HalReturnToFirmware", .stdcall, 4⟩,
    ⟨50, "HalWriteSMBusValue", .stdcall, 16⟩, ⟨51, "InterlockedCompareExchange", .fastcall, 12⟩,
    ⟨52, "InterlockedDecrement", .fastcall, 4⟩, ⟨53, "InterlockedIncrement", .fastcall, 4⟩,
    ⟨54, "InterlockedExchange", .fastcall, 8⟩, ⟨55, "InterlockedExchangeAdd", .fastcall, 8⟩,
    ⟨56, "InterlockedFlushSList", .fastcall, 4⟩, ⟨57, "InterlockedPopEntrySList", .fastcall, 4⟩,
    ⟨58, "InterlockedPushEntrySList", .fastcall, 8⟩, ⟨59, "IoAllocateIrp", .stdcall, 4⟩,
    ⟨60, "IoBuildAsynchronousFsdRequest", .stdcall, 24⟩, ⟨61, "IoBuildDeviceIoControlRequest", .stdcall, 36⟩,
    ⟨62, "IoBuildSynchronousFsdRequest", .stdcall, 28⟩, ⟨63, "IoCheckShareAccess", .stdcall, 20⟩,
    ⟨64, "IoCompletionObjectType", .data, 0⟩, ⟨65, "IoCreateDevice", .stdcall, 24⟩,
    ⟨66, "IoCreateFile", .stdcall, 40⟩, ⟨67, "IoCreateSymbolicLink", .stdcall, 8⟩,
    ⟨68, "IoDeleteDevice", .stdcall, 4⟩, ⟨69, "IoDeleteSymbolicLink", .stdcall, 4⟩,
    ⟨70, "IoDeviceObjectType", .data, 0⟩, ⟨71, "IoFileObjectType", .data, 0⟩, ⟨72, "IoFreeIrp", .stdcall, 4⟩,
    ⟨73, "IoInitializeIrp", .stdcall, 12⟩, ⟨74, "IoInvalidDeviceRequest", .stdcall, 8⟩,
    ⟨75, "IoQueryFileInformation", .stdcall, 20⟩, ⟨76, "IoQueryVolumeInformation", .stdcall, 20⟩,
    ⟨77, "IoQueueThreadIrp", .stdcall, 4⟩, ⟨78, "IoRemoveShareAccess", .stdcall, 8⟩,
    ⟨79, "IoSetIoCompletion", .stdcall, 20⟩, ⟨80, "IoSetShareAccess", .stdcall, 16⟩,
    ⟨81, "IoStartNextPacket", .stdcall, 4⟩, ⟨82, "IoStartNextPacketByKey", .stdcall, 8⟩,
    ⟨83, "IoStartPacket", .stdcall, 12⟩, ⟨84, "IoSynchronousDeviceIoControlRequest", .stdcall, 32⟩,
    ⟨85, "IoSynchronousFsdRequest", .stdcall, 20⟩, ⟨86, "IofCallDriver", .fastcall, 8⟩,
    ⟨87, "IofCompleteRequest", .fastcall, 8⟩, ⟨88, "KdDebuggerEnabled", .data, 0⟩,
    ⟨89, "KdDebuggerNotPresent", .data, 0⟩, ⟨90, "IoDismountVolume", .stdcall, 4⟩,
    ⟨91, "IoDismountVolumeByName", .stdcall, 4⟩, ⟨92, "KeAlertResumeThread", .stdcall, 4⟩,
    ⟨93, "KeAlertThread", .stdcall, 8⟩, ⟨94, "KeBoostPriorityThread", .stdcall, 8⟩, ⟨95, "KeBugCheck", .stdcall, 4⟩,
    ⟨96, "KeBugCheckEx", .stdcall, 20⟩, ⟨97, "KeCancelTimer", .stdcall, 4⟩, ⟨98, "KeConnectInterrupt", .stdcall, 4⟩,
    ⟨99, "KeDelayExecutionThread", .stdcall, 12⟩, ⟨100, "KeDisconnectInterrupt", .stdcall, 4⟩,
    ⟨101, "KeEnterCriticalRegion", .stdcall, 0⟩, ⟨102, "MmGlobalData", .data, 0⟩,
    ⟨103, "KeGetCurrentIrql", .stdcall, 0⟩, ⟨104, "KeGetCurrentThread", .stdcall, 0⟩,
    ⟨105, "KeInitializeApc", .stdcall, 28⟩, ⟨106, "KeInitializeDeviceQueue", .stdcall, 4⟩,
    ⟨107, "KeInitializeDpc", .stdcall, 12⟩, ⟨108, "KeInitializeEvent", .stdcall, 12⟩,
    ⟨109, "KeInitializeInterrupt", .stdcall, 28⟩, ⟨110, "KeInitializeMutant", .stdcall, 8⟩,
    ⟨111, "KeInitializeQueue", .stdcall, 8⟩, ⟨112, "KeInitializeSemaphore", .stdcall, 12⟩,
    ⟨113, "KeInitializeTimerEx", .stdcall, 8⟩, ⟨114, "KeInsertByKeyDeviceQueue", .stdcall, 12⟩,
    ⟨115, "KeInsertDeviceQueue", .stdcall, 8⟩, ⟨116, "KeInsertHeadQueue", .stdcall, 8⟩,
    ⟨117, "KeInsertQueue", .stdcall, 8⟩, ⟨118, "KeInsertQueueApc", .stdcall, 16⟩,
    ⟨119, "KeInsertQueueDpc", .stdcall, 12⟩, ⟨120, "KeInterruptTime", .data, 0⟩,
    ⟨121, "KeIsExecutingDpc", .stdcall, 0⟩, ⟨122, "KeLeaveCriticalRegion", .stdcall, 0⟩,
    ⟨123, "KePulseEvent", .stdcall, 12⟩, ⟨124, "KeQueryBasePriorityThread", .stdcall, 4⟩,
    ⟨125, "KeQueryInterruptTime", .stdcall, 0⟩, ⟨126, "KeQueryPerformanceCounter", .stdcall, 0⟩,
    ⟨127, "KeQueryPerformanceFrequency", .stdcall, 0⟩, ⟨128, "KeQuerySystemTime", .stdcall, 4⟩,
    ⟨129, "KeRaiseIrqlToDpcLevel", .stdcall, 0⟩, ⟨130, "KeRaiseIrqlToSynchLevel", .stdcall, 0⟩,
    ⟨131, "KeReleaseMutant", .stdcall, 16⟩, ⟨132, "KeReleaseSemaphore", .stdcall, 16⟩,
    ⟨133, "KeRemoveByKeyDeviceQueue", .stdcall, 8⟩, ⟨134, "KeRemoveDeviceQueue", .stdcall, 4⟩,
    ⟨135, "KeRemoveEntryDeviceQueue", .stdcall, 8⟩, ⟨136, "KeRemoveQueue", .stdcall, 12⟩,
    ⟨137, "KeRemoveQueueDpc", .stdcall, 4⟩, ⟨138, "KeResetEvent", .stdcall, 4⟩,
    ⟨139, "KeRestoreFloatingPointState", .stdcall, 4⟩, ⟨140, "KeResumeThread", .stdcall, 4⟩,
    ⟨141, "KeRundownQueue", .stdcall, 4⟩, ⟨142, "KeSaveFloatingPointState", .stdcall, 4⟩,
    ⟨143, "KeSetBasePriorityThread", .stdcall, 8⟩, ⟨144, "KeSetDisableBoostThread", .stdcall, 8⟩,
    ⟨145, "KeSetEvent", .stdcall, 12⟩, ⟨146, "KeSetEventBoostPriority", .stdcall, 8⟩,
    ⟨147, "KeSetPriorityProcess", .stdcall, 8⟩, ⟨148, "KeSetPriorityThread", .stdcall, 8⟩,
    ⟨149, "KeSetTimer", .stdcall, 16⟩, ⟨150, "KeSetTimerEx", .stdcall, 20⟩,
    ⟨151, "KeStallExecutionProcessor", .stdcall, 4⟩, ⟨152, "KeSuspendThread", .stdcall, 4⟩,
    ⟨153, "KeSynchronizeExecution", .stdcall, 12⟩, ⟨154, "KeSystemTime", .data, 0⟩,
    ⟨155, "KeTestAlertThread", .stdcall, 4⟩, ⟨156, "KeTickCount", .data, 0⟩, ⟨157, "KeTimeIncrement", .data, 0⟩,
    ⟨158, "KeWaitForMultipleObjects", .stdcall, 32⟩, ⟨159, "KeWaitForSingleObject", .stdcall, 20⟩,
    ⟨160, "KfRaiseIrql", .fastcall, 4⟩, ⟨161, "KfLowerIrql", .fastcall, 4⟩, ⟨162, "KiBugCheckData", .data, 0⟩,
    ⟨163, "KiUnlockDispatcherDatabase", .fastcall, 4⟩, ⟨164, "LaunchDataPage", .data, 0⟩,
    ⟨165, "MmAllocateContiguousMemory", .stdcall, 4⟩, ⟨166, "MmAllocateContiguousMemoryEx", .stdcall, 20⟩,
    ⟨167, "MmAllocateSystemMemory", .stdcall, 8⟩, ⟨168, "MmClaimGpuInstanceMemory", .stdcall, 8⟩,
    ⟨169, "MmCreateKernelStack", .stdcall, 8⟩, ⟨170, "MmDeleteKernelStack", .stdcall, 8⟩,
    ⟨171, "MmFreeContiguousMemory", .stdcall, 4⟩, ⟨172, "MmFreeSystemMemory", .stdcall, 8⟩,
    ⟨173, "MmGetPhysicalAddress", .stdcall, 4⟩, ⟨174, "MmIsAddressValid", .stdcall, 4⟩,
    ⟨175, "MmLockUnlockBufferPages", .stdcall, 12⟩, ⟨176, "MmLockUnlockPhysicalPage", .stdcall, 8⟩,
    ⟨177, "MmMapIoSpace", .stdcall, 12⟩, ⟨178, "MmPersistContiguousMemory", .stdcall, 12⟩,
    ⟨179, "MmQueryAddressProtect", .stdcall, 4⟩, ⟨180, "MmQueryAllocationSize", .stdcall, 4⟩,
    ⟨181, "MmQueryStatistics", .stdcall, 4⟩, ⟨182, "MmSetAddressProtect", .stdcall, 12⟩,
    ⟨183, "MmUnmapIoSpace", .stdcall, 8⟩, ⟨184, "NtAllocateVirtualMemory", .stdcall, 20⟩,
    ⟨185, "NtCancelTimer", .stdcall, 8⟩, ⟨186, "NtClearEvent", .stdcall, 4⟩, ⟨187, "NtClose", .stdcall, 4⟩,
    ⟨188, "NtCreateDirectoryObject", .stdcall, 8⟩, ⟨189, "NtCreateEvent", .stdcall, 16⟩,
    ⟨190, "NtCreateFile", .stdcall, 36⟩, ⟨191, "NtCreateIoCompletion", .stdcall, 16⟩,
    ⟨192, "NtCreateMutant", .stdcall, 12⟩, ⟨193, "NtCreateSemaphore", .stdcall, 16⟩,
    ⟨194, "NtCreateTimer", .stdcall, 12⟩, ⟨195, "NtDeleteFile", .stdcall, 4⟩,
    ⟨196, "NtDeviceIoControlFile", .stdcall, 40⟩, ⟨197, "NtDuplicateObject", .stdcall, 12⟩,
    ⟨198, "NtFlushBuffersFile", .stdcall, 8⟩, ⟨199, "NtFreeVirtualMemory", .stdcall, 12⟩,
    ⟨200, "NtFsControlFile", .stdcall, 40⟩, ⟨201, "NtOpenDirectoryObject", .stdcall, 8⟩,
    ⟨202, "NtOpenFile", .stdcall, 24⟩, ⟨203, "NtOpenSymbolicLinkObject", .stdcall, 8⟩,
    ⟨204, "NtProtectVirtualMemory", .stdcall, 16⟩, ⟨205, "NtPulseEvent", .stdcall, 8⟩,
    ⟨206, "NtQueueApcThread", .stdcall, 20⟩, ⟨207, "NtQueryDirectoryFile", .stdcall, 40⟩,
    ⟨208, "NtQueryDirectoryObject", .stdcall, 24⟩, ⟨209, "NtQueryEvent", .stdcall, 8⟩,
    ⟨210, "NtQueryFullAttributesFile", .stdcall, 8⟩, ⟨211, "NtQueryInformationFile", .stdcall, 20⟩,
    ⟨212, "NtQueryIoCompletion", .stdcall, 8⟩, ⟨213, "NtQueryMutant", .stdcall, 8⟩,
    ⟨214, "NtQuerySemaphore", .stdcall, 8⟩, ⟨215, "NtQuerySymbolicLinkObject", .stdcall, 12⟩,
    ⟨216, "NtQueryTimer", .stdcall, 8⟩, ⟨217, "NtQueryVirtualMemory", .stdcall, 8⟩,
    ⟨218, "NtQueryVolumeInformationFile", .stdcall, 20⟩, ⟨219, "NtReadFile", .stdcall, 32⟩,
    ⟨220, "NtReadFileScatter", .stdcall, 32⟩, ⟨221, "NtReleaseMutant", .stdcall, 8⟩,
    ⟨222, "NtReleaseSemaphore", .stdcall, 12⟩, ⟨223, "NtRemoveIoCompletion", .stdcall, 20⟩,
    ⟨224, "NtResumeThread", .stdcall, 8⟩, ⟨225, "NtSetEvent", .stdcall, 8⟩,
    ⟨226, "NtSetInformationFile", .stdcall, 20⟩, ⟨227, "NtSetIoCompletion", .stdcall, 20⟩,
    ⟨228, "NtSetSystemTime", .stdcall, 8⟩, ⟨229, "NtSetTimerEx", .stdcall, 32⟩,
    ⟨230, "NtSignalAndWaitForSingleObjectEx", .stdcall, 20⟩, ⟨231, "NtSuspendThread", .stdcall, 8⟩,
    ⟨232, "NtUserIoApcDispatcher", .stdcall, 12⟩, ⟨233, "NtWaitForSingleObject", .stdcall, 12⟩,
    ⟨234, "NtWaitForSingleObjectEx", .stdcall, 16⟩, ⟨235, "NtWaitForMultipleObjectsEx", .stdcall, 24⟩,
    ⟨236, "NtWriteFile", .stdcall, 32⟩, ⟨237, "NtWriteFileGather", .stdcall, 32⟩,
    ⟨238, "NtYieldExecution", .stdcall, 0⟩, ⟨239, "ObCreateObject", .stdcall, 16⟩,
    ⟨240, "ObDirectoryObjectType", .data, 0⟩, ⟨241, "ObInsertObject", .stdcall, 16⟩,
    ⟨242, "ObMakeTemporaryObject", .stdcall, 4⟩, ⟨243, "ObOpenObjectByName", .stdcall, 16⟩,
    ⟨244, "ObOpenObjectByPointer", .stdcall, 12⟩, ⟨245, "ObpObjectHandleTable", .data, 0⟩,
    ⟨246, "ObReferenceObjectByHandle", .stdcall, 12⟩, ⟨247, "ObReferenceObjectByName", .stdcall, 20⟩,
    ⟨248, "ObReferenceObjectByPointer", .stdcall, 8⟩, ⟨249, "ObSymbolicLinkObjectType", .data, 0⟩,
    ⟨250, "ObfDereferenceObject", .fastcall, 4⟩, ⟨251, "ObfReferenceObject", .fastcall, 4⟩,
    ⟨252, "PhyGetLinkState", .stdcall, 4⟩, ⟨253, "PhyInitialize", .stdcall, 8⟩,
    ⟨254, "PsCreateSystemThread", .stdcall, 20⟩, ⟨255, "PsCreateSystemThreadEx", .stdcall, 40⟩,
    ⟨256, "PsQueryStatistics", .stdcall, 4⟩, ⟨257, "PsSetCreateThreadNotifyRoutine", .stdcall, 4⟩,
    ⟨258, "PsTerminateSystemThread", .stdcall, 4⟩, ⟨259, "PsThreadObjectType", .data, 0⟩,
    ⟨260, "RtlAnsiStringToUnicodeString", .stdcall, 12⟩, ⟨261, "RtlAppendStringToString", .stdcall, 8⟩,
    ⟨262, "RtlAppendUnicodeStringToString", .stdcall, 8⟩, ⟨263, "RtlAppendUnicodeToString", .stdcall, 8⟩,
    ⟨264, "RtlAssert", .stdcall, 16⟩, ⟨265, "RtlCaptureContext", .stdcall, 4⟩,
    ⟨266, "RtlCaptureStackBackTrace", .stdcall, 16⟩, ⟨267, "RtlCharToInteger", .stdcall, 12⟩,
    ⟨268, "RtlCompareMemory", .stdcall, 12⟩, ⟨269, "RtlCompareMemoryUlong", .stdcall, 12⟩,
    ⟨270, "RtlCompareString", .stdcall, 12⟩, ⟨271, "RtlCompareUnicodeString", .stdcall, 12⟩,
    ⟨272, "RtlCopyString", .stdcall, 8⟩, ⟨273, "RtlCopyUnicodeString", .stdcall, 8⟩,
    ⟨274, "RtlCreateUnicodeString", .stdcall, 8⟩, ⟨275, "RtlDowncaseUnicodeChar", .stdcall, 4⟩,
    ⟨276, "RtlDowncaseUnicodeString", .stdcall, 12⟩, ⟨277, "RtlEnterCriticalSection", .stdcall, 4⟩,
    ⟨278, "RtlEnterCriticalSectionAndRegion", .stdcall, 4⟩, ⟨279, "RtlEqualString", .stdcall, 12⟩,
    ⟨280, "RtlEqualUnicodeString", .stdcall, 12⟩, ⟨281, "RtlExtendedIntegerMultiply", .stdcall, 12⟩,
    ⟨282, "RtlExtendedLargeIntegerDivide", .stdcall, 16⟩, ⟨283, "RtlExtendedMagicDivide", .stdcall, 20⟩,
    ⟨284, "RtlFillMemory", .stdcall, 12⟩, ⟨285, "RtlFillMemoryUlong", .stdcall, 12⟩,
    ⟨286, "RtlFreeAnsiString", .stdcall, 4⟩, ⟨287, "RtlFreeUnicodeString", .stdcall, 4⟩,
    ⟨288, "RtlGetCallersAddress", .stdcall, 8⟩, ⟨289, "RtlInitAnsiString", .stdcall, 8⟩,
    ⟨290, "RtlInitUnicodeString", .stdcall, 8⟩, ⟨291, "RtlInitializeCriticalSection", .stdcall, 4⟩,
    ⟨292, "RtlIntegerToChar", .stdcall, 16⟩, ⟨293, "RtlIntegerToUnicodeString", .stdcall, 12⟩,
    ⟨294, "RtlLeaveCriticalSection", .stdcall, 4⟩, ⟨295, "RtlLeaveCriticalSectionAndRegion", .stdcall, 4⟩,
    ⟨296, "RtlLowerChar", .stdcall, 4⟩, ⟨297, "RtlMapGenericMask", .stdcall, 8⟩, ⟨298, "RtlMoveMemory", .stdcall, 12⟩,
    ⟨299, "RtlMultiByteToUnicodeN", .stdcall, 20⟩, ⟨300, "RtlMultiByteToUnicodeSize", .stdcall, 12⟩,
    ⟨301, "RtlNtStatusToDosError", .stdcall, 4⟩, ⟨302, "RtlRaiseException", .stdcall, 4⟩,
    ⟨303, "RtlRaiseStatus", .stdcall, 4⟩, ⟨304, "RtlTimeFieldsToTime", .stdcall, 8⟩,
    ⟨305, "RtlTimeToTimeFields", .stdcall, 8⟩, ⟨306, "RtlTryEnterCriticalSection", .stdcall, 4⟩,
    ⟨307, "RtlUlongByteSwap", .fastcall, 4⟩, ⟨308, "RtlUnicodeStringToAnsiString", .stdcall, 12⟩,
    ⟨309, "RtlUnicodeStringToInteger", .stdcall, 12⟩, ⟨310, "RtlUnicodeToMultiByteN", .stdcall, 20⟩,
    ⟨311, "RtlUnicodeToMultiByteSize", .stdcall, 12⟩, ⟨312, "RtlUnwind", .stdcall, 16⟩,
    ⟨313, "RtlUpcaseUnicodeChar", .stdcall, 4⟩, ⟨314, "RtlUpcaseUnicodeString", .stdcall, 12⟩,
    ⟨315, "RtlUpcaseUnicodeToMultiByteN", .stdcall, 20⟩, ⟨316, "RtlUpperChar", .stdcall, 4⟩,
    ⟨317, "RtlUpperString", .stdcall, 8⟩, ⟨318, "RtlUshortByteSwap", .fastcall, 4⟩,
    ⟨319, "RtlWalkFrameChain", .stdcall, 12⟩, ⟨320, "RtlZeroMemory", .stdcall, 8⟩, ⟨321, "XboxEEPROMKey", .data, 0⟩,
    ⟨322, "XboxHardwareInfo", .data, 0⟩, ⟨323, "XboxHDKey", .data, 0⟩, ⟨324, "XboxKrnlVersion", .data, 0⟩,
    ⟨325, "XboxSignatureKey", .data, 0⟩, ⟨326, "XeImageFileName", .data, 0⟩, ⟨327, "XeLoadSection", .stdcall, 4⟩,
    ⟨328, "XeUnloadSection", .stdcall, 4⟩, ⟨329, "READ_PORT_BUFFER_UCHAR", .stdcall, 12⟩,
    ⟨330, "READ_PORT_BUFFER_USHORT", .stdcall, 12⟩, ⟨331, "READ_PORT_BUFFER_ULONG", .stdcall, 12⟩,
    ⟨332, "WRITE_PORT_BUFFER_UCHAR", .stdcall, 12⟩, ⟨333, "WRITE_PORT_BUFFER_USHORT", .stdcall, 12⟩,
    ⟨334, "WRITE_PORT_BUFFER_ULONG", .stdcall, 12⟩, ⟨335, "XcSHAInit", .stdcall, 4⟩,
    ⟨336, "XcSHAUpdate", .stdcall, 12⟩, ⟨337, "XcSHAFinal", .stdcall, 8⟩, ⟨338, "XcRC4Key", .stdcall, 12⟩,
    ⟨339, "XcRC4Crypt", .stdcall, 12⟩, ⟨340, "XcHMAC", .stdcall, 28⟩, ⟨341, "XcPKEncPublic", .stdcall, 12⟩,
    ⟨342, "XcPKDecPrivate", .stdcall, 12⟩, ⟨343, "XcPKGetKeyLen", .stdcall, 4⟩,
    ⟨344, "XcVerifyPKCS1Signature", .stdcall, 12⟩, ⟨345, "XcModExp", .stdcall, 20⟩,
    ⟨346, "XcDESKeyParity", .stdcall, 8⟩, ⟨347, "XcKeyTable", .stdcall, 12⟩, ⟨348, "XcBlockCrypt", .stdcall, 20⟩,
    ⟨349, "XcBlockCryptCBC", .stdcall, 28⟩, ⟨350, "XcCryptService", .stdcall, 8⟩,
    ⟨351, "XcUpdateCrypto", .stdcall, 8⟩, ⟨352, "RtlRip", .stdcall, 12⟩, ⟨353, "XboxLANKey", .data, 0⟩,
    ⟨354, "XboxAlternateSignatureKeys", .data, 0⟩, ⟨355, "XePublicKeyData", .data, 0⟩,
    ⟨356, "HalBootSMCVideoMode", .data, 0⟩, ⟨357, "IdexChannelObject", .data, 0⟩,
    ⟨358, "HalIsResetOrShutdownPending", .stdcall, 0⟩, ⟨359, "IoMarkIrpMustComplete", .stdcall, 4⟩,
    ⟨360, "HalInitiateShutdown", .stdcall, 0⟩, ⟨361, "RtlSnprintf", .cdecl, 0⟩, ⟨362, "RtlSprintf", .cdecl, 0⟩,
    ⟨363, "RtlVsnprintf", .cdecl, 0⟩, ⟨364, "RtlVsprintf", .cdecl, 0⟩, ⟨365, "HalEnableSecureTrayEject", .stdcall, 0⟩,
    ⟨366, "HalWriteSMCScratchRegister", .stdcall, 4⟩, ⟨374, "MmDbgAllocateMemory", .stdcall, 8⟩,
    ⟨375, "MmDbgFreeMemory", .stdcall, 8⟩, ⟨376, "MmDbgQueryAvailablePages", .stdcall, 0⟩,
    ⟨377, "MmDbgReleaseAddress", .stdcall, 8⟩, ⟨378, "MmDbgWriteCheck", .stdcall, 8⟩]

/-- `find_export`. -/
def findExport (ordinal : Nat) : Option Export := kExports.find? (fun entry => entry.ordinal == ordinal)

/-- The name of an export. -/
def nameOf (ordinal : Nat) : String :=
  match findExport ordinal with
  | some entry => entry.name
  | none => "<unknown>"

/-- The part of the table that the dispatch switch reads. -/
def exportConv (ordinal : Nat) : Option Conv := (findExport ordinal).map Export.conv

/-- `returns_64`. -/
def returns64 (ordinal : Nat) : Bool :=
  match ordinal with
  | 126 => true
  | 127 => true
  | _ => false

/-! ## The arguments of a call -/

/-- How `handle_hle_call` takes the arguments of an export: from the two registers of the
`fastcall` convention, then from the stack, where it reads the word with this index. The
array holds 14 of them. -/
def Export.arguments (entry : Export) (ecx edx : UInt32) (stackArg : Nat → UInt32) : List UInt32 :=
  match entry.conv with
  | .stdcall => (List.range (min (entry.argBytes / 4) 14)).map stackArg
  | .fastcall =>
    let registers := if 4 < entry.argBytes then [ecx, edx] else [ecx]
    registers ++ (List.range (min ((entry.argBytes - 8 + 3) / 4) (14 - registers.length))).map stackArg
  | .cdecl => (List.range 13).map stackArg
  | .data => []

/-- The bytes that the callee pops. -/
def Export.stackBytes (entry : Export) : Nat :=
  match entry.conv with
  | .stdcall => entry.argBytes
  | .fastcall => if 8 < entry.argBytes then entry.argBytes - 8 else 0
  | .cdecl | .data => 0

end SeriesxEmu
