import HmCuda.Guest.ParamCount
import HmCuda.System.CallConfig
import HmCuda.System.Callers
import HmCuda.System.CopyApis
import HmCuda.System.CopyDirection
import HmCuda.System.DeviceHandles
import HmCuda.System.CopyLaw
import HmCuda.System.RangeCopy
import HmCuda.System.GuestCopy
import HmCuda.System.Handles
import HmCuda.System.HostAllocFill
import HmCuda.System.HostRegistry
import HmCuda.System.KernelInput
import HmCuda.System.KernelOutput
import HmCuda.System.OutputRuns
import HmCuda.System.HtodPaths
import HmCuda.System.LaunchParams
import HmCuda.System.LaunchWords
import HmCuda.System.Ledger
import HmCuda.System.MemTable
import HmCuda.System.Memcpy
import HmCuda.System.Payload
import HmCuda.System.Queue
import HmCuda.System.PinnedLookup
import HmCuda.System.PinnedBounds
import HmCuda.System.PinnedRoundTrip
import HmCuda.System.RequestBounds
import HmCuda.System.RequestDecoding
import HmCuda.System.RequestLength
import HmCuda.System.Response
import HmCuda.System.StaleHandles
import HmCuda.System.StreamValues
import HmCuda.System.Synchronous
import HmCuda.System.Teardown
import HmCuda.System.StackLeaks
import HmCuda.System.Descriptors
import HmCuda.System.DeviceCopy
import HmCuda.System.Unpin
import HmCuda.System.RemoteCall
import HmCuda.System.CallersHost
import HmCuda.System.CallersProgress
import HmCuda.System.GuestMemory
import HmCuda.System.DeviceQueries
import HmCuda.System.ErrorTexts
import HmCuda.System.Provenance
import HmCuda.System.Sessions
import HmCuda.Driver.BatchSizes
import HmCuda.Driver.Balance
import HmCuda.Driver.SgTable
import HmCuda.System.LastError
import HmCuda.System.ContextHandles
import HmCuda.System.Releases
import HmCuda.System.Atomicity
import HmCuda.System.PinnedTranslation
import HmCuda.System.FirstError
