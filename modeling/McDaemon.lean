import McDaemon.Lib.Machine
import McDaemon.Lib.PtrList
import McDaemon.Lib.CStrings
import McDaemon.Lib.CFormats
import McDaemon.Device.Isolation
import McDaemon.Device.Ownership
import McDaemon.Device.LockBalance
import McDaemon.Device.CloseLoop
import McDaemon.Daemon.Command
import McDaemon.Daemon.McpExclusion
import McDaemon.Daemon.Framing
import McDaemon.Lib.FileSystem
import McDaemon.Registry.Container
import McDaemon.Registry.Storage
import McDaemon.Registry.ServiceBlob
import McDaemon.Registry.TaBlob
import McDaemon.Registry.Cleanup
import McDaemon.Registry.Reach
import McDaemon.Registry.Resume
import McDaemon.Common.CSemaphore
import McDaemon.Device.NotificationQueue
import McDaemon.Device.Frame
import McDaemon.Device.Lifecycle
import McDaemon.Device.Reclaim
import McDaemon.Device.Orphan
import McDaemon.Device.Delivery
import McDaemon.Daemon.Server
import McDaemon.Daemon.ConnectionOwner
import McDaemon.Lib.Reader
import McDaemon.Registry.AuthToken
import McDaemon.Daemon.RegistryCommands
import McDaemon.Daemon.RegistryReads
import McDaemon.Client.RegistryRequests
import McDaemon.Client.RegistryTransfer
import McDaemon.Client.OpenSession
import McDaemon.Client.OpenAtomicity
import McDaemon.Client.CloseSession
import McDaemon.Client.CommonClient
import McDaemon.Client.DeviceCount
import McDaemon.Daemon.NetlinkServer
import McDaemon.Proxy.BufferTables
import McDaemon.Proxy.ServerConnection
import McDaemon.Proxy.Teardown
import McDaemon.Daemon.CutReading
import McDaemon.Client.CutReading
import McDaemon.RootPa.LockExclusion
import McDaemon.Lib.Cutoff
import McDaemon.RootPa.Base64
import McDaemon.RootPa.Base64Buffers
import McDaemon.RootPa.CommandList
import McDaemon.RootPa.CommandAnswers
import McDaemon.RootPa.CommandOrder
import McDaemon.Device.TaExitLoop
import McDaemon.Client.GpIsolation
import McDaemon.Daemon.TrustletReceive
import McDaemon.Client.GpSession
import McDaemon.RootPa.StoreContainers
import McDaemon.RootPa.StoreTa
import McDaemon.Lib.Ledger
import McDaemon.RootPa.Provisioning
import McDaemon.RootPa.ProvisioningTokens
import McDaemon.RootPa.ProvisioningReuse
import McDaemon.Lib.FileSteps
import McDaemon.Daemon.FileStorage
import McDaemon.Daemon.FileStorageMap
import McDaemon.Daemon.FileStorageRefinement
import McDaemon.RootPa.LockTimer
import McDaemon.RootPa.LockTimeout
import McDaemon.RootPa.LockTimeoutCalls
import McDaemon.RootPa.LockTimeoutRuns
import McDaemon.Daemon.ClientThreads
import McDaemon.Daemon.HandOff
import McDaemon.Daemon.HandOffMoves
import McDaemon.Daemon.HandOffRuns
import McDaemon.Daemon.HandOffProgress
import McDaemon.Daemon.HandOffWork
import McDaemon.Device.FailedCalls
import McDaemon.Device.FailedMap
import McDaemon.Registry.BlobLayout
import McDaemon.Daemon.HeaderReads
import McDaemon.Registry.Objects
import McDaemon.Registry.DataContainers
import McDaemon.Registry.TaInstall
import McDaemon.Registry.TaPairing
import McDaemon.Registry.ObjectFrames
import McDaemon.Daemon.NetlinkCleanup
import McDaemon.Daemon.ReceivedSizes
import McDaemon.Proxy.ClientCalls
import McDaemon.Proxy.DeletedConnections
import McDaemon.Lib.KeyedList
import McDaemon.Proxy.SharedMemory
import McDaemon.Proxy.MemoryRuns
import McDaemon.Device.NotificationFifo
import McDaemon.Common.NetlinkConnection
import McDaemon.Device.OutgoingRing
import McDaemon.Device.ErrorCodes
import McDaemon.Client.GpBalance
import McDaemon.Client.GpPartial
import McDaemon.RootPa.CmpBuffer
import McDaemon.RootPa.Registrations
import McDaemon.RootPa.CmpLoop
import McDaemon.RootPa.CmpRelease
import McDaemon.RootPa.ResponseBounds
import McDaemon.RootPa.ContentManager
import McDaemon.RootPa.ProvisioningLinks
import McDaemon.RootPa.SeClient
import McDaemon.RootPa.SeClientHeaders
import McDaemon.RootPa.SeClientRetry
import McDaemon.Daemon.FileStorageDelete
import McDaemon.Daemon.FileStoragePaths
import McDaemon.RootPa.ProvisioningProgress
import McDaemon.RootPa.ContainerQueries
import McDaemon.Lib.Stream
import McDaemon.Lib.Varint
import McDaemon.Lib.WireFields
import McDaemon.Lib.WireFormat
import McDaemon.Registry.BufferedStores
import McDaemon.Client.BulkBuffers
import McDaemon.Client.DriverMap
import McDaemon.Client.WaitNotification
import McDaemon.Client.WsmTable
import McDaemon.Client.GpSessions
import McDaemon.Proxy.SplitWait
import McDaemon.Proxy.OwnedMemory
import McDaemon.Client.GpCancellation
import McDaemon.Proxy.Messages
import McDaemon.Proxy.RoundTrips
import McDaemon.Proxy.Rpc
import McDaemon.Proxy.RpcAgreement
import McDaemon.Lib.Progress
import McDaemon.Proxy.RpcProgress
import McDaemon.Proxy.RpcMessages
import McDaemon.Device.Scheduler
import McDaemon.Device.SchedulerRuns
import McDaemon.Lib.Spec
import McDaemon.Registry.ObjectMap
import McDaemon.Registry.ObjectRemovals
import McDaemon.Registry.ObjectRuns
import McDaemon.Registry.ObjectTrees
import McDaemon.Lib.Overlay
import McDaemon.RootPa.CmpMsg
import McDaemon.RootPa.CmpMsgBytes
