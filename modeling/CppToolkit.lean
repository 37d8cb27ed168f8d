import CppToolkit.Library.Words
import CppToolkit.Library.Memory
import CppToolkit.Library.Machine
import CppToolkit.Library.Bag
import CppToolkit.Library.Visits
import CppToolkit.Library.Futures
import CppToolkit.Library.LexicalPath
import CppToolkit.Library.Hunt
import CppToolkit.Library.RemoveIf
import CppToolkit.Library.Fstream
import CppToolkit.Library.PriorityFifo
import CppToolkit.Library.Relay
import CppToolkit.Library.Codes
import CppToolkit.Library.Unicode
import CppToolkit.Library.Regex
import CppToolkit.Library.Json
import CppToolkit.Utilities.TextConversions
import CppToolkit.Utilities.ArgumentParser
import CppToolkit.Utilities.NumericOptions
import CppToolkit.Utilities.ArrayOptions
import CppToolkit.Utilities.FileSearch
import CppToolkit.Utilities.JsonTool
import CppToolkit.Utilities.LogEntries
import CppToolkit.Utilities.LogQueue
import CppToolkit.Utilities.LogRefinement
import CppToolkit.Utilities.Combiner
import CppToolkit.Utilities.CombinerBounds
import CppToolkit.Utilities.CombinerCalls
import CppToolkit.Utilities.Converter
import CppToolkit.Thread.JobPriorities
import CppToolkit.Thread.JobQueues
import CppToolkit.Thread.Shutdown
import CppToolkit.Thread.WakeUp
import CppToolkit.Thread.Lifecycle
import CppToolkit.Thread.StartStop
import CppToolkit.Thread.Restart
import CppToolkit.Thread.WorkerRemoval
import CppToolkit.Thread.Drain
import CppToolkit.Thread.UncompletedJobs
import CppToolkit.Thread.Backups
import CppToolkit.Thread.JobPayload
import CppToolkit.Network.DataHandler
import CppToolkit.Network.FilePacket
import CppToolkit.Network.SendingJob
import CppToolkit.Network.Reader
import CppToolkit.Network.Framing
import CppToolkit.Network.ShortWrites
import CppToolkit.Network.SocketSends
import CppToolkit.Network.SendOrder
import CppToolkit.Network.Recovery
import CppToolkit.Network.StartCodes
import CppToolkit.Network.BufferSizes
import CppToolkit.Network.Pipeline
import CppToolkit.Network.PipelineRoundTrip
import CppToolkit.Network.Messages
import CppToolkit.Network.KeyExchange
import CppToolkit.Network.EncryptedTraffic
import CppToolkit.Network.FileManager
import CppToolkit.Network.FileCompletion
import CppToolkit.Network.FileTransferOnce
import CppToolkit.Network.World
import CppToolkit.Network.Peer
import CppToolkit.Network.NetworkSession
import CppToolkit.Network.NetworkClient
import CppToolkit.Network.FileSafety
import CppToolkit.Network.Authentication
import CppToolkit.Network.ConnectionPayloads
import CppToolkit.Network.Handshake
import CppToolkit.Network.Acceptance
import CppToolkit.Network.SessionNotices
import CppToolkit.Network.Registry
import CppToolkit.Network.RegistryUpkeep
import CppToolkit.Network.RejectionNotice
import CppToolkit.Network.LostConnection
import CppToolkit.Network.NetworkServer
import CppToolkit.Network.Broadcast
import CppToolkit.Network.StopSignal
import CppToolkit.Network.ServerShutdown
import CppToolkit.Utilities.Compressor
import CppToolkit.Utilities.CompressorSafety
import CppToolkit.Utilities.CompressorRoundTrip
import CppToolkit.Utilities.CompressorBuffers
import CppToolkit.Utilities.CompressorCompleteness
import CppToolkit.Utilities.File
import CppToolkit.Utilities.FileCalls
import CppToolkit.Utilities.FileWrites
import CppToolkit.Utilities.FileReads
import CppToolkit.Utilities.LineFiles
import CppToolkit.Utilities.Folder
import CppToolkit.Utilities.FolderArchive
import CppToolkit.Utilities.FolderPaths
import CppToolkit.Utilities.Encryptor
import CppToolkit.Utilities.Logger
import CppToolkit.Utilities.LogLines
import CppToolkit.Utilities.LogRetention
import CppToolkit.Database.PostgresArray
import CppToolkit.Database.PostgresDB
import CppToolkit.Library.Loops
import CppToolkit.Library.Occurrences
import CppToolkit.Utilities.Tokens
import CppToolkit.Library.Scanner
import CppToolkit.Network.ReaderScan
import CppToolkit.Network.Shipments
import CppToolkit.Network.Deliveries
import CppToolkit.Network.FileContents
import CppToolkit.Network.ByteLink
import CppToolkit.Network.Audience
import CppToolkit.Network.Greeting
import CppToolkit.Network.Conversation
import CppToolkit.Network.ConversationPhases
import CppToolkit.Utilities.FileFrames
import CppToolkit.Utilities.LogFlush
import CppToolkit.Utilities.LogOutputs
import CppToolkit.Library.RelativePath
import CppToolkit.Utilities.FolderTree
import CppToolkit.Thread.Pause
import CppToolkit.Thread.CrashRecovery
import CppToolkit.Thread.JobOrder
import CppToolkit.Utilities.FileCompression
