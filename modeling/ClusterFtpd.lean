import ClusterFtpd.Lib.Interaction
import ClusterFtpd.Lib.MachineInt
import ClusterFtpd.Lib.PathComponents
import ClusterFtpd.Redis
import ClusterFtpd.Vfs
import ClusterFtpd.SimplifyPath
import ClusterFtpd.BuildPath
import ClusterFtpd.Lib.CString
import ClusterFtpd.Lib.Lines
import ClusterFtpd.SimplifyInPlace
import ClusterFtpd.Lib.NameGraph
import ClusterFtpd.VfsLookup
import ClusterFtpd.VfsSpec
import ClusterFtpd.VfsCommands
import ClusterFtpd.VfsResolution
import ClusterFtpd.VfsTree
import ClusterFtpd.VfsRuns
import ClusterFtpd.VfsFrame
import ClusterFtpd.VfsRename
import ClusterFtpd.VfsRecords
import ClusterFtpd.Lib.Serial
import ClusterFtpd.Lib.Contracts
import ClusterFtpd.Footprints
import ClusterFtpd.Concurrency
import ClusterFtpd.Lib.LinkedList
import ClusterFtpd.ClientList
import ClusterFtpd.CommandLine
import ClusterFtpd.CommandWords
import ClusterFtpd.Decimal
import ClusterFtpd.ReceiveLine
import ClusterFtpd.Client
import ClusterFtpd.Shell
import ClusterFtpd.PassiveReply
import ClusterFtpd.Login
import ClusterFtpd.Sessions
import ClusterFtpd.Jail
import ClusterFtpd.AskedPath
import ClusterFtpd.Accounts
import ClusterFtpd.Slave
import ClusterFtpd.SharedStat
import ClusterFtpd.SlaveStore
import ClusterFtpd.SlaveRetrieve
import ClusterFtpd.PretScan
import ClusterFtpd.ListLine
import ClusterFtpd.Lib.Blocks
import ClusterFtpd.Listing
import ClusterFtpd.ListingBounds
import ClusterFtpd.ListingLines
import ClusterFtpd.ListBlocks
import ClusterFtpd.Transfer
import ClusterFtpd.Effects
import ClusterFtpd.Rename
import ClusterFtpd.Calls
import ClusterFtpd.Retrieve
import ClusterFtpd.LiveSession
import ClusterFtpd.Transactions
import ClusterFtpd.Pret
import ClusterFtpd.SlaveServices
import ClusterFtpd.Lib.Search
import ClusterFtpd.DataPorts
import ClusterFtpd.ActiveConnections
import ClusterFtpd.Uploads
import ClusterFtpd.Privileges
import ClusterFtpd.Handover
import ClusterFtpd.Ownership
import ClusterFtpd.Connection
import ClusterFtpd.Offsets
import ClusterFtpd.Lib.Relational
import ClusterFtpd.Leftovers
import ClusterFtpd.CleanLogin
import ClusterFtpd.DrawnFids
import ClusterFtpd.UploadRuns
import ClusterFtpd.StoredFiles
import ClusterFtpd.Lib.FieldCodec
import ClusterFtpd.Lib.BinaryProtocol
import ClusterFtpd.SlaveServicesTypes
import ClusterFtpd.SlaveServicesRpc
import ClusterFtpd.Lib.Values
import ClusterFtpd.SlaveWire
import ClusterFtpd.SlaveSockets
import ClusterFtpd.Lib.Outputs
import ClusterFtpd.Replies
import ClusterFtpd.SessionReplies
import ClusterFtpd.Listening
import ClusterFtpd.UserObjects
import ClusterFtpd.Lib.Provenance
import ClusterFtpd.TransactionIds
import ClusterFtpd.Cluster
import ClusterFtpd.SlaveEntries
import ClusterFtpd.HeldConnections
import ClusterFtpd.Orphans
import ClusterFtpd.Downloads
import ClusterFtpd.TransferReplies
import ClusterFtpd.FinalReply
