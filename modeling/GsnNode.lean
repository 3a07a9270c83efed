import GsnNode.ByteWords
import GsnNode.MemoryRegion
import GsnNode.FuelLoop
import GsnNode.PointerScan
import GsnNode.DelimitedText
import GsnNode.SelfDelimiting
import GsnNode.DecimalText
import GsnNode.CallResult
import GsnNode.NetspaceUrl
import GsnNode.UrlDecoding
import GsnNode.UrlSections
import GsnNode.UrlCopies
import GsnNode.AddressText
import GsnNode.NetspaceNode
import GsnNode.EntryParsing
import GsnNode.NodeListing
import GsnNode.DvspPacket
import GsnNode.PacketWire
import GsnNode.BufferHeap
import GsnNode.BufferOwnership
import GsnNode.PacketViews
import GsnNode.MetaspaceGsn
import GsnNode.PlaceLookup
import GsnNode.ProtocolFrames
import GsnNode.ProtocolHandler
import GsnNode.KeyedList
import GsnNode.StepRuns
import GsnNode.RegistryRuns
import GsnNode.AcceptedNodes
import GsnNode.NodeKinds
import GsnNode.AddressOwners
import GsnNode.AddressQueues
import GsnNode.ResolutionChain
import GsnNode.ReachableTables
import GsnNode.KeptRegistration
import GsnNode.ListingEntries
import GsnNode.UnknownPlace
import GsnNode.LineText
import GsnNode.HttpFraming
import GsnNode.JoinedAnswers
import GsnNode.AggregatedAnswer
import GsnNode.ForgeClient
import GsnNode.RegistrationText
import GsnNode.HostReplies
import GsnNode.CString
import GsnNode.ServiceReplies
import GsnNode.HttpBody
import GsnNode.HexBodies
import GsnNode.PacketAnswers
import GsnNode.NextHost
import GsnNode.DatagramReceive
import GsnNode.HashText
import GsnNode.HttpSession
import GsnNode.HttpGateway
import GsnNode.NodeRelay
import GsnNode.RootNode
import GsnNode.NodeAvailability
import GsnNode.ForgeView
import GsnNode.ForgeExchange
import GsnNode.ForgeCommands
import GsnNode.ForgeDirectory
import GsnNode.ActivityRecord
import GsnNode.RecordMeaning
import GsnNode.LinkedChain
import GsnNode.LogTransaction
import GsnNode.LogFormat
import GsnNode.ActivityForms
import GsnNode.LogSync
import GsnNode.HashChain
import GsnNode.HashCommitment
import GsnNode.ChainTip
import GsnNode.GeneratedLogs
import GsnNode.LogReplicas
import GsnNode.SegmentRollback
import GsnNode.TransactionOwnership
import GsnNode.LogVerification
import GsnNode.ConcurrentLogs
import GsnNode.SeparateClients
