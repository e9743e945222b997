import AsmProto.AuditLog
import AsmProto.BatchImages
import AsmProto.ClientFraming
import AsmProto.Deployment
import AsmProto.EventCollection
import AsmProto.EventSummary
import AsmProto.EventWindows
import AsmProto.InitiatorInput
import AsmProto.InitiatorReplies
import AsmProto.KeySecrecy
import AsmProto.LeKey.BatchOrder
import AsmProto.LeKey.LineNumbers
import AsmProto.LeKey.Overflow
import AsmProto.LoadedKeys
import AsmProto.Recovery
import AsmProto.Retries
import AsmProto.ServerFraming
import AsmProto.SocketOwnership
import AsmProto.KeyHistory
