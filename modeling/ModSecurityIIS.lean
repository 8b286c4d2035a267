import ModSecurityIIS.BodyBound
import ModSecurityIIS.BodyFraming
import ModSecurityIIS.BodyLength
import ModSecurityIIS.BodyReadMode
import ModSecurityIIS.CappedPrefix
import ModSecurityIIS.ClaimProtocolProperties
import ModSecurityIIS.ConfigLookup
import ModSecurityIIS.ConfigPath
import ModSecurityIIS.ContentLength
import ModSecurityIIS.CrashFreedom
import ModSecurityIIS.EvaluateOnce
import ModSecurityIIS.FailOpen
import ModSecurityIIS.FilePosition
import ModSecurityIIS.HeadersOnce
import ModSecurityIIS.InspectOnly
import ModSecurityIIS.InterventionStatus
import ModSecurityIIS.LateCompletions
import ModSecurityIIS.LogThrottle
import ModSecurityIIS.ModuleLife
import ModSecurityIIS.PeerAddress
import ModSecurityIIS.PendingReads
import ModSecurityIIS.PhaseOrder
import ModSecurityIIS.PinnedLength
import ModSecurityIIS.Process
import ModSecurityIIS.PropertyResources
import ModSecurityIIS.RefusedRequest
import ModSecurityIIS.RequestBody
import ModSecurityIIS.RequestDescription
import ModSecurityIIS.ResponseCommit
import ModSecurityIIS.ResponseOrder
import ModSecurityIIS.RulesFreshness
import ModSecurityIIS.RulesPaths
import ModSecurityIIS.TransactionOwnership
import ModSecurityIIS.TransactionUse
import ModSecurityIIS.Text.Utf16
