import AdaptivePlatform.E2E.WindowCells
import AdaptivePlatform.Crc.Agreement
import AdaptivePlatform.E2E.CounterCheck
import AdaptivePlatform.Phm.GlobalSupervision
import AdaptivePlatform.Idsm.RoundTrip
import AdaptivePlatform.Idsm.InnerLengths
import AdaptivePlatform.Idsm.Aggregation
import AdaptivePlatform.Idsm.MemoryBalance
import AdaptivePlatform.Diag.Guards
import AdaptivePlatform.Diag.Confirmation
import AdaptivePlatform.Diag.Aging
import AdaptivePlatform.Diag.Suppression
import AdaptivePlatform.Diag.AttemptDelay
import AdaptivePlatform.Diag.UnlockedLevel
import AdaptivePlatform.Diag.TransferAccess
import AdaptivePlatform.Diag.BlockRepeats
import AdaptivePlatform.Diag.ReadDataByIdentifier
import AdaptivePlatform.Diag.ParallelRequests
import AdaptivePlatform.Nsomeip.TpDelivery
import AdaptivePlatform.Nsomeip.StreamFrames
import AdaptivePlatform.Nsomeip.OptionPositions
import AdaptivePlatform.Nsomeip.RebootDetection
import AdaptivePlatform.Npc.PortDelivery
import AdaptivePlatform.Per.CommitAtomicity
import AdaptivePlatform.Npc.ZoneRecovery
import AdaptivePlatform.Npc.References
import AdaptivePlatform.Fw.DoipVerdict
import AdaptivePlatform.Fw.FilterChain
import AdaptivePlatform.Tsync.FollowupValidation
import AdaptivePlatform.Secoc.RoundTrip
import AdaptivePlatform.Nm.SharedChannel
import AdaptivePlatform.E2E.Profile01
import AdaptivePlatform.E2E.Coverage
import AdaptivePlatform.Diag.DynamicIdentifiers
import AdaptivePlatform.Diag.NegativeResponse
import AdaptivePlatform.Diag.StoredEntries
import AdaptivePlatform.Phm.SupervisionController
