import Ren2Hub.Middleware.GroupLimits
import Ren2Hub.Proofs.AffiliateRuns
import Ren2Hub.Proofs.BatchDrops
import Ren2Hub.Proofs.BatchRuns
import Ren2Hub.Proofs.BucketRuns
import Ren2Hub.Proofs.CatalogRuns
import Ren2Hub.Proofs.DispatcherRuns
import Ren2Hub.Proofs.FetchRuns
import Ren2Hub.Proofs.FlowRuns
import Ren2Hub.Proofs.GeminiConversation
import Ren2Hub.Proofs.GroupRuns
import Ren2Hub.Proofs.HealthRuns
import Ren2Hub.Proofs.KeyPolling
import Ren2Hub.Proofs.KeyRuns
import Ren2Hub.Proofs.LeaseRuns
import Ren2Hub.Proofs.LoginRefresh
import Ren2Hub.Proofs.LoginRevoked
import Ren2Hub.Proofs.LoginVersion
import Ren2Hub.Proofs.ModelLimitRuns
import Ren2Hub.Proofs.PathTemplates
import Ren2Hub.Proofs.QualifyRuns
import Ren2Hub.Proofs.QuotaCacheRuns
import Ren2Hub.Proofs.RefreshRuns
import Ren2Hub.Proofs.RefundFlags
import Ren2Hub.Proofs.RelayRuns
import Ren2Hub.Proofs.ResetLoop
import Ren2Hub.Proofs.ResponsesConversation
import Ren2Hub.Proofs.SessionRefund
import Ren2Hub.Proofs.StreamScan
import Ren2Hub.Proofs.SubscriptionCrash
import Ren2Hub.Proofs.SystemTaskRuns
import Ren2Hub.Proofs.TieredSpec
import Ren2Hub.Proofs.TokenCacheRuns
import Ren2Hub.Proofs.TokenEditRuns
import Ren2Hub.Proofs.TokenFrame
import Ren2Hub.Proofs.TwoFARuns
import Ren2Hub.Proofs.UsedVarsRuns
import Ren2Hub.Proofs.WalletAccounting
import Ren2Hub.Proofs.WalletRuns
import Ren2Hub.Convert.GeminiSchema
import Ren2Hub.Routing.Mapping
import Ren2Hub.Routing.Weighted
import Ren2Hub.Service.Codex
import Ren2Hub.Proofs.PollingCalls
import Ren2Hub.Proofs.PollingRuns
