import ThoriumFrugal.Lib.Text
import ThoriumFrugal.Lib.Whitespace
import ThoriumFrugal.Lib.Digits
import ThoriumFrugal.Lib.Labels
import ThoriumFrugal.Lib.UrlComponents
import ThoriumFrugal.Lib.Multimap
import ThoriumFrugal.Lib.Entries
import ThoriumFrugal.Lib.DropOldest
import ThoriumFrugal.Lib.Ledger
import ThoriumFrugal.Lib.Run
import ThoriumFrugal.Lib.PrefixCode
import ThoriumFrugal.Lib.Frames
import ThoriumFrugal.Lib.Faulty
import ThoriumFrugal.Privacy.Types
import ThoriumFrugal.Privacy.RuleParser
import ThoriumFrugal.Privacy.RuleDatabase
import ThoriumFrugal.Privacy.RuleDatabaseTheorems
import ThoriumFrugal.Privacy.ThirdPartyClassifier
import ThoriumFrugal.Privacy.TrackerBlocker
import ThoriumFrugal.Privacy.TrackerBlockerTheorems
import ThoriumFrugal.Privacy.InterleavingTheorems
import ThoriumFrugal.Privacy.TrackingParameterFilter
import ThoriumFrugal.Privacy.PrivacyPolicyManager
import ThoriumFrugal.Privacy.PrivacyPolicyManagerTheorems
import ThoriumFrugal.Privacy.EventIdTheorems
import ThoriumFrugal.Privacy.StrippedQueryTheorems
import ThoriumFrugal.Privacy.TelemetryUrl
import ThoriumFrugal.Privacy.TelemetryTheorems
import ThoriumFrugal.Privacy.TelemetrySecretTheorems
import ThoriumFrugal.Privacy.Throttle
import ThoriumFrugal.Privacy.StrippingTheorems
import ThoriumFrugal.Privacy.StepwiseRules
import ThoriumFrugal.Privacy.RuleIndexTheorems
import ThoriumFrugal.Privacy.StepwiseUrls
import ThoriumFrugal.Privacy.HostTheorems
import ThoriumFrugal.Privacy.SiteTheorems
import ThoriumFrugal.Privacy.SiteNameTheorems
import ThoriumFrugal.Privacy.AddressTheorems
import ThoriumFrugal.Privacy.RuleSyntaxTheorems
import ThoriumFrugal.Privacy.RuleTextTheorems
import ThoriumFrugal.Privacy.RuleScopeTheorems
import ThoriumFrugal.Privacy.TestMatrix
import ThoriumFrugal.Privacy.TestMatrixTheorems
import ThoriumFrugal.Privacy.TestMatrixStripTheorems
import ThoriumFrugal.Privacy.PrivacyEventDispatcher
import ThoriumFrugal.Privacy.PrivacyEngine
import ThoriumFrugal.Privacy.PrivacyEngineTheorems
import ThoriumFrugal.Privacy.AuditTrailTheorems
import ThoriumFrugal.Cognitia.UrlSanitizer
import ThoriumFrugal.Cognitia.BrowserObservation
import ThoriumFrugal.Cognitia.ExposureTheorems
import ThoriumFrugal.Cognitia.BoundedEventQueue
import ThoriumFrugal.Cognitia.NamedPipeTransportWin
import ThoriumFrugal.Cognitia.TransportTheorems
import ThoriumFrugal.Cognitia.QueueHistoryTheorems
import ThoriumFrugal.Cognitia.JsonWriter
import ThoriumFrugal.Cognitia.ContentEnvelope
import ThoriumFrugal.Cognitia.ContentRetentionTheorems
import ThoriumFrugal.Cognitia.ContentExtractor
import ThoriumFrugal.Cognitia.ObservationPipeline
import ThoriumFrugal.Cognitia.PipelineTheorems
import ThoriumFrugal.Cognitia.IngestTheorems
import ThoriumFrugal.Protocol.Uuid
import ThoriumFrugal.Protocol.IsoFormat
import ThoriumFrugal.Protocol.Json
import ThoriumFrugal.Protocol.JsonAscii
import ThoriumFrugal.Protocol.Types
import ThoriumFrugal.Protocol.ProtocolValidator
import ThoriumFrugal.Protocol.ProtocolValidatorTheorems
import ThoriumFrugal.Protocol.ReconnectTheorems
import ThoriumFrugal.Protocol.SessionHistoryTheorems
import ThoriumFrugal.Protocol.AtomicityTheorems
import ThoriumFrugal.Protocol.IdentityTheorems
import ThoriumFrugal.Protocol.SecurityValidator
import ThoriumFrugal.Protocol.NetlocTheorems
import ThoriumFrugal.Protocol.LeakageTheorems
import ThoriumFrugal.Protocol.Lifecycle
import ThoriumFrugal.Protocol.LifecycleTheorems
import ThoriumFrugal.Protocol.IncognitoTheorems
import ThoriumFrugal.Protocol.StrictnessTheorems
import ThoriumFrugal.Protocol.MockCognitiaDaemon
import ThoriumFrugal.Protocol.MockCognitiaDaemonTheorems
import ThoriumFrugal.Protocol.DaemonRuns
import ThoriumFrugal.Protocol.AuditLogTheorems
import ThoriumFrugal.Protocol.DaemonSessionTheorems
import ThoriumFrugal.Protocol.GovernanceTheorems
import ThoriumFrugal.Protocol.AuthorityTheorems
import ThoriumFrugal.Protocol.ReplayHarness
import ThoriumFrugal.Protocol.ReplayTheorems
import ThoriumFrugal.Protocol.JsonLoads
import ThoriumFrugal.Protocol.JsonRoundTrip
import ThoriumFrugal.Protocol.JsonSoundness
import ThoriumFrugal.Protocol.TraceFile
import ThoriumFrugal.Protocol.TraceReplayTheorems
import ThoriumFrugal.Protocol.MockThoriumAdapter
import ThoriumFrugal.Protocol.MockThoriumAdapterTheorems
import ThoriumFrugal.Protocol.QueueAgreementTheorems
import ThoriumFrugal.Protocol.AdapterRuns
import ThoriumFrugal.Protocol.KillSwitchTheorems
import ThoriumFrugal.Protocol.SessionLanguageTheorems
import ThoriumFrugal.Protocol.AdmissionTheorems
import ThoriumFrugal.Protocol.RedactionTheorems
