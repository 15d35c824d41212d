import AiStorage.IoProfile.Checksum
import AiStorage.IoProfile.CsvRoundTrip
import AiStorage.IoProfile.ProfileImport
import AiStorage.IoProfile.VectoredReads
import AiStorage.KV.Authentic
import AiStorage.KV.BodyReader
import AiStorage.KV.CostLaws
import AiStorage.KV.EvictionController
import AiStorage.KV.FullStores
import AiStorage.KV.Prefetch
import AiStorage.KV.Promotion
import AiStorage.Router.AdminPaths
import AiStorage.Router.BoundedLoad
import AiStorage.Router.Decisions
import AiStorage.Router.EgressOrder
import AiStorage.Router.EventBus
import AiStorage.Router.HealthReports
import AiStorage.Router.RevisionCounter
import AiStorage.Router.RoundRobinRuns
import AiStorage.Router.TenantFairness
import AiStorage.Router.TenantState
import AiStorage.Shared.BlockHashes
