import N2FNest.Audit.Recording
import N2FNest.Database.AppliedOnce
import N2FNest.Database.Honest
import N2FNest.Documents.Creation
import N2FNest.Env.Configuration
import N2FNest.Events.OneLoop
import N2FNest.Events.RetrySchedule
import N2FNest.Events.Reuse
import N2FNest.Health.Shutdown
import N2FNest.Http.Cookies
import N2FNest.Http.Grammar
import N2FNest.Identities.Challenges
import N2FNest.Identities.Disclosure
import N2FNest.Identities.SessionActivity
import N2FNest.Identities.SessionCap
import N2FNest.Jobs.Adapters
import N2FNest.Jobs.Linear
import N2FNest.Jobs.Storable
import N2FNest.Jobs.Submit
import N2FNest.Logger.Runtime
import N2FNest.Metrics.Scraped
import N2FNest.Organizations.InMemory
import N2FNest.Organizations.Invitations
import N2FNest.Organizations.Owners
import N2FNest.Pagination.Traversal
import N2FNest.Provenance.Asking
import N2FNest.Provenance.Lineage
import N2FNest.RateLimit.Limited
import N2FNest.Shared.V7
import N2FNest.Tenancy.Authorization
import N2FNest.Workflows.Settling
import N2FNest.Workflows.Waiting
import N2FNest.HttpClient.Wire
import N2FNest.Mail.Delivered
