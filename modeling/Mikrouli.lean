import Mikrouli.Properties.Admission
import Mikrouli.Properties.Agreement
import Mikrouli.Properties.Allowance
import Mikrouli.Properties.ApiKeys
import Mikrouli.Properties.Backlog
import Mikrouli.Properties.Bearer
import Mikrouli.Properties.Cleanup
import Mikrouli.Properties.Clicks
import Mikrouli.Properties.ClusterNetwork
import Mikrouli.Properties.Conservation
import Mikrouli.Properties.Corrections
import Mikrouli.Properties.Creation
import Mikrouli.Properties.Destinations
import Mikrouli.Properties.FailClosed
import Mikrouli.Properties.GuestOwner
import Mikrouli.Properties.KeyAllowance
import Mikrouli.Properties.Lineage
import Mikrouli.Properties.LinkCache
import Mikrouli.Properties.Linking
import Mikrouli.Properties.LiteralHosts
import Mikrouli.Properties.Logout
import Mikrouli.Properties.Mediation
import Mikrouli.Properties.Migrations
import Mikrouli.Properties.OauthState
import Mikrouli.Properties.Outage
import Mikrouli.Properties.Passwords
import Mikrouli.Properties.Patch
import Mikrouli.Properties.Problems
import Mikrouli.Properties.Progress
import Mikrouli.Properties.Quiescence
import Mikrouli.Properties.ReadYourWrites
import Mikrouli.Properties.Refresh
import Mikrouli.Properties.Registration
import Mikrouli.Properties.Removal
import Mikrouli.Properties.Replication
import Mikrouli.Properties.Resolution
import Mikrouli.Properties.Rotation
import Mikrouli.Properties.RoundTrip
import Mikrouli.Properties.Routing
import Mikrouli.Properties.SameOrigin
import Mikrouli.Properties.Sampling
import Mikrouli.Properties.Sanitising
import Mikrouli.Properties.Seeding
import Mikrouli.Properties.Sizing
import Mikrouli.Properties.SlugParameter
import Mikrouli.Properties.Staleness
import Mikrouli.Properties.Submissions
import Mikrouli.Properties.Summary
import Mikrouli.Properties.Throttling
import Mikrouli.Properties.Tracing
import Mikrouli.Properties.WebSession
