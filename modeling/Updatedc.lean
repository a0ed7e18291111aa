import Updatedc.Rollout.Staging
import Updatedc.Rollout.Response
import Updatedc.Rollout.Gates
import Updatedc.Runtime.Publication
import Updatedc.Runtime.Vetoes
import Updatedc.Runtime.Forward
import Updatedc.Runtime.Footprint
import Updatedc.Runtime.RoundTrip
import Updatedc.Agent.Pruning
import Updatedc.Agent.Histories
import Updatedc.Agent.Ledger
import Updatedc.Agent.Install
import Updatedc.Agent.Retries
import Updatedc.Agent.Selection
import Updatedc.Runtime.Decisions
import Updatedc.Runtime.Outputs
import Updatedc.Tuf.Releases
import Updatedc.Tuf.RootWrites
import Updatedc.Contracts.FleetShards
import Updatedc.HealthProxy.Balancer
import Updatedc.HealthProxy.NameWalk
import Updatedc.Schedules
import Updatedc.Dependencies
import Updatedc.Domain.Wiring
import Updatedc.Bundle.Isolation
import Updatedc.Runtime.Lease
