import Swarmada.Audit.Faults
import Swarmada.Command.FenceOrder
import Swarmada.Controller.Generations
import Swarmada.Controller.ReportRuns
import Swarmada.Controller.SingleExecutor
import Swarmada.Controlstream.LiveStream
import Swarmada.Controlstream.Presence
import Swarmada.Delivery.NewStream
import Swarmada.Estopscope.FanOut
import Swarmada.Estopscope.HoldRecord
import Swarmada.Executorguard.Soundness
import Swarmada.Flow.ForeignCancel
import Swarmada.Flow.Starts
import Swarmada.Leadership.Terms
import Swarmada.MaintenanceController.Custody
import Swarmada.MaintenanceController.Exact
import Swarmada.ModelRollout.LeftAlone
import Swarmada.ModelRollout.Unavailable
import Swarmada.Rekor.SignedRoot
import Swarmada.Rekor.Termination
import Swarmada.Safety.FenceHeld
import Swarmada.Safety.NewestOutcome
import Swarmada.Safety.ReleaseOrder
import Swarmada.Saga.Forward
import Swarmada.Saga.Order
import Swarmada.Saga.Progress
import Swarmada.Scheduling.Preemption
import Swarmada.Scheduling.Slots
import Swarmada.TaskController.Nested
import Swarmada.TaskController.Retention
import Swarmada.Tde.Capacity
import Swarmada.Tde.Victim
import Swarmada.Telemetry.Delivered
import Swarmada.Webhook.ZoneForest
import Swarmada.ZoneController.Placement
import Swarmada.ZoneController.Published
import Swarmada.ZoneController.Strictness
