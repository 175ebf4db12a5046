import CallLifecycle.Proofs.Channel.Waking
import CallLifecycle.Proofs.Client.Abandonment
import CallLifecycle.Proofs.Client.Delivery
import CallLifecycle.Proofs.Client.Release
import CallLifecycle.Proofs.Client.Signals
import CallLifecycle.Proofs.Client.Success
import CallLifecycle.Proofs.Failure.Telling
import CallLifecycle.Proofs.Interceptor.Nesting
import CallLifecycle.Proofs.Link.Fidelity
import CallLifecycle.Proofs.Link.Timeliness
import CallLifecycle.Proofs.Metadata.Merging
import CallLifecycle.Proofs.Server.Adapter
import CallLifecycle.Proofs.Server.Backpressure
import CallLifecycle.Proofs.Server.Decisions
import CallLifecycle.Proofs.Server.Recital
import CallLifecycle.Proofs.Server.Settings
import CallLifecycle.Proofs.Server.SingleRequest
import CallLifecycle.Proofs.Server.Starting
import CallLifecycle.Proofs.Timeout.Rounding
import CallLifecycle.Proofs.Writer.Fate
import CallLifecycle.Proofs.Writer.Pacing
import CallLifecycle.Scenario.ChannelTrial
import CallLifecycle.Scenario.Inspection
import CallLifecycle.Scenario.MetadataTrial
import CallLifecycle.Scenario.Playing
import CallLifecycle.Scenario.ProgressTrial
import CallLifecycle.Scenario.WriterTrial
