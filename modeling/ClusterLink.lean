import ClusterLink.Dict
import ClusterLink.Text.Outline
import ClusterLink.Text.Utf8
import ClusterLink.Json.Reader
import ClusterLink.Json.Writer
import ClusterLink.Time.Duration
import ClusterLink.Time.Instant
import ClusterLink.Uid
import ClusterLink.Resource.Association
import ClusterLink.Resource.Elasticsearch
import ClusterLink.Resource.Kibana
import ClusterLink.Resource.Secret
import ClusterLink.Store.Basic
import ClusterLink.Watch.Registry
import ClusterLink.Reconcile.Basic
import ClusterLink.Queue.Wakeup
import ClusterLink.Controller.Dispatch
import ClusterLink.Simulation.Schedule
import ClusterLink.Simulation.Actions
import ClusterLink.Settings.Load
import ClusterLink.Number.Shortest
import ClusterLink.Number.Reading
import ClusterLink.Proofs.Reconcile.Stage
import ClusterLink.Proofs.Store.Client
import ClusterLink.Proofs.Reconcile.Step
import ClusterLink.Proofs.Store.Edit
import ClusterLink.Proofs.Cluster.Traffic
import ClusterLink.Proofs.Store.Reachable
import ClusterLink.Proofs.Watch.Lifetime
import ClusterLink.Proofs.Cluster.Ownership
import ClusterLink.Proofs.Cluster.Content
import ClusterLink.Proofs.Reconcile.Recovery
import ClusterLink.Proofs.Reconcile.Again
import ClusterLink.Proofs.Cluster.Place
import ClusterLink.Proofs.Reconcile.Footprint
import ClusterLink.Proofs.Cluster.Serial
import ClusterLink.Proofs.Queue.Sound
import ClusterLink.Proofs.Queue.Custody
import ClusterLink.Proofs.Reconcile.Current
import ClusterLink.Proofs.Controller.Phase
import ClusterLink.Proofs.Controller.Course
import ClusterLink.Proofs.Simulation.Run
import ClusterLink.Proofs.Controller.Attention
import ClusterLink.Proofs.Controller.Vigil
import ClusterLink.Proofs.Controller.Answer
import ClusterLink.Proofs.Controller.Coverage
import ClusterLink.Proofs.Watch.Mirror
import ClusterLink.Proofs.Queue.Delivery
import ClusterLink.Proofs.Store.History
import ClusterLink.Proofs.Store.Effect
import ClusterLink.Proofs.Store.Version
import ClusterLink.Proofs.Store.Lifecycle
import ClusterLink.Proofs.Store.Account
import ClusterLink.Proofs.Cluster.StoredStatus
import ClusterLink.Proofs.Reconcile.Written
import ClusterLink.Proofs.Cluster.Standstill
import ClusterLink.Proofs.Controller.Warrant
import ClusterLink.Proofs.Simulation.History
import ClusterLink.Proofs.Simulation.Backing
import ClusterLink.Proofs.Controller.Retry
import ClusterLink.Proofs.Controller.Resync
import ClusterLink.Proofs.Resource.Form
import ClusterLink.Proofs.Reconcile.FirstFailure
import ClusterLink.Proofs.Reconcile.Effective
import ClusterLink.Proofs.Controller.Handling
import ClusterLink.Proofs.Queue.Turns
import ClusterLink.Proofs.Reconcile.TwoPhases
import ClusterLink.Proofs.Simulation.Waking
import ClusterLink.Proofs.Simulation.Streak
import ClusterLink.Proofs.Queue.Delay
import ClusterLink.Proofs.Watch.LastWord
import ClusterLink.Proofs.Reconcile.Target
import ClusterLink.Proofs.Cluster.Redacted
import ClusterLink.Proofs.Reconcile.Discreet
import ClusterLink.Proofs.Text.KeyText
import ClusterLink.Proofs.Text.Decoding
import ClusterLink.Proofs.Store.Seeding
import ClusterLink.Proofs.Reconcile.Seeded
import ClusterLink.Proofs.Settings.Overlay
import ClusterLink.Proofs.Settings.Fields
import ClusterLink.Proofs.Settings.Layers
import ClusterLink.Proofs.Text.Outline
import ClusterLink.Proofs.Resource.Disclosed
