/-
# Clients of a cluster, and a fake one

How resources are named and objects selected, what typed calls ask for and how their answers
are read, how a watch passes events on, an object tracker with fake clients over it, and a
cache that follows a collection.

Left out are logs, sockets and real time: what a server answers is given, and a clock is a
number. So are locks, as a call of the tracker or the cache is one step, and what pods and
deployments carry beside their metadata, as nothing here looks at it. The version text of a
resource is the one that its group and version make, and a scheme tells types by their bare
names.
-/
import ClusterKit.Api.Bound
import ClusterKit.Api.Resource
import ClusterKit.Cache.Lister
import ClusterKit.Cache.Ref
import ClusterKit.Cache.Store
import ClusterKit.Call.Authority
import ClusterKit.Call.Error
import ClusterKit.Call.Form
import ClusterKit.Call.Params
import ClusterKit.Call.Request
import ClusterKit.Call.Uri
import ClusterKit.Catalog.BuiltIn
import ClusterKit.Catalog.Custom
import ClusterKit.Catalog.Index
import ClusterKit.Client.Api
import ClusterKit.Client.Body
import ClusterKit.Client.Calls
import ClusterKit.Client.Events
import ClusterKit.Client.Session
import ClusterKit.Client.Status
import ClusterKit.Fake.Action
import ClusterKit.Fake.Api
import ClusterKit.Fake.Clientset
import ClusterKit.Fake.Reactor
import ClusterKit.Informer.Basic
import ClusterKit.Informer.Cluster
import ClusterKit.Informer.Loop
import ClusterKit.Informer.Script
import ClusterKit.Json.Decimal
import ClusterKit.Json.Draft
import ClusterKit.Json.Member
import ClusterKit.Json.Print
import ClusterKit.Json.Read
import ClusterKit.Json.Token
import ClusterKit.Json.Value
import ClusterKit.Naming.Plural
import ClusterKit.Naming.Resource
import ClusterKit.Naming.Version
import ClusterKit.Object.Erased
import ClusterKit.Object.Kind
import ClusterKit.Object.List
import ClusterKit.Object.Meta
import ClusterKit.Report.Call
import ClusterKit.Report.Error
import ClusterKit.Report.Name
import ClusterKit.Report.Object
import ClusterKit.Selector.Basic
import ClusterKit.Selector.Parse
import ClusterKit.Status
import ClusterKit.Table
import ClusterKit.Text.Base64
import ClusterKit.Text.Blank
import ClusterKit.Text.Hidden
import ClusterKit.Text.Lines
import ClusterKit.Text.Quoted
import ClusterKit.Text.Span
import ClusterKit.Text.Utf8
import ClusterKit.Tracker.Basic
import ClusterKit.Tracker.Write
import ClusterKit.Watch.Bridge
import ClusterKit.Watch.Change
import ClusterKit.Watch.Event
import ClusterKit.Watch.Held
import ClusterKit.Watch.Live
import ClusterKit.Watch.Termination
import ClusterKit.Wire.Erased
import ClusterKit.Wire.Event
import ClusterKit.Wire.Meta
import ClusterKit.Wire.Status
import ClusterKit.Proofs.Tracker.Call
import ClusterKit.Proofs.Tracker.History
import ClusterKit.Proofs.Cache.Replay
import ClusterKit.Proofs.Cache.LastWord
import ClusterKit.Proofs.Tracker.Fanout
import ClusterKit.Proofs.Tracker.Follow
import ClusterKit.Proofs.Json.Draft
import ClusterKit.Proofs.Wire.Erased
import ClusterKit.Proofs.Kind.Faithful
import ClusterKit.Proofs.Fake.Cluster
import ClusterKit.Proofs.Fake.Typed
import ClusterKit.Proofs.Informer.Schedule
import ClusterKit.Proofs.Fake.Selected
import ClusterKit.Proofs.Watch.Following
import ClusterKit.Proofs.Informer.Convergence
import ClusterKit.Proofs.Watch.Lasting
import ClusterKit.Proofs.Informer.Selected
import ClusterKit.Proofs.Watch.Move
import ClusterKit.Proofs.Tracker.Count
import ClusterKit.Proofs.Watch.Cause
import ClusterKit.Proofs.Watch.Delivery
import ClusterKit.Proofs.Client.Session
import ClusterKit.Proofs.Client.Watch
import ClusterKit.Proofs.Tracker.Procedure
import ClusterKit.Proofs.Fake.RoundTrip
import ClusterKit.Proofs.Text.Utf8
import ClusterKit.Proofs.Text.Lines
import ClusterKit.Proofs.Json.Number
import ClusterKit.Proofs.Json.Scan
import ClusterKit.Proofs.Json.Reordered
import ClusterKit.Proofs.Json.Frames
import ClusterKit.Proofs.Json.BrokenOff
import ClusterKit.Proofs.Json.Patient
import ClusterKit.Proofs.Json.PatientParts
import ClusterKit.Proofs.Json.PatientRecord
import ClusterKit.Proofs.Json.PatientValue
import ClusterKit.Proofs.Wire.Patient
import ClusterKit.Proofs.Wire.PatientEvent
import ClusterKit.Proofs.Client.Stream
import ClusterKit.Proofs.Client.Cut
import ClusterKit.Proofs.Client.Lost
import ClusterKit.Proofs.Client.Interrupted
import ClusterKit.Proofs.Text.Blank
import ClusterKit.Proofs.Selector.Split
import ClusterKit.Proofs.Selector.Grammar
import ClusterKit.Proofs.Selector.Display
import ClusterKit.Proofs.Call.Address
import ClusterKit.Proofs.Call.Item
import ClusterKit.Proofs.Client.Failure
import ClusterKit.Proofs.Tracker.KeyedMap
import ClusterKit.Proofs.Tracker.Adding
import ClusterKit.Proofs.Tracker.Alike
import ClusterKit.Proofs.Tracker.Subscription
import ClusterKit.Proofs.Fake.Tenant
import ClusterKit.Proofs.Fake.Isolation
import ClusterKit.Proofs.Fake.Journal
import ClusterKit.Proofs.Informer.Steps
import ClusterKit.Proofs.Informer.Rounds
import ClusterKit.Proofs.Watch.Serving
import ClusterKit.Proofs.Fake.Told
import ClusterKit.Proofs.Fake.Onlooker
import ClusterKit.Proofs.Fake.Upsert
import ClusterKit.Proofs.Tracker.SameStore
import ClusterKit.Proofs.Fake.Chain
import ClusterKit.Proofs.Wire.Status
import ClusterKit.Proofs.Client.Statuses
import ClusterKit.Proofs.Watch.Meaning
import ClusterKit.Proofs.Tracker.Lives
import ClusterKit.Proofs.Call.Query
import ClusterKit.Proofs.Client.RoundTrip
import ClusterKit.Proofs.Cache.Listing
import ClusterKit.Proofs.Cache.Finding
import ClusterKit.Proofs.Wire.Lossless
import ClusterKit.Proofs.Fake.Listing
import ClusterKit.Proofs.Naming.Version
import ClusterKit.Proofs.Naming.Plural
