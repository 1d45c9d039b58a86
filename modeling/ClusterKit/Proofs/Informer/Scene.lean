/-
# Informers among others

An informer on a fake cluster is not alone: others write to the collection that
it follows, and to the rest of the cluster, between any two of its steps and
while the answer to its list is on the way. What its watch is told moves on
through the watcher in steps of its own, and the watch may end at any time.

Key definitions: `Scene`, `Scene.Own`, `Scene.Step`, `Scene.Reachable`, `Scene.isCaughtUp`.
-/
import ClusterKit.Informer.Cluster
import ClusterKit.Proofs.Watch.Following

namespace ClusterKit

/-- An informer at work on a cluster, and the answer to its list that has not got
to the cache yet. -/
structure Scene (α : Type) where
  running : Running α (LiveWatcher α)
  cluster : Clientset
  answer : Option (Except ClientError (ObjectList α))

namespace Scene

variable {α : Type}

/-- An informer that is started on a cluster of a scheme, at some time. -/
def start (scheme : Scheme) (clock : Span) : Scene α :=
  ⟨.start clock, .ofScheme scheme, none⟩

/-- Where the informer stands in its round. -/
def phase (s : Scene α) : Phase :=
  s.running.informer.phase

/-- What the cluster keeps. -/
def tracker (s : Scene α) : Tracker :=
  s.cluster.tracker

/-- The feed of the informer's watch. -/
def feed? (s : Scene α) : Option Feed :=
  s.running.watch.bind (·.feed)

/-- What the informer has cached. -/
def cache (s : Scene α) : Cache α :=
  s.running.informer.cache

/-- The scene with another tracker. -/
def withTracker (t : Tracker) (s : Scene α) : Scene α :=
  { s with cluster := { s.cluster with tracker := t } }

/-- The scene with another state of the informer's watch. -/
def withWatch (l : LiveWatcher α) (s : Scene α) : Scene α :=
  { s with running := { s.running with watch := some l } }

section

variable (K : Kind α) (api : FakeApi) (ns : String) (cfg : Config)

/-- The calls of the informer. -/
def backend : ListWatch Clientset α (LiveWatcher α) :=
  .ofCluster K (api.calls K) ns

/-- The scene after something has happened to the informer. -/
def act (a : Informer.Act α) (s : Scene α) : Scene α :=
  let (running, cluster) := s.running.act K (backend K api ns) cfg a s.cluster
  ⟨running, cluster, none⟩

/-- The scene after the informer has opened its watch. -/
def openWatch (s : Scene α) : Scene α :=
  let (running, cluster) := s.running.openWatch K (backend K api ns) cfg s.cluster
  ⟨running, cluster, none⟩

/-- The scene after the informer's list has been answered. -/
def callList (s : Scene α) : Scene α :=
  let (answer, cluster) := ((api.calls K).list ns cfg.params).run s.cluster
  { s with cluster := cluster, answer := some answer }

/-- What the informer may do next without a call, and its watch: take the answer to the
list, apply a change that is read, find the end of the watch, try again after a rest,
or stop. Time passes as it likes. -/
inductive Own (s : Scene α) : Scene α → Prop
  | replace (hp : s.phase = .listing) (ha : s.answer = some r) :
      Own s (s.act K api ns cfg (.listed r))
  | turn (hw : s.running.watch = some l) (h : l.Turn K s.tracker l' t) :
      Own s ((s.withTracker t).withWatch l')
  | apply (hp : s.phase = .following) (hw : s.running.watch = some l)
      (h : l.watcher.act? K a = some (w, some (some c))) :
      Own s ((s.withWatch { l with watcher := w }).act K api ns cfg (.received c))
  | watchEnded (hp : s.phase = .following) (hw : s.running.watch = some l)
      (h : l.watcher.act? K a = some (v, some none)) (hm : v.Moves K w) :
      Own s ((s.withWatch { l with watcher := w }).act K api ns cfg (.ended w.termination))
  | retry (h : s.running.restsUntil s.running.clock = true) : Own s (s.act K api ns cfg .rested)
  | cancel : Own s (s.act K api ns cfg .cancel)
  | pass (t : Span) : Own s { s with running := { s.running with clock := t } }

/-- What may happen next: something that others do, a call of the informer, or anything
else that it does. -/
inductive Step (s : Scene α) : Scene α → Prop
  | others (h : FakeApi.Disturbs K api s.feed? s.cluster c) : Step s { s with cluster := c }
  | openWatch (hp : s.phase = .opening) : Step s (s.openWatch K api ns cfg)
  | callList (hp : s.phase = .listing) (ha : s.answer = none) : Step s (s.callList K api ns cfg)
  | own (h : Own K api ns cfg s s') : Step s s'

/-- What may have happened since the informer was started on a new cluster. -/
inductive Reachable : Scene α → Prop
  | start (scheme : Scheme) (clock : Span) : Reachable (start scheme clock)
  | step (h : Reachable s) (hs : Step K api ns cfg s s') : Reachable s'

variable {K api ns cfg}

theorem Reachable.own {s s' : Scene α} (h : Reachable K api ns cfg s)
    (ho : Own K api ns cfg s s') : Reachable K api ns cfg s' :=
  h.step (.own ho)

end

/-- Whether the round has listed, its watch goes on, and each change that the watch
was told of has been applied. -/
def isCaughtUp (s : Scene α) : Bool :=
  s.phase == .following && s.running.watch.any fun l => l.isDrained s.tracker

end Scene
end ClusterKit
