/-
# Informers of a fake cluster

The calls of an informer on a fake cluster are those of an api of it in one
namespace, or in all. Its watch is a watcher that the tracker may feed.

Key definitions: `LiveWatcher.release`, `ListWatch.ofCluster`.
-/
import ClusterKit.Fake.Api
import ClusterKit.Informer.Loop

namespace ClusterKit

/-- The tracker after the owner of a watcher has given it up. -/
def LiveWatcher.release (K : Kind α) (l : LiveWatcher α) (t : Tracker) : Tracker :=
  let stopped : LiveWatcher α := { l with watcher := l.watcher.stop K }
  (stopped.settle K t).2

/-- The calls of an api of a fake cluster. -/
def ListWatch.ofCluster (K : Kind α) (api : ResourceApi (StateM Clientset) α) (ns : String) :
    ListWatch Clientset α (LiveWatcher α) where
  list p c :=
    let (r, c) := (api.list ns p).run c
    (.done r, c)
  watch p c :=
    let (r, c) := (api.watch ns p).run c
    (.done r, c)
  pump l c :=
    let (l, t) := l.settle K c.tracker
    (l, { c with tracker := t })
  ready l _ := l.watcher.backlog.length + 2
  read l c :=
    let (look, w) := l.watcher.read K
    (look, { l with watcher := w.settle K }, c)
  termination l _ := l.watcher.termination
  release l c := { c with tracker := l.release K c.tracker }

end ClusterKit
