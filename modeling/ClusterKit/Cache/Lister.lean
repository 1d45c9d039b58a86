/-
# Listing a cache

The objects of a cache are listed by label selector, over all of it or within
one namespace, and got by name.

Key definitions: `Cache.list`, `Cache.find?`, `Cache.listIn`, `Cache.findIn?`.
-/
import ClusterKit.Cache.Store

namespace ClusterKit
namespace Cache

/-- The objects that a selector selects. -/
def list (K : Kind α) (s : Cache α) (sel : Selector) : List α :=
  s.select fun _ o => sel.selects (K.labels o)

/-- The object of a name outside of namespaces. -/
def find? (s : Cache α) (name : String) : Option α :=
  s.get? (.named name)

/-- The objects of a namespace that a selector selects. -/
def listIn (K : Kind α) (s : Cache α) (ns : String) (sel : Selector) : List α :=
  s.select fun r o => r.ns == some ns && sel.selects (K.labels o)

/-- The object of a name in a namespace. -/
def findIn? (K : Kind α) (s : Cache α) (ns name : String) : Option α :=
  let r := (ObjectRef.named name).within ns
  (s.get? r).filter fun o => (K.metadata o).ns == r.ns

end Cache
end ClusterKit
