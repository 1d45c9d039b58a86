/-
# The cache

A cache keeps the latest known state of objects by their references. It is
replaced as a whole by a list, in which the last object of a reference counts,
and follows single changes in between.

Key definitions: `Cache`, `Cache.apply`, `Cache.replace`, `Cache.get?`.
-/
import ClusterKit.Cache.Ref
import ClusterKit.Object.Kind
import ClusterKit.Watch.Change

namespace ClusterKit

/-- The latest known state of objects. -/
structure Cache (α : Type u) where
  entries : Table ObjectRef α

namespace Cache

/-- The cache without objects. -/
def empty : Cache α :=
  ⟨.empty⟩

instance : Inhabited (Cache α) := ⟨empty⟩

/-- The reference to an object. -/
def refOf (K : Kind α) (o : α) : ObjectRef :=
  .ofMeta (K.metadata o)

/-- The cache after a change. -/
def apply (K : Kind α) (s : Cache α) : Change α → Cache α
  | .added o => ⟨s.entries.insert (refOf K o) o⟩
  | .modified o => ⟨s.entries.insert (refOf K o) o⟩
  | .deleted o => ⟨s.entries.erase (refOf K o)⟩

/-- The cache of the objects of a list. -/
def replace (K : Kind α) (objs : List α) : Cache α :=
  ⟨.ofList (objs.map fun o => (refOf K o, o))⟩

/-- The object of a reference; a reference into a namespace also finds an object
of that name outside of namespaces. -/
def get? (s : Cache α) (r : ObjectRef) : Option α :=
  (s.entries.get? r).or (if r.ns.isSome then s.entries.get? (.named r.name) else none)

/-- The objects in the order of their references. -/
def toList (s : Cache α) : List α :=
  s.entries.values

/-- The objects that `p` holds of, in the order of their references. -/
def select (s : Cache α) (p : ObjectRef → α → Bool) : List α :=
  (s.entries.filter p).values

/-- The number of objects. -/
def size (s : Cache α) : Nat :=
  s.entries.size

end Cache
end ClusterKit
