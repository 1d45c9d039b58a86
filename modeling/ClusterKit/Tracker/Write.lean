/-
# Writing to the tracker

An object is stored under the namespace and name in its metadata; where it
names no namespace, that of the call counts. Every write that stores an object
gives it the next version. Writes may be tried without effect, and they fail
without effect: the errors come in the order invalid, present or missing,
conflict.

Key definitions: `Tracker.place`, `Tracker.add`, `Tracker.create`, `Tracker.update`,
`Tracker.delete`.
-/
import ClusterKit.Tracker.Basic
import ClusterKit.Call.Params

namespace ClusterKit
namespace Tracker

/-! ### Places and versions -/

/-- What is wrong with an object without a name. -/
def nameRequired : String :=
  "metadata.name: Required value: name is required"

/-- What is wrong with an object in another namespace than that of the call. -/
def foreignNamespace : String :=
  "metadata.namespace: the namespace of the object does not match the namespace of the request"

/-- What is wrong with an object of an outdated version. -/
def outdated : String :=
  "the object has been modified; please apply your changes to the latest version and try again"

/-- The key under which a call on namespace `ns` stores an object, and the object
with the namespace of that key. -/
def place (r : GroupVersionResource) (ns : String) (o : Erased) :
    Except Status (ObjectKey × Erased) :=
  let name := o.metadata.name.getD ""
  let own := o.metadata.ns.getD ""
  if name.isEmpty then .error (.invalid r "" nameRequired)
  else if own.isEmpty then
    let ns? := if ns.isEmpty then none else some ns
    .ok (⟨ns, name⟩, { o with metadata := { o.metadata with ns := ns? } })
  else if Subscription.covers ns own then .ok (⟨own, name⟩, o)
  else .error (.invalid r name foreignNamespace)

/-- The object at a version. -/
def atVersion (version : Option String) (o : Erased) : Erased :=
  { o with metadata := { o.metadata with resourceVersion := version } }

/-- Store an object at the next version and pass the change on. -/
def store (t : Tracker) (r : GroupVersionResource) (k : ObjectKey) (o : Erased)
    (event : Erased → WatchEvent Erased) : Erased × Tracker :=
  let version := t.version + 1
  let stored := atVersion (some (toString version)) o
  (stored, (({ t with version := version }).put r k stored).publish r (event stored))

/-! ### Calls -/

/-- Store an object, in place of the one at its key if there is one. -/
def add (t : Tracker) (r : GroupVersionResource) (o : Erased) : Except Status Tracker := do
  let (k, o) ← place r "" o
  let event := if (t.find? r k).isSome then WatchEvent.modified else WatchEvent.added
  return (t.store r k o event).2

/-- Store an object where there is none. -/
def create (t : Tracker) (r : GroupVersionResource) (ns : String) (o : Erased) (p : PostParams) :
    Except Status (Erased × Tracker) := do
  let (k, o) ← place r ns o
  if (t.find? r k).isSome then throw (.alreadyExists r k.name)
  if p.dryRun then return (atVersion none o, t)
  return t.store r k o .added

/-- The version that an object says it has. -/
def claimedVersion (o : Erased) : Option String :=
  o.metadata.resourceVersion.filter (!·.isEmpty)

/-- Replace the object at the key of another. One that says a version has to say
that of the stored object. -/
def update (t : Tracker) (r : GroupVersionResource) (ns : String) (o : Erased) (p : PostParams) :
    Except Status (Erased × Tracker) := do
  let (k, o) ← place r ns o
  let some stored := t.find? r k
    | throw (.notFound r k.name)
  if (claimedVersion o).isSome && claimedVersion o != stored.metadata.resourceVersion then
    throw (.conflict r k.name outdated)
  if p.dryRun then return (atVersion stored.metadata.resourceVersion o, t)
  return t.store r k o .modified

/-- Whether a stored object meets preconditions. -/
def checkPreconditions (r : GroupVersionResource) (stored : Erased) (p : Preconditions) :
    Except Status Unit := do
  let m := stored.metadata
  let name := m.name.getD ""
  if let some uid := p.uid then
    if m.uid ≠ some uid then
      let found := m.uid.getD ""
      throw (.conflict r name
        s!"Precondition failed: UID in precondition: {uid}, UID in object meta: {found}")
  if let some version := p.resourceVersion then
    if m.resourceVersion ≠ some version then
      let found := m.resourceVersion.getD ""
      throw (.conflict r name <|
        s!"Precondition failed: ResourceVersion in precondition: {version}, " ++
        s!"ResourceVersion in object meta: {found}")

/-- Remove the object of a name. -/
def delete (t : Tracker) (r : GroupVersionResource) (ns name : String) (p : DeleteParams) :
    Except Status (Erased × Tracker) := do
  let some stored := t.find? r ⟨ns, name⟩
    | throw (.notFound r name)
  if let some c := p.preconditions then
    checkPreconditions r stored c
  if p.dryRun then return (stored, t)
  return (stored, (t.remove r ⟨ns, name⟩).publish r (.deleted stored))

end Tracker
end ClusterKit
