/-
# Reports of objects

What can be asked of an object whose type is not known, and the references and
versions of cached objects.

Key definitions: `Erased.members`, `Cache.refReport`, `Change.report`.
-/
import ClusterKit.Cache.Lister
import ClusterKit.Report.Call

namespace ClusterKit

/-- What can be asked of an object: its written form, and what callers read from it. -/
def Erased.members (o : Erased) : List (String × Json) :=
  let m := o.metadata
  let types := fun (t : TypeMeta) =>
    Json.object [("apiVersion", .text t.apiVersion), ("kind", .text t.kind)]
  let name := match m.nameUnchecked with
    | .ok n => Json.text n
    | .error p => .object [("panic", .text p.text)]
  [("value", Json.ofWritten o.toJson?), ("types", Json.ofOption types o.types), ("data", o.data),
    ("kind", Json.ofText? o.kind), ("name_any", .text m.nameAny), ("name_unchecked", name),
    ("namespace", Json.ofText? m.ns), ("resource_version", Json.ofText? m.resourceVersion),
    ("uid", Json.ofText? m.uid), ("labels", Json.ofTexts m.labelTable),
    ("annotations", Json.ofTexts m.annotationTable)]

/-- The reference to an object, and its version. -/
def Cache.refReport (K : Kind α) (o : α) : Json :=
  .object [("ref", .text (Cache.refOf K o).text),
    ("rv", Json.ofText? (K.metadata o).resourceVersion)]

/-- The name of a change, and the object it is of. -/
def Change.report (K : Kind α) (c : Change α) : Json :=
  .object [("type", .text c.name), ("object", Json.ofWritten (K.toJson? c.object))]

end ClusterKit
