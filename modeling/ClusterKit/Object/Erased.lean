/-
# Objects without a type

An erased object is any object, kept as its metadata, the names of its type if
it says them, and all of its other members as they are.

Key definitions: `TypeMeta`, `Erased`, `Erased.named`.
-/
import ClusterKit.Object.Meta
import ClusterKit.Json.Value
import ClusterKit.Naming.Resource

namespace ClusterKit

/-- How an object names its type. -/
structure TypeMeta where
  apiVersion : String
  kind : String
  deriving DecidableEq, Repr

/-- The names of the kind of a resource. -/
def ApiResource.typeMeta (r : ApiResource) : TypeMeta :=
  ⟨r.apiVersion, r.kind⟩

/-- An object of any type. Its data are an object or null, unless they have been
set to something that cannot be written. -/
structure Erased where
  types : Option TypeMeta
  metadata : ObjectMeta
  data : Json
  deriving DecidableEq

namespace Erased

instance : Inhabited Erased := ⟨⟨none, .empty, .null⟩⟩

/-- The object `name` of a resource, without data. -/
def named (name : String) (r : ApiResource) : Erased :=
  ⟨some r.typeMeta, .named name, .null⟩

/-- The object with other data. -/
def withData (o : Erased) (data : Json) : Erased :=
  { o with data := data }

/-- The object in a namespace. -/
def within (o : Erased) (ns : String) : Erased :=
  { o with metadata := { o.metadata with ns := some ns } }

/-- The kind that the object names. -/
def kind (o : Erased) : Option String :=
  o.types.map (·.kind)

/-- The object with the names of the kind of `r`, if it says none itself. -/
def stamp (o : Erased) (r : ApiResource) : Erased :=
  { o with types := o.types.or (some r.typeMeta) }

end Erased
end ClusterKit
