/-
# Resources

A resource is a kind together with the name of its collection; it says at
which path of the server the collection is found. A type is bound to the
resource that it describes itself or, failing that, to the kind registered for
it in a scheme, under the plural of the type's own name.

Key definitions: `ApiResource`, `ApiResource.urlPath`, `Scheme`, `ApiResource.resolve`.
-/
import ClusterKit.Naming.Plural
import ClusterKit.Naming.Version
import ClusterKit.Text.Quoted

namespace ClusterKit

/-- A kind and the plural that addresses its collection. -/
structure ApiResource where
  group : String
  version : String
  kind : String
  plural : String
  deriving DecidableEq, Repr

namespace ApiResource

/-- The resource of a kind under a given plural. -/
def withPlural (k : GroupVersionKind) (plural : String) : ApiResource :=
  ⟨k.group, k.version, k.kind, plural⟩

/-- The resource of a kind under the plural of its name. -/
def ofKind (k : GroupVersionKind) : ApiResource :=
  withPlural k (toPlural k.kind)

/-- The version that objects of the resource name. It is no part of its own: whoever makes a
resource, be it of a kind or for a type that describes itself, writes group and version here. -/
def apiVersion (r : ApiResource) : String :=
  versionText r.group r.version

/-- The kind. -/
def gvk (r : ApiResource) : GroupVersionKind :=
  ⟨r.group, r.version, r.kind⟩

/-- The collection. -/
def gvr (r : ApiResource) : GroupVersionResource :=
  ⟨r.group, r.version, r.plural⟩

/-- The path of the collection in a namespace, or across all of them for the empty name. -/
def urlPath (r : ApiResource) (ns : String) : String :=
  let root := if r.group.isEmpty then "api" else "apis"
  let inside := if ns.isEmpty then "" else s!"namespaces/{ns}/"
  s!"/{root}/{r.apiVersion}/{inside}{r.plural}"

/-- The form that shows every part. -/
def debug (r : ApiResource) : String :=
  "ApiResource \x7b group: " ++ Text.quote r.group ++ ", version: " ++ Text.quote r.version ++
    ", api_version: " ++ Text.quote r.apiVersion ++ ", kind: " ++ Text.quote r.kind ++
    ", plural: " ++ Text.quote r.plural ++ " \x7d"

end ApiResource

/-- What a type says of itself: its bare name, and its resource if it knows it. -/
structure TypeIdentity where
  name : String
  resource? : Option ApiResource
  deriving DecidableEq, Repr

/-- The kinds registered for types. A type is told from others by its bare name, so no two types
of a scheme may have one name. -/
structure Scheme where
  kinds : Table String GroupVersionKind

namespace Scheme

/-- The scheme without types. -/
def empty : Scheme :=
  ⟨.empty⟩

/-- Register a kind for a type, in place of an earlier one. -/
def register (s : Scheme) (type : String) (k : GroupVersionKind) : Scheme :=
  ⟨s.kinds.insert type k⟩

/-- The kind registered for a type. -/
def kindOf (s : Scheme) (type : String) : Option GroupVersionKind :=
  s.kinds.get? type

/-- Whether a kind is registered for a type. -/
def isRegistered (s : Scheme) (type : String) : Bool :=
  (s.kindOf type).isSome

end Scheme

/-- A type that neither describes its resource nor is registered. -/
structure UnregisteredType where
  name : String
  deriving DecidableEq, Repr

/-- What is said of such a type. -/
def UnregisteredType.message (u : UnregisteredType) : String :=
  s!"type {u.name} is not registered in the scheme and does not describe its own resource"

/-- The resource that a type is bound to. -/
def ApiResource.resolve (s : Scheme) (t : TypeIdentity) : Except UnregisteredType ApiResource :=
  match t.resource? with
  | some r => .ok r
  | none =>
    match s.kindOf t.name with
    | some k => .ok (.withPlural k (toPlural t.name))
    | none => .error ⟨t.name⟩

end ClusterKit
