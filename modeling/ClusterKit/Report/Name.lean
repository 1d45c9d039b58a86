/-
# Reports of names and selectors

Kinds, resources and requirements as JSON values. A requirement is an object
with the name of its form, and can be read back.

Key definitions: `ApiResource.toJson`, `Requirement.toJson`, `Requirement.ofJson?`.
-/
import ClusterKit.Json.Member
import ClusterKit.Naming.Resource
import ClusterKit.Selector.Basic

namespace ClusterKit

/-- The parts of a kind. -/
def GroupVersionKind.toJson (k : GroupVersionKind) : Json :=
  .object [("group", .text k.group), ("version", .text k.version), ("kind", .text k.kind)]

/-- The parts of the name of a collection. -/
def GroupVersionResource.toJson (r : GroupVersionResource) : Json :=
  .object [("group", .text r.group), ("version", .text r.version), ("resource", .text r.resource)]

/-- All that is known of a resource. -/
def ApiResource.toJson (r : ApiResource) : Json :=
  .object [("group", .text r.group), ("version", .text r.version), ("kind", .text r.kind),
    ("plural", .text r.plural), ("api_version", .text r.apiVersion)]

namespace Requirement

/-- The form of a requirement and its parts. -/
def toJson : Requirement → Json
  | .oneOf k vs => .fields [("In", .list [.text k, Json.ofStrings vs.toList])]
  | .noneOf k vs => .fields [("NotIn", .list [.text k, Json.ofStrings vs.toList])]
  | .equal k v => .fields [("Equal", .list [.text k, .text v])]
  | .notEqual k v => .fields [("NotEqual", .list [.text k, .text v])]
  | .present k => .fields [("Exists", .text k)]
  | .absent k => .fields [("DoesNotExist", .text k)]

/-- The requirement of a form and its parts. -/
def ofJson? : Json → Option Requirement
  | .fields [("In", .list [.text k, .list vs])] =>
    (vs.mapM Json.asText?).map fun vs => .oneOf k (.ofList vs)
  | .fields [("NotIn", .list [.text k, .list vs])] =>
    (vs.mapM Json.asText?).map fun vs => .noneOf k (.ofList vs)
  | .fields [("Equal", .list [.text k, .text v])] => some (.equal k v)
  | .fields [("NotEqual", .list [.text k, .text v])] => some (.notEqual k v)
  | .fields [("Exists", .text k)] => some (.present k)
  | .fields [("DoesNotExist", .text k)] => some (.absent k)
  | _ => none

end Requirement
end ClusterKit
