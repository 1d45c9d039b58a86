/-
# The catalog of kinds

All known kinds by the names of their types.

Key definitions: `KnownKind`, `KnownKind.find?`.
-/
import ClusterKit.Catalog.BuiltIn
import ClusterKit.Catalog.Custom

namespace ClusterKit

/-- A kind together with its type of objects. -/
structure KnownKind where
  {Object : Type}
  [decEq : DecidableEq Object]
  kind : Kind Object

namespace KnownKind

/-- The kind of a type's name. -/
def find? : String → Option KnownKind
  | "ConfigMap" => some ⟨ConfigMap.asKind⟩
  | "Namespace" => some ⟨Namespace.asKind⟩
  | "Pod" => some ⟨Workload.asKind Workload.pods⟩
  | "Deployment" => some ⟨Workload.asKind Workload.deployments⟩
  | "Widget" => some ⟨Widget.asKind⟩
  | "Party" => some ⟨Party.asKind⟩
  | "Knife" => some ⟨Knife.asKind⟩
  | "Calf" => some ⟨Calf.asKind Json.text Json.Reader.text⟩
  | "DynamicObject" => some ⟨Erased.asKind⟩
  | _ => none

end KnownKind
end ClusterKit
