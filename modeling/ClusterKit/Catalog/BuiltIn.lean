/-
# Built-in kinds

Config maps, namespaces, pods and deployments describe their own resource.
They are written with the names of their type, which on reading have to be
theirs if they are there. Null counts as absent, of members with one name the
last counts, and unknown members are passed over.

Key definitions: `ConfigMap`, `ConfigMap.asKind`, `Namespace.asKind`, `Workload.asKind`.
-/
import ClusterKit.Object.Kind
import ClusterKit.Text.Base64

namespace ClusterKit

namespace BuiltIn

/-- Read a text that has to be `s`. -/
def constant (s : String) : Json.Reader Unit := fun d => do
  let t ← Json.Reader.text d
  if t = s then .ok () else .error .mismatch

/-- Read metadata that may be absent. -/
def metadata : Json.Reader ObjectMeta := fun d => do
  let m ← Json.Reader.optional ObjectMeta.reader d
  return m.getD .empty

/-- Read bytes in base 64; null stands for none. -/
def bytes : Json.Reader (List UInt8) := fun d => do
  let s ← Json.Reader.optional Json.Reader.text d
  match Base64.decode? (s.getD "").toList with
  | some bs => .ok bs
  | none => .error .mismatch

/-- What a type says of itself when it describes the resource `r`. -/
def identity (r : ApiResource) : TypeIdentity :=
  ⟨r.kind, some r⟩

end BuiltIn

/-! ### Config maps -/

/-- A set of named texts and named bytes. -/
structure ConfigMap where
  metadata : ObjectMeta
  binaryData : Option (Table String (List UInt8))
  data : Option Labels
  immutable : Option Bool
  deriving DecidableEq

namespace ConfigMap

/-- The resource of config maps. -/
def resource : ApiResource :=
  ⟨"", "v1", "ConfigMap", "configmaps"⟩

/-- The object of a table of bytes in base 64. -/
def binaryToJson (t : Table String (List UInt8)) : Json :=
  .fields (t.toList.map fun e => (e.1, .text (String.ofList (Base64.encode e.2))))

/-- The written config map. -/
def toJson (c : ConfigMap) : Json :=
  .fields <|
    [("apiVersion", .text resource.apiVersion)] ++
    memberOf "binaryData" binaryToJson c.binaryData ++
    memberOf "data" Json.ofTexts c.data ++
    memberOf "immutable" .bool c.immutable ++
    [("kind", .text resource.kind), ("metadata", c.metadata.toJson)]

/-- Take one member of a config map. -/
def takeMember (c : ConfigMap) (k : String) (d : Json.Draft) : Except Json.ReadError ConfigMap :=
  match k with
  | "apiVersion" => do
    BuiltIn.constant resource.apiVersion d
    return c
  | "kind" => do
    BuiltIn.constant resource.kind d
    return c
  | "metadata" => do
    let m ← BuiltIn.metadata d
    return { c with metadata := m }
  | "binaryData" => do
    let v ← Json.Reader.optional (Json.Reader.table BuiltIn.bytes) d
    return { c with binaryData := v }
  | "data" => do
    let v ← Json.Reader.optional (Json.Reader.table Json.Reader.text) d
    return { c with data := v }
  | "immutable" => do
    let v ← Json.Reader.optional Json.Reader.flag d
    return { c with immutable := v }
  | _ => do
    Json.Reader.skip d
    return c

/-- The kind of config maps. -/
def asKind : Kind ConfigMap where
  identity := BuiltIn.identity resource
  metadata := (·.metadata)
  withMetadata m c := { c with metadata := m }
  toJson? c := .ok c.toJson
  reader := Json.Reader.members takeMember ⟨.empty, none, none, none⟩

end ConfigMap

/-! ### Namespaces -/

/-- A part of the cluster that holds objects of its own. -/
structure Namespace where
  metadata : ObjectMeta
  spec : Option (Option (List String))
  status : Option (Option String)
  deriving DecidableEq

namespace Namespace

/-- The resource of namespaces. -/
def resource : ApiResource :=
  ⟨"", "v1", "Namespace", "namespaces"⟩

/-- The written namespace. -/
def toJson (n : Namespace) : Json :=
  .fields <|
    [("apiVersion", .text resource.apiVersion), ("kind", .text resource.kind),
     ("metadata", n.metadata.toJson)] ++
    memberOf "spec" (fun s => .fields (memberOf "finalizers" Json.ofStrings s)) n.spec ++
    memberOf "status" (fun s => .fields (memberOf "phase" .text s)) n.status

/-- Read the object whose only member of interest is `name`. -/
def single (name : String) (r : Json.Reader β) : Json.Reader (Option β) :=
  Json.Reader.members (fun s k d =>
    if k = name then Json.Reader.optional r d
    else do
      Json.Reader.skip d
      return s) none

/-- Take one member of a namespace. -/
def takeMember (n : Namespace) (k : String) (d : Json.Draft) : Except Json.ReadError Namespace :=
  match k with
  | "apiVersion" => do
    BuiltIn.constant resource.apiVersion d
    return n
  | "kind" => do
    BuiltIn.constant resource.kind d
    return n
  | "metadata" => do
    let m ← BuiltIn.metadata d
    return { n with metadata := m }
  | "spec" => do
    let v ← Json.Reader.optional
      (single "finalizers" (Json.Reader.items Json.Reader.text)) d
    return { n with spec := v }
  | "status" => do
    let v ← Json.Reader.optional (single "phase" Json.Reader.text) d
    return { n with status := v }
  | _ => do
    Json.Reader.skip d
    return n

/-- The kind of namespaces. -/
def asKind : Kind Namespace where
  identity := BuiltIn.identity resource
  metadata := (·.metadata)
  withMetadata m n := { n with metadata := m }
  toJson? n := .ok n.toJson
  reader := Json.Reader.members takeMember ⟨.empty, none, none⟩

end Namespace

/-! ### Pods and deployments -/

/-- Something that runs. What it runs and how it fares is kept as it is. -/
structure Workload where
  metadata : ObjectMeta
  spec : Option Json
  status : Option Json
  deriving DecidableEq

namespace Workload

/-- The resource of pods. -/
def pods : ApiResource :=
  ⟨"", "v1", "Pod", "pods"⟩

/-- The resource of deployments. -/
def deployments : ApiResource :=
  ⟨"apps", "v1", "Deployment", "deployments"⟩

/-- The workload of a resource as it is written. -/
def toJson (r : ApiResource) (w : Workload) : Json :=
  .fields <|
    [("apiVersion", .text r.apiVersion), ("kind", .text r.kind), ("metadata", w.metadata.toJson)] ++
    memberOf "spec" id w.spec ++
    memberOf "status" id w.status

/-- Read any object. -/
def anyObject : Json.Reader Json
  | .fields deep ms close => Json.Reader.value (.fields deep ms close)
  | .broken _ e _ => .error e
  | _ => .error .mismatch

/-- Take one member of a workload of the resource `r`. -/
def takeMember (r : ApiResource) (w : Workload) (k : String) (d : Json.Draft) :
    Except Json.ReadError Workload :=
  match k with
  | "apiVersion" => do
    BuiltIn.constant r.apiVersion d
    return w
  | "kind" => do
    BuiltIn.constant r.kind d
    return w
  | "metadata" => do
    let m ← BuiltIn.metadata d
    return { w with metadata := m }
  | "spec" => do
    let v ← Json.Reader.optional anyObject d
    return { w with spec := v }
  | "status" => do
    let v ← Json.Reader.optional anyObject d
    return { w with status := v }
  | _ => do
    Json.Reader.skip d
    return w

/-- The kind of the workloads of a resource. -/
def asKind (r : ApiResource) : Kind Workload where
  identity := BuiltIn.identity r
  metadata := (·.metadata)
  withMetadata m w := { w with metadata := m }
  toJson? w := .ok (toJson r w)
  reader := Json.Reader.members (takeMember r) ⟨.empty, none, none⟩

end Workload
end ClusterKit
