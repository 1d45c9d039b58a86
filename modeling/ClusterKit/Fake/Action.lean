/-
# Actions

Every call on a fake cluster is an action on a collection. A pattern matches
actions by verb and resource, either of which may be left open.

Key definitions: `Action`, `Action.verb`, `Pattern`, `Pattern.make`, `Action.suits`.
-/
import ClusterKit.Call.Params
import ClusterKit.Naming.Version
import ClusterKit.Object.Erased

namespace ClusterKit

/-- What is done to a collection. -/
inductive Deed
  | get (name : String)
  | list (params : ListParams)
  | create (object : Erased) (params : PostParams)
  | update (object : Erased) (params : PostParams)
  | delete (name : String) (params : DeleteParams)
  | watch (params : ListParams)
  deriving DecidableEq

/-- A call on a collection in a namespace, or in all of them for the empty name. -/
structure Action where
  resource : GroupVersionResource
  ns : String
  deed : Deed
  deriving DecidableEq

namespace Action

/-- The name of what is done. -/
def verb (a : Action) : String :=
  match a.deed with
  | .get _ => "get"
  | .list _ => "list"
  | .create .. => "create"
  | .update .. => "update"
  | .delete .. => "delete"
  | .watch _ => "watch"

/-- All names of what can be done. -/
def verbs : List String :=
  ["get", "list", "create", "update", "delete", "watch"]

/-- Whether the action is of a verb on a resource, where `*` stands for any. -/
def isOf (a : Action) (verb resource : String) : Bool :=
  (verb == "*" || verb == a.verb) && (resource == "*" || resource == a.resource.resource)

end Action

/-- A verb and a resource, where `*` stands for any. -/
structure Pattern where
  verb : String
  resource : String
  deriving DecidableEq

namespace Pattern

/-- The pattern of a verb, which has to be one that actions have. -/
def make (verb resource : String) : Except Panic Pattern :=
  if verb = "*" ∨ verb ∈ Action.verbs then .ok ⟨verb, resource⟩
  else .error ⟨"unknown verb " ++ Text.quote verb ++ " in reactor pattern"⟩

/-- Whether the pattern matches an action. -/
def suits (p : Pattern) (a : Action) : Bool :=
  a.isOf p.verb p.resource

end Pattern
end ClusterKit
