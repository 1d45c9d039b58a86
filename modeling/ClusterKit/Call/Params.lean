/-
# Parameters of calls

What a caller may ask for besides the object itself: selectors, paging and
timeouts of lists and watches, versions, dry runs and preconditions.

Key definitions: `ListParams`, `GetParams`, `PostParams`, `DeleteParams`, `LogParams`.
-/
import ClusterKit.Text.Span
import ClusterKit.Json.Value

namespace ClusterKit

/-- Parameters of list and watch calls. The timeout is in seconds. -/
structure ListParams where
  labelSelector : Option String
  fieldSelector : Option String
  timeout : Option Nat
  limit : Option Nat
  continueToken : Option String
  resourceVersion : Option String
  deriving DecidableEq, Repr

namespace ListParams

/-- No parameters. -/
def none : ListParams :=
  ⟨.none, .none, .none, .none, .none, .none⟩

instance : Inhabited ListParams := ⟨none⟩

/-- The timeout in seconds, of which zero means none. -/
def timeoutSeconds (p : ListParams) : Option Nat :=
  p.timeout.filter (0 < ·)

/-- How long a list may take. -/
def timeoutSpan (p : ListParams) : Option Span :=
  p.timeoutSeconds.map Span.ofSeconds

end ListParams

/-- Parameters of get calls. -/
structure GetParams where
  resourceVersion : Option String
  deriving DecidableEq, Repr, Inhabited

namespace GetParams

/-- No parameters. -/
def none : GetParams :=
  ⟨.none⟩

end GetParams

/-- Parameters of create and update calls. -/
structure PostParams where
  dryRun : Bool
  fieldManager : Option String
  deriving DecidableEq, Repr, Inhabited

namespace PostParams

/-- No parameters. -/
def none : PostParams :=
  ⟨false, .none⟩

end PostParams

/-- What the stored object has to be like for a delete to go ahead. -/
structure Preconditions where
  resourceVersion : Option String
  uid : Option String
  deriving DecidableEq, Repr

/-- Parameters of delete calls. -/
structure DeleteParams where
  dryRun : Bool
  preconditions : Option Preconditions
  deriving DecidableEq, Repr

namespace DeleteParams

/-- No parameters. -/
def none : DeleteParams :=
  ⟨false, .none⟩

instance : Inhabited DeleteParams := ⟨none⟩

/-- The members that are there, as texts. -/
def textMembers (ms : List (String × Option String)) : List (String × Json) :=
  ms.filterMap fun m => m.2.map fun s => (m.1, .text s)

/-- The written parameters, which are the body of a delete request. -/
def toJson (p : DeleteParams) : Json :=
  let dryRun := if p.dryRun then [("dryRun", Json.list [.text "All"])] else []
  let preconditions := p.preconditions.map fun c =>
    ("preconditions",
      Json.fields (textMembers [("resourceVersion", c.resourceVersion), ("uid", c.uid)]))
  .fields (dryRun ++ preconditions.toList)

end DeleteParams

/-- Parameters of log calls. -/
structure LogParams where
  container : Option String
  previous : Bool
  tailLines : Option Int
  deriving DecidableEq, Repr, Inhabited

end ClusterKit
