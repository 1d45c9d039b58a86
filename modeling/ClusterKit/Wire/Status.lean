/-
# Statuses in JSON

A status is written with all its parts; the details and their parts are left
out when there are none. On reading, status and code have to be there, message
and reason are empty without them, and unknown members are passed over.

Key definitions: `Status.toJson`, `Status.reader`.
-/
import ClusterKit.Status
import ClusterKit.Json.Read

namespace ClusterKit

/-- The members that are there, each written as a text. -/
def presentTexts (ms : List (String × Option String)) : List (String × Json) :=
  ms.filterMap fun m => m.2.map fun s => (m.1, .text s)

/-! ### Causes -/

namespace StatusCause

/-- The written cause. -/
def toJson (c : StatusCause) : Json :=
  .fields (presentTexts [("field", c.field), ("message", c.message), ("reason", c.reason)])

/-- The parts of a cause in order. -/
def fieldNames : List Json.Reader.Field :=
  [⟨"field", true⟩, ⟨"message", true⟩, ⟨"reason", true⟩]

/-- Take one part of a cause. -/
def takeField (k : String) (d : Json.Draft) (c : StatusCause) :
    Except Json.ReadError StatusCause := do
  let v ← Json.Reader.optional Json.Reader.text d
  if k = "field" then return { c with field := v }
  else if k = "message" then return { c with message := v }
  else return { c with reason := v }

/-- Read a cause. -/
def reader : Json.Reader StatusCause :=
  Json.Reader.record fieldNames takeField ⟨none, none, none⟩ .ok

end StatusCause

/-! ### Details -/

namespace StatusDetails

/-- The written details. -/
def toJson (d : StatusDetails) : Json :=
  .fields <|
    (d.causes.map fun cs => ("causes", Json.list (cs.map StatusCause.toJson))).toList ++
    presentTexts [("group", d.group), ("kind", d.kind), ("name", d.name)] ++
    (d.retryAfterSeconds.map fun n => ("retryAfterSeconds", Json.ofInt n)).toList ++
    presentTexts [("uid", d.uid)]

/-- The parts of details in order. -/
def fieldNames : List Json.Reader.Field :=
  [⟨"causes", true⟩, ⟨"group", true⟩, ⟨"kind", true⟩, ⟨"name", true⟩,
   ⟨"retryAfterSeconds", true⟩, ⟨"uid", true⟩]

/-- Take one part of details. -/
def takeField (k : String) (d : Json.Draft) (s : StatusDetails) :
    Except Json.ReadError StatusDetails := do
  if k = "causes" then
    let v ← Json.Reader.optional (Json.Reader.items StatusCause.reader) d
    return { s with causes := v }
  else if k = "retryAfterSeconds" then
    let v ← Json.Reader.optional (Json.Reader.signed 32) d
    return { s with retryAfterSeconds := v }
  else
    let v ← Json.Reader.optional Json.Reader.text d
    if k = "group" then return { s with group := v }
    else if k = "kind" then return { s with kind := v }
    else if k = "name" then return { s with name := v }
    else return { s with uid := v }

/-- Read details. -/
def reader : Json.Reader StatusDetails :=
  Json.Reader.record fieldNames takeField ⟨none, none, none, none, none, none⟩ .ok

end StatusDetails

/-! ### Statuses -/

namespace Status

/-- The written status. -/
def toJson (s : Status) : Json :=
  .fields <|
    [("code", Json.ofNat s.code)] ++
    (s.details.map fun d => ("details", d.toJson)).toList ++
    [("message", .text s.message), ("reason", .text s.reason), ("status", .text s.status)]

/-- A status of which not all parts have been read. -/
structure Partial where
  status : Option String
  message : String
  reason : String
  code : Option Nat
  details : Option StatusDetails

/-- The parts of a status in order. -/
def fieldNames : List Json.Reader.Field :=
  [⟨"status", false⟩, ⟨"message", true⟩, ⟨"reason", true⟩, ⟨"code", false⟩, ⟨"details", true⟩]

/-- Take one part of a status. -/
def takeField (k : String) (d : Json.Draft) (s : Partial) : Except Json.ReadError Partial := do
  if k = "code" then
    let v ← Json.Reader.unsigned 16 d
    return { s with code := some v }
  else if k = "details" then
    let v ← Json.Reader.optional StatusDetails.reader d
    return { s with details := v }
  else
    let v ← Json.Reader.text d
    if k = "status" then return { s with status := some v }
    else if k = "message" then return { s with message := v }
    else return { s with reason := v }

/-- The status of all its parts. -/
def ofPartial (s : Partial) : Except Json.ReadError Status := do
  let status ← Json.Reader.required s.status
  let code ← Json.Reader.required s.code
  return ⟨status, s.message, s.reason, code, s.details⟩

/-- Read a status. -/
def reader : Json.Reader Status :=
  Json.Reader.record fieldNames takeField ⟨none, "", "", none, none⟩ ofPartial

end Status
end ClusterKit
