/-
# Informers

An informer keeps a cache in step with a collection. It works in rounds: open
a watch, list, replace the cache by the list, then apply each change of the
watch until that ends. Since the watch is open before the list is made, nothing
that changes in between is missed. After each round, good or bad, it rests.

`Informer.act?` says what a round makes of the outcomes of the calls and of
what the watch delivers, whoever answers the calls.

Key definitions: `SyncError`, `Config`, `Informer`, `Informer.act?`.
-/
import ClusterKit.Cache.Store
import ClusterKit.Object.List
import ClusterKit.Watch.Termination

namespace ClusterKit

/-- Why a round failed. -/
inductive SyncError
  | list (e : ClientError)
  | watch (e : ClientError)
  | ended (t : Termination)
  deriving DecidableEq

/-- What is said of the failure. -/
def SyncError.message : SyncError → String
  | .list e => "failed to list: " ++ e.message
  | .watch e => "failed to watch: " ++ e.message
  | .ended t => "watch ended: " ++ t.debug

/-- What an informer asks for in both calls, and how long it rests after a round. -/
structure Config where
  params : ListParams
  rest : Span
  deriving DecidableEq

/-- By default all is listed, and a rest lasts a second. -/
def Config.standard : Config :=
  ⟨.none, .ofSeconds 1⟩

/-- Where an informer stands in its round. A call that never answers stalls it,
and it is finished when it is cancelled or fails altogether. -/
inductive Phase
  | opening
  | listing
  | following
  | stalled
  | resting
  | finished
  deriving DecidableEq, Repr

/-- An informer: its cache, whether a list has ever got there, and its phase. -/
structure Informer (α : Type u) where
  cache : Cache α
  synced : Bool
  phase : Phase

namespace Informer

/-- An informer before its first round. -/
def fresh : Informer α :=
  ⟨.empty, false, .opening⟩

instance : Inhabited (Informer α) := ⟨fresh⟩

/-- What happens to an informer. -/
inductive Act (α : Type u)
  | opened (r : Except ClientError Unit)
  | listed (r : Except ClientError (ObjectList α))
  | received (c : Change α)
  | ended (t : Option Termination)
  | stall
  | rested
  | cancel

/-- How a round ends with its watch: well only if the other end closed it. -/
def roundEnd : Option Termination → Except SyncError Unit
  | none => .ok ()
  | some .closed => .ok ()
  | some t => .error (.ended t)

/-- The informer in another phase. -/
def enter (i : Informer α) (p : Phase) : Informer α :=
  { i with phase := p }

/-- What becomes of the informer, and how its round ends if it does; nothing may
happen but what fits the phase. -/
def act? (K : Kind α) (i : Informer α) :
    Act α → Option (Informer α × Option (Except SyncError Unit))
  | .opened r =>
    match i.phase, r with
    | .opening, .ok _ => some (i.enter .listing, none)
    | .opening, .error e => some (i.enter .resting, some (.error (.watch e)))
    | _, _ => none
  | .listed r =>
    match i.phase, r with
    | .listing, .ok l => some (⟨.replace K l.items, true, .following⟩, none)
    | .listing, .error e => some (i.enter .resting, some (.error (.list e)))
    | _, _ => none
  | .received c =>
    match i.phase with
    | .following => some ({ i with cache := i.cache.apply K c }, none)
    | _ => none
  | .ended t =>
    match i.phase with
    | .following => some (i.enter .resting, some (roundEnd t))
    | _ => none
  | .stall =>
    match i.phase with
    | .opening => some (i.enter .stalled, none)
    | .listing => some (i.enter .stalled, none)
    | _ => none
  | .rested =>
    match i.phase with
    | .resting => some (i.enter .opening, none)
    | _ => none
  | .cancel =>
    match i.phase with
    | .finished => none
    | _ => some (i.enter .finished, none)

/-- The informer after something has happened, which is nothing if it does not fit. -/
def act (K : Kind α) (a : Act α) (i : Informer α) : Informer α :=
  match i.act? K a with
  | some (i, _) => i
  | none => i

end Informer
end ClusterKit
