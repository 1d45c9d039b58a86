/-
# Addresses of items

Namespaces and names stand in addresses as they are. A request on an item of a
collection so has the path of this item, and its own parameters as its query,
just if neither the namespace nor the name has a question mark or a number sign.
A path ends in front of such a mark: with one in the name it is that of another
name, and with one in the namespace that at which the collection is listed.

Key definitions: `ItemCall`, `ItemCall.request`, `ItemCall.target`.
Key theorems: `ItemCall.exists_request_iff`, `ApiResource.unmarked_urlPath`,
`ItemCall.requests_address_their_item_unless_marked`.
-/
import ClusterKit.Call.Request
import ClusterKit.Catalog.BuiltIn
import ClusterKit.Proofs.Call.Address
import ClusterKit.Outcome

namespace ClusterKit

open Uri (Unmarked behind? front joined)
open Workload (pods)

/-- A call on one item of a collection. -/
inductive ItemCall
  | get (p : GetParams)
  | replace (p : PostParams) (body : List UInt8)
  | delete (p : DeleteParams)
  | logs (p : LogParams)

namespace ItemCall

/-- The request for the call on the item `name` of the collection at `path`. -/
def request (path name : String) : ItemCall → Except RequestError Request
  | .get p => Request.get path name p
  | .replace p body => Request.replace path name p body
  | .delete p => Request.delete path name p
  | .logs p => Request.logs path name p

/-- What is checked of the parameters. -/
def check : ItemCall → Except RequestError Unit
  | .replace p _ => Request.checkManager p
  | _ => .ok ()

/-- What the call addresses below its item. -/
def suffix : ItemCall → List Char
  | .logs _ => "/log".toList
  | _ => []

/-- The path of what the call is about. -/
def target (path name : String) (c : ItemCall) : List Char :=
  Request.itemPath path name ++ c.suffix

/-- The parameters that stand in the query, if there is one. -/
def pairs? : ItemCall → Option (List (String × String))
  | .get p => p.resourceVersion.map fun v => [("resourceVersion", v)]
  | .replace p _ => some p.pairs
  | .delete _ => some []
  | .logs p => some p.pairs

/-- The query that the parameters make. -/
def query? (c : ItemCall) : Option (List Char) :=
  c.pairs?.map Form.pairs

/-- The address as it is written before it is read. -/
def written (path name : String) (c : ItemCall) : List Char :=
  joined (c.target path name) c.query?

/-! ### Requests -/

variable {path name : String} {c : ItemCall} {q : Request} {u : Uri}

theorem checkName_eq_ok_iff : Request.checkName name = .ok () ↔ name ≠ "" := by
  unfold Request.checkName
  split <;> simp_all

theorem address_eq_ok_iff {cs : List Char} : Request.address cs = .ok u ↔ Uri.parse? cs = some u := by
  unfold Request.address
  cases Uri.parse? cs <;> simp

theorem exists_plain_iff {cs : List Char} :
    (∃ q, Request.plain cs = .ok q ∧ q.uri = u) ↔ Uri.parse? cs = some u := by
  unfold Request.plain
  simp [bind_eq_ok, address_eq_ok_iff]

theorem exists_withBody_iff {cs : List Char} {m : Method} {body : List UInt8} :
    (∃ q, Request.withBody m cs body = .ok q ∧ q.uri = u) ↔ Uri.parse? cs = some u := by
  unfold Request.withBody
  simp [bind_eq_ok, address_eq_ok_iff]

theorem exists_checked_iff {x : Except RequestError Unit} {f : Unit → Except RequestError Request}
    {p : Request → Prop} :
    (∃ q, (x >>= f) = .ok q ∧ p q) ↔ x = .ok () ∧ ∃ q, f () = .ok q ∧ p q := by
  cases x with
  | error e => simp
  | ok a => simp

attribute [local simp] check written target suffix query? pairs? joined Request.withPairs in
/-- The address of a request is read from what is written, if the name and the parameters pass. -/
theorem exists_request_iff :
    (∃ q, c.request path name = .ok q ∧ q.uri = u) ↔
      name ≠ "" ∧ c.check = .ok () ∧ Uri.parse? (c.written path name) = some u := by
  rw [← checkName_eq_ok_iff]
  cases c with
  | get p =>
    rw [request, Request.get, exists_checked_iff]
    obtain ⟨_ | v⟩ := p
    · dsimp only
      rw [exists_plain_iff]
      simp
    · dsimp only
      rw [exists_plain_iff]
      simp
  | replace p body =>
    rw [request, Request.replace, exists_checked_iff, exists_checked_iff, exists_withBody_iff]
    simp
  | delete p =>
    rw [request, Request.delete, exists_checked_iff, exists_withBody_iff]
    simp
  | logs p =>
    rw [request, Request.logs, exists_checked_iff, exists_plain_iff]
    simp

end ItemCall

/-! ### Paths of collections -/

namespace ApiResource

/-- There is no mark in what a resource has of a path. -/
structure IsUnmarked (r : ApiResource) : Prop where
  group : Unmarked r.group.toList
  version : Unmarked r.version.toList
  plural : Unmarked r.plural.toList

variable {r : ApiResource}

theorem IsUnmarked.apiVersion (h : r.IsUnmarked) : Unmarked r.apiVersion.toList := by
  unfold ApiResource.apiVersion versionText
  split
  · exact h.version
  · have hslash : Unmarked "/".toList := by decide
    rw [String.toList_append, String.toList_append]
    exact Uri.unmarked_append.mpr ⟨Uri.unmarked_append.mpr ⟨h.group, hslash⟩, h.version⟩

/-- The part of a path that the namespace makes. -/
def inside (ns : String) : List Char :=
  if ns.isEmpty then [] else "namespaces/".toList ++ ns.toList ++ ['/']

theorem toList_urlPath (r : ApiResource) (ns : String) :
    (r.urlPath ns).toList = '/' :: (if r.group.isEmpty then "api" else "apis").toList ++
      '/' :: r.apiVersion.toList ++ '/' :: inside ns ++ r.plural.toList := by
  have hparts : r.urlPath ns = "/" ++ (if r.group.isEmpty then "api" else "apis") ++ "/" ++
      r.apiVersion ++ "/" ++ (if ns.isEmpty then "" else "namespaces/" ++ ns ++ "/") ++ r.plural :=
    rfl
  rw [hparts, inside]
  split <;> split <;> simp

theorem unmarked_inside (ns : String) : Unmarked (inside ns) ↔ Unmarked ns.toList := by
  have hbefore : Unmarked "namespaces/".toList := by decide
  have hafter : Unmarked ['/'] := by decide
  unfold inside
  split
  · rename_i hempty
    rw [String.isEmpty_iff.mp hempty]
    exact ⟨fun _ => nofun, fun _ => nofun⟩
  · simp only [Uri.unmarked_append, hbefore, hafter, true_and, and_true]

/-- The path of a collection has the marks of the namespace. -/
theorem unmarked_urlPath (h : r.IsUnmarked) (ns : String) :
    Unmarked (r.urlPath ns).toList ↔ Unmarked ns.toList := by
  have hroot : Unmarked ('/' :: (if r.group.isEmpty then "api" else "apis").toList) := by
    split <;> decide
  have hversion : Unmarked ('/' :: r.apiVersion.toList) := Uri.unmarked_slash.mpr h.apiVersion
  rw [toList_urlPath, ← unmarked_inside ns]
  simp only [Uri.unmarked_append, Uri.unmarked_slash, hroot, hversion, h.plural, true_and, and_true]

end ApiResource

/-! ### Paths of items -/

namespace ItemCall

variable {r : ApiResource} {ns name name' : String} {c c' : ItemCall} {q q' : Request}

theorem target_eq (path name : String) (c : ItemCall) :
    c.target path name = path.toList ++ '/' :: (name.toList ++ c.suffix) := by
  rw [target, Request.itemPath, List.append_assoc, List.cons_append]

theorem unmarked_suffix (c : ItemCall) : Unmarked c.suffix := by
  have hlog : Unmarked "/log".toList := by decide
  cases c with
  | logs p =>
    rw [suffix]
    exact hlog
  | get p => exact nofun
  | replace p body => exact nofun
  | delete p => exact nofun

theorem unmarked_target (hr : r.IsUnmarked) :
    Unmarked (c.target (r.urlPath ns) name) ↔ Unmarked ns.toList ∧ Unmarked name.toList := by
  rw [target_eq, Uri.unmarked_append, ApiResource.unmarked_urlPath hr, Uri.unmarked_slash,
    Uri.unmarked_append, and_iff_left (unmarked_suffix c)]

theorem isQueryChar_of_mem_query? :
    ∀ query ∈ c.query?, ∀ x ∈ query, Uri.isQueryChar x = true := by
  intro query hquery x hx
  obtain ⟨ps, -, rfl⟩ := Option.map_eq_some_iff.mp hquery
  exact Form.isQueryChar_of_mem_pairs hx

theorem exists_target_eq_slash (r : ApiResource) (ns name : String) (c : ItemCall) :
    ∃ cs, c.target (r.urlPath ns) name = '/' :: cs := by
  rw [target_eq, ApiResource.toList_urlPath]
  exact ⟨_, rfl⟩

/-- Without marks the address is what was joined, and only its size and its characters count. -/
theorem exists_request_iff_of_unmarked (hr : r.IsUnmarked) (hns : Unmarked ns.toList)
    (hname : Unmarked name.toList) :
    (∃ q, c.request (r.urlPath ns) name = .ok q ∧ q.uri = u) ↔
      name ≠ "" ∧ c.check = .ok () ∧ Utf8.size (c.written (r.urlPath ns) name) ≤ Uri.maxSize ∧
        (c.target (r.urlPath ns) name).all Uri.isPathChar = true ∧
          u = ⟨none, [], c.target (r.urlPath ns) name, c.query?⟩ := by
  have htarget := (unmarked_target (c := c) hr).mpr ⟨hns, hname⟩
  obtain ⟨cs, hcs⟩ := exists_target_eq_slash r ns name c
  rw [exists_request_iff, written]
  rw [hcs] at htarget ⊢
  rw [Uri.parse?_joined_eq_some_iff htarget isQueryChar_of_mem_query?]

/-- Whatever the names are, the path is what comes before the first mark. -/
theorem uri_of_request (h : c.request (r.urlPath ns) name = .ok q) :
    q.uri = ⟨none, [], front (c.target (r.urlPath ns) name),
      behind? (c.written (r.urlPath ns) name)⟩ := by
  obtain ⟨cs, hcs⟩ : ∃ cs, c.written (r.urlPath ns) name = '/' :: cs := by
    obtain ⟨cs, hcs⟩ := exists_target_eq_slash r ns name c
    rw [written, hcs]
    cases c.query? with
    | none => exact ⟨cs, rfl⟩
    | some query => exact ⟨cs ++ '?' :: query, rfl⟩
  obtain ⟨-, -, hparse⟩ := exists_request_iff.mp ⟨q, h, rfl⟩
  have hfront : front (c.written (r.urlPath ns) name) = front (c.target (r.urlPath ns) name) :=
    Uri.front_joined
  rw [hcs, Uri.parse?_slash_eq_some_iff] at hparse
  rw [hparse.2.2.2, ← hcs, hfront]

theorem uri_of_unmarked (hr : r.IsUnmarked) (hns : Unmarked ns.toList)
    (hname : Unmarked name.toList) (h : c.request (r.urlPath ns) name = .ok q) :
    q.uri = ⟨none, [], c.target (r.urlPath ns) name, c.query?⟩ := by
  obtain ⟨-, -, -, -, huri⟩ := (exists_request_iff_of_unmarked hr hns hname).mp ⟨q, h, rfl⟩
  exact huri

/-- The list of a collection is asked for at what comes before the first mark of its path. -/
theorem path_of_list {p : ListParams} (h : Request.list (r.urlPath ns) p = .ok q) :
    q.uri.path = front (r.urlPath ns).toList := by
  have hplain : Request.plain (Request.withPairs (r.urlPath ns).toList p.listPairs) = .ok q := by
    unfold Request.list at h
    split at h
    · cases h
    · exact h
  have hparse := exists_plain_iff.mp ⟨q, hplain, rfl⟩
  have hfront : front (joined (r.urlPath ns).toList (some (Form.pairs p.listPairs))) =
      front (r.urlPath ns).toList := Uri.front_joined
  rw [← hfront]
  rw [ApiResource.toList_urlPath] at hparse ⊢
  have hu := Uri.parse?_slash_eq_some_iff.mp hparse
  rw [hu.2.2.2]
  rfl

/-- An item shares its path with its collection just if there is a mark in the namespace. -/
theorem path_eq_list_iff (hr : r.IsUnmarked) {p : ListParams}
    (h : c.request (r.urlPath ns) name = .ok q) (hl : Request.list (r.urlPath ns) p = .ok q') :
    q.uri.path = q'.uri.path ↔ ¬ Unmarked ns.toList := by
  have hpath : q.uri.path = front ((r.urlPath ns).toList ++ '/' :: (name.toList ++ c.suffix)) := by
    rw [uri_of_request h, target_eq]
  rw [hpath, path_of_list hl, ← ApiResource.unmarked_urlPath hr]
  constructor
  · intro heq hu
    rw [Uri.front_append hu, Uri.front_slash, Uri.front_eq_self_iff.mpr hu] at heq
    simp at heq
  · exact fun hmarked => Uri.front_append_of_marked hmarked

/-- **Addresses of items.** Without marks in namespace and name there is a request unless a check
fails or the address cannot be written. A request has the path of its item and its own parameters
as its query just if there is no mark in either; it has the path at which the collection is listed
just if there is one in the namespace. Without marks two requests have the same path just if name
and suffix are the same together, as they are for the item `a/log` and for the logs of `a`. -/
theorem requests_address_their_item_unless_marked (r : ApiResource) (hr : r.IsUnmarked)
    (ns name : String) (c : ItemCall) :
    (Unmarked ns.toList → Unmarked name.toList →
      ((∃ q, c.request (r.urlPath ns) name = .ok q) ↔
        name ≠ "" ∧ c.check = .ok () ∧
          Utf8.size (c.written (r.urlPath ns) name) ≤ Uri.maxSize ∧
            (c.target (r.urlPath ns) name).all Uri.isPathChar = true)) ∧
    ∀ q, c.request (r.urlPath ns) name = .ok q →
      q.uri = ⟨none, [], front (c.target (r.urlPath ns) name),
        behind? (c.written (r.urlPath ns) name)⟩ ∧
      (q.uri.path = c.target (r.urlPath ns) name ∧ q.uri.query = c.query? ↔
        Unmarked ns.toList ∧ Unmarked name.toList) ∧
      (∀ (p : ListParams) (q' : Request), Request.list (r.urlPath ns) p = .ok q' →
        (q.uri.path = q'.uri.path ↔ ¬ Unmarked ns.toList)) ∧
      ∀ (name' : String) (c' : ItemCall) (q' : Request), c'.request (r.urlPath ns) name' = .ok q' →
        Unmarked ns.toList → Unmarked name.toList → Unmarked name'.toList →
          (q.uri.path = q'.uri.path ↔ name.toList ++ c.suffix = name'.toList ++ c'.suffix) := by
  refine ⟨fun hns hname => ?_, fun q h => ⟨uri_of_request h, ⟨?_, ?_⟩, ?_, ?_⟩⟩
  · constructor
    · rintro ⟨q, h⟩
      obtain ⟨hne, hcheck, hsize, hchars, -⟩ :=
        (exists_request_iff_of_unmarked hr hns hname).mp ⟨q, h, rfl⟩
      exact ⟨hne, hcheck, hsize, hchars⟩
    · rintro ⟨hne, hcheck, hsize, hchars⟩
      obtain ⟨q, h, -⟩ :=
        (exists_request_iff_of_unmarked hr hns hname).mpr ⟨hne, hcheck, hsize, hchars, rfl⟩
      exact ⟨q, h⟩
  · rintro ⟨hpath, -⟩
    rw [uri_of_request h] at hpath
    dsimp only at hpath
    rw [Uri.front_eq_self_iff] at hpath
    exact (unmarked_target hr).mp hpath
  · rintro ⟨hns, hname⟩
    rw [uri_of_unmarked hr hns hname h]
    exact ⟨rfl, rfl⟩
  · exact fun p q' hl => path_eq_list_iff hr h hl
  · intro name' c' q' h' hns hname hname'
    rw [uri_of_unmarked hr hns hname h, uri_of_unmarked hr hns hname' h', target_eq, target_eq,
      List.append_right_inj, List.cons_inj_right]

/-- Deleting the pod `a` addresses it, and not the collection. -/
theorem deletion_addresses_its_pod :
    ∃ q, (delete .none).request (pods.urlPath "ns") "a" = .ok q ∧
      q.uri.path = "/api/v1/namespaces/ns/pods/a".toList ∧ q.uri.query = some [] ∧
      ∀ (p : ListParams) (q' : Request), Request.list (pods.urlPath "ns") p = .ok q' →
        q.uri.path ≠ q'.uri.path := by
  have hr : pods.IsUnmarked := ⟨by decide, by decide, by decide⟩
  have hns : Unmarked "ns".toList := by decide
  have hname : Unmarked "a".toList := by decide
  obtain ⟨hbuilt, hitem⟩ :=
    requests_address_their_item_unless_marked pods hr "ns" "a" (delete .none)
  obtain ⟨q, hq⟩ := (hbuilt hns hname).mpr (by decide +kernel)
  obtain ⟨-, hown, hlist, -⟩ := hitem q hq
  obtain ⟨hpath, hquery⟩ := hown.mpr ⟨hns, hname⟩
  have htarget : (delete .none).target (pods.urlPath "ns") "a" =
      "/api/v1/namespaces/ns/pods/a".toList := by decide +kernel
  rw [htarget] at hpath
  refine ⟨q, hq, hpath, hquery, fun p q' hl heq => ?_⟩
  exact (hlist p q' hl).mp heq hns

/-- Deleting an item by the name `a#b` addresses the pod `a`. -/
theorem deletion_by_marked_name_addresses_another_pod :
    ∃ q q', (delete .none).request (pods.urlPath "ns") "a#b" = .ok q ∧
      (delete .none).request (pods.urlPath "ns") "a" = .ok q' ∧
      q.uri.path = q'.uri.path ∧
      q.uri.path ≠ (delete .none).target (pods.urlPath "ns") "a#b" := by
  refine ⟨⟨.delete, ⟨none, [], "/api/v1/namespaces/ns/pods/a".toList, none⟩,
      some Request.jsonType, DeleteParams.none.toJson.bytes⟩,
    ⟨.delete, ⟨none, [], "/api/v1/namespaces/ns/pods/a".toList, some []⟩,
      some Request.jsonType, DeleteParams.none.toJson.bytes⟩, ?_, ?_, rfl, ?_⟩
  · decide +kernel
  · decide +kernel
  · decide +kernel

end ItemCall
end ClusterKit
