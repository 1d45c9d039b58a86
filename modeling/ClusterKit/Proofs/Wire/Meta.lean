/-
# Metadata survive writing

What is written of metadata is read as the same metadata, in whatever order its members
and those of its parts come: each member sets a part of its own. As it is written the parts
that are there come in the order of their names, and lie no more than three deep, but for
what someone says of the fields that they manage.

Key definitions: `OwnerReference.copy`, `ObjectMeta.members`, `ObjectMeta.copy`.
Key theorems: `ObjectMeta.recovers_toJson`, `ObjectMeta.canonical_toJson`,
`ObjectMeta.plain_toJson`.
-/
import ClusterKit.Proofs.Json.Recovered
import ClusterKit.Proofs.Object.Timestamp
import ClusterKit.Wire.Meta

namespace ClusterKit

open Json.Reader (Recovers recovers_text recovers_flag recovers_int64 recovers_ofTexts
  recovers_ofStrings)

/-! ### Members of optional parts -/

theorem forall_mem_memberOf {P : Json → Prop} {name : String} {f : α → Json} {v : Option α}
    (h : ∀ a ∈ v, P (f a)) : ∀ e ∈ memberOf name f v, P e.2 := by
  intro e he
  cases v with
  | none => cases he
  | some a =>
    cases List.mem_singleton.mp he
    exact h a rfl

theorem map_fst_memberOf (name : String) (f : α → Json) (v : Option α) :
    List.Sublist ((memberOf name f v).map Prod.fst) [name] := by
  cases v with
  | none => exact List.nil_sublist _
  | some a => exact List.Sublist.refl _

theorem mem_map_fst_memberOf {name k : String} {f : α → Json} {v : Option α} :
    k ∈ (memberOf name f v).map Prod.fst ↔ v.isSome = true ∧ k = name := by
  cases v <;> simp [memberOf]

/-- A part that is there is taken as it was, if its reader recovers it. -/
theorem recovers_memberOf_of_option {take : σ → String → Json.Draft → Except Json.ReadError σ}
    {put : String → σ → σ} {r : Json.Reader (Option α)} {f : α → Json} {name : String}
    {set : σ → Option α → σ} {v : Option α} (h : ∀ a, r.Recovers (f a) (some a))
    (htake : ∀ s d, take s name d = do
      let v ← r d
      return set s v)
    (hput : ∀ s, put name s = set s v) :
    ∀ n ∈ memberOf name f v, ∀ s, Recovers (take s n.1) n.2 (put n.1 s) := by
  intro n hn s
  cases v with
  | none => cases hn
  | some a =>
    cases List.mem_singleton.mp hn
    rw [hput, show take s name = _ from funext (htake s)]
    exact (h a).map (set s)

theorem recovers_memberOf {take : σ → String → Json.Draft → Except Json.ReadError σ}
    {put : String → σ → σ} {r : Json.Reader α} {f : α → Json} {name : String}
    {set : σ → Option α → σ} {v : Option α} (h : ∀ a, r.Recovers (f a) a) (hf : ∀ a, f a ≠ .null)
    (htake : ∀ s d, take s name d = do
      let v ← Json.Reader.optional r d
      return set s v)
    (hput : ∀ s, put name s = set s v) :
    ∀ n ∈ memberOf name f v, ∀ s, Recovers (take s n.1) n.2 (put n.1 s) :=
  recovers_memberOf_of_option (fun a => (h a).optional (hf a)) htake hput

/-- Members ascend if their names are some of a list that ascends. -/
theorem Entries.ascending_of_names [Ord κ] {es : Entries κ ν} {ks : List κ}
    (h : List.Sublist (es.map Prod.fst) ks) (hks : ks.Pairwise fun a b => compare a b = .lt) :
    Ascending es :=
  List.pairwise_map.mp (hks.sublist h)

theorem Json.canonical_ofTexts (t : Table String String) : (Json.ofTexts t).Canonical := by
  refine (canonical_fields _).mpr ⟨?_, ?_⟩
  · exact List.pairwise_map.mpr t.ascending
  · intro e he
    obtain ⟨p, -, rfl⟩ := List.mem_map.mp he
    trivial

theorem Json.plain_ofTexts (t : Table String String) (n : Nat) :
    (Json.ofTexts t).Plain (n + 1) := by
  refine plain_fields.mpr fun m hm => ?_
  obtain ⟨e, -, rfl⟩ := List.mem_map.mp hm
  exact plain_text e.2 n

theorem Json.canonical_ofStrings (ss : List String) : (Json.ofStrings ss).Canonical := by
  refine (canonical_list _).mpr ?_
  intro v hv
  obtain ⟨s, -, rfl⟩ := List.mem_map.mp hv
  trivial

theorem Json.plain_ofStrings (ss : List String) (n : Nat) : (Json.ofStrings ss).Plain (n + 1) := by
  refine plain_list.mpr fun v hv => ?_
  obtain ⟨s, -, rfl⟩ := List.mem_map.mp hv
  exact plain_text s n

theorem Json.plain_bool (b : Bool) (n : Nat) : (Json.bool b).Plain n :=
  ⟨trivial, Nat.zero_le n⟩

theorem Json.plain_ofInt64 (i : Int64) (n : Nat) : (Json.ofInt64 i).Plain n := by
  have hlo : -2 ^ 63 ≤ i.toInt := Int64.le_toInt i
  have hhi : i.toInt < 2 ^ 63 := Int64.toInt_lt i
  exact ⟨⟨by omega, by omega⟩, Nat.zero_le n⟩

/-! ### Owner references -/

namespace OwnerReference

/-- The written members of a reference. -/
def members (o : OwnerReference) : List (String × Json) :=
  memberOf "apiVersion" .text (some o.apiVersion) ++
    memberOf "blockOwnerDeletion" .bool o.blockOwnerDeletion ++
    memberOf "controller" .bool o.controller ++
    memberOf "kind" .text (some o.kind) ++
    memberOf "name" .text (some o.name) ++
    memberOf "uid" .text (some o.uid)

theorem toJson_eq (o : OwnerReference) : o.toJson = .fields o.members := by
  simp only [toJson, members, memberOf, List.append_assoc]
  rfl

theorem forall_members (o : OwnerReference) (P : Json → Prop) (text : ∀ s, P (.text s))
    (bool : ∀ b, P (.bool b)) : ∀ n ∈ o.members, P n.2 := by
  simp only [members, List.forall_mem_append]
  have htext (name : String) (v : Option String) : ∀ n ∈ memberOf name Json.text v, P n.2 :=
    forall_mem_memberOf fun s _ => text s
  have hbool (name : String) (v : Option Bool) : ∀ n ∈ memberOf name Json.bool v, P n.2 :=
    forall_mem_memberOf fun b _ => bool b
  exact ⟨⟨⟨⟨⟨htext _ _, hbool _ _⟩, hbool _ _⟩, htext _ _⟩, htext _ _⟩, htext _ _⟩

/-- A reference with the part `k` as it is in `o`. -/
def copy (o : OwnerReference) (k : String) (s : OwnerReference) : OwnerReference :=
  ⟨pick "apiVersion" k o.apiVersion s.apiVersion,
    pick "blockOwnerDeletion" k o.blockOwnerDeletion s.blockOwnerDeletion,
    pick "controller" k o.controller s.controller, pick "kind" k o.kind s.kind,
    pick "name" k o.name s.name, pick "uid" k o.uid s.uid⟩

theorem copy_comm (o : OwnerReference) (k l : String) (s : OwnerReference) :
    o.copy k (o.copy l s) = o.copy l (o.copy k s) := by
  simp only [copy]
  congr 1 <;> exact pick_comm _ _ _ _ _

theorem recovers_takeMember (o : OwnerReference) :
    ∀ n ∈ o.members, ∀ s, Recovers (takeMember s n.1) n.2 (o.copy n.1 s) := by
  simp only [members, List.forall_mem_append]
  refine ⟨⟨⟨⟨⟨?_, ?_⟩, ?_⟩, ?_⟩, ?_⟩, ?_⟩
  · exact recovers_memberOf recovers_text Json.text_ne_null (fun _ _ => rfl) (fun _ => rfl)
  · exact recovers_memberOf recovers_flag Json.bool_ne_null (fun _ _ => rfl) (fun _ => rfl)
  · exact recovers_memberOf recovers_flag Json.bool_ne_null (fun _ _ => rfl) (fun _ => rfl)
  · exact recovers_memberOf recovers_text Json.text_ne_null (fun _ _ => rfl) (fun _ => rfl)
  · exact recovers_memberOf recovers_text Json.text_ne_null (fun _ _ => rfl) (fun _ => rfl)
  · exact recovers_memberOf recovers_text Json.text_ne_null (fun _ _ => rfl) (fun _ => rfl)

/-- A reference is read back. -/
theorem recovers_toJson (o : OwnerReference) : reader.Recovers o.toJson o := by
  rw [toJson_eq]
  refine Recovers.members o.copy o.recovers_takeMember o.copy_comm ?_
  obtain ⟨_, _ | _, _ | _, _, _, _⟩ := o <;> rfl

theorem canonical_toJson (o : OwnerReference) : o.toJson.Canonical := by
  rw [toJson_eq]
  refine (Json.canonical_fields _).mpr
    ⟨?_, o.forall_members Json.Canonical (fun _ => trivial) (fun _ => trivial)⟩
  have hsub := (map_fst_memberOf "apiVersion" Json.text (some o.apiVersion)).append
    (map_fst_memberOf "blockOwnerDeletion" Json.bool o.blockOwnerDeletion) |>.append
    (map_fst_memberOf "controller" Json.bool o.controller) |>.append
    (map_fst_memberOf "kind" Json.text (some o.kind)) |>.append
    (map_fst_memberOf "name" Json.text (some o.name)) |>.append
    (map_fst_memberOf "uid" Json.text (some o.uid))
  refine Entries.ascending_of_names (by simpa only [members, List.map_append] using hsub) ?_
  decide

theorem plain_toJson (o : OwnerReference) (n : Nat) : o.toJson.Plain (n + 1) := by
  rw [toJson_eq]
  exact Json.plain_fields.mpr
    (o.forall_members (·.Plain n) (Json.plain_text · n) (Json.plain_bool · n))

theorem canonical_list (os : List OwnerReference) : (Json.list (os.map toJson)).Canonical := by
  refine (Json.canonical_list _).mpr ?_
  intro v hv
  obtain ⟨o, -, rfl⟩ := List.mem_map.mp hv
  exact canonical_toJson o

theorem plain_list (os : List OwnerReference) (n : Nat) :
    (Json.list (os.map toJson)).Plain (n + 2) := by
  refine Json.plain_list.mpr fun v hv => ?_
  obtain ⟨o, -, rfl⟩ := List.mem_map.mp hv
  exact o.plain_toJson n

end OwnerReference

/-! ### Managed fields -/

/-- A point in time is read back. -/
theorem Timestamp.recovers_toJson (t : Timestamp) : reader.Recovers t.toJson t := by
  intro v hv
  have hread : Json.Reader.text v.toDraft = .ok t.text := recovers_text t.text v hv
  unfold reader
  rw [hread, ok_bind, parse?_text]
  rfl

theorem FieldsV1.recovers_value (f : FieldsV1) : reader.Recovers f.value (some f) := by
  intro v hv
  have hread : Json.Reader.canonical v.toDraft = .ok ⟨f.value, f.canonical⟩ :=
    Json.Reader.recovers_canonical f.canonical v hv
  unfold reader
  rw [hread, ok_bind, of?, dif_neg f.ne_null]
  rfl

namespace ManagedFieldsEntry

/-- The written members of an entry. -/
def members (e : ManagedFieldsEntry) : List (String × Json) :=
  memberOf "apiVersion" .text e.apiVersion ++
    memberOf "fieldsType" .text e.fieldsType ++
    memberOf "fieldsV1" FieldsV1.value e.fieldsV1 ++
    memberOf "manager" .text e.manager ++
    memberOf "operation" .text e.operation ++
    memberOf "subresource" .text e.subresource ++
    memberOf "time" Timestamp.toJson e.time

theorem toJson_eq (e : ManagedFieldsEntry) : e.toJson = .fields e.members :=
  rfl

theorem forall_members (e : ManagedFieldsEntry) (P : Json → Prop) (text : ∀ s, P (.text s))
    (fields : ∀ f ∈ e.fieldsV1, P f.value) : ∀ n ∈ e.members, P n.2 := by
  simp only [members, List.forall_mem_append]
  have htext (name : String) (v : Option String) : ∀ n ∈ memberOf name Json.text v, P n.2 :=
    forall_mem_memberOf fun s _ => text s
  exact ⟨⟨⟨⟨⟨⟨htext _ _, htext _ _⟩, forall_mem_memberOf fields⟩, htext _ _⟩, htext _ _⟩,
    htext _ _⟩, forall_mem_memberOf fun t _ => text t.text⟩

/-- An entry with the part `k` as it is in `e`. -/
def copy (e : ManagedFieldsEntry) (k : String) (s : ManagedFieldsEntry) : ManagedFieldsEntry :=
  ⟨pick "apiVersion" k e.apiVersion s.apiVersion, pick "fieldsType" k e.fieldsType s.fieldsType,
    pick "fieldsV1" k e.fieldsV1 s.fieldsV1, pick "manager" k e.manager s.manager,
    pick "operation" k e.operation s.operation, pick "subresource" k e.subresource s.subresource,
    pick "time" k e.time s.time⟩

theorem copy_comm (e : ManagedFieldsEntry) (k l : String) (s : ManagedFieldsEntry) :
    e.copy k (e.copy l s) = e.copy l (e.copy k s) := by
  simp only [copy]
  congr 1 <;> exact pick_comm _ _ _ _ _

theorem recovers_takeMember (e : ManagedFieldsEntry) :
    ∀ n ∈ e.members, ∀ s, Recovers (takeMember s n.1) n.2 (e.copy n.1 s) := by
  have times (t : Timestamp) : t.toJson ≠ .null := Json.text_ne_null _
  simp only [members, List.forall_mem_append]
  refine ⟨⟨⟨⟨⟨⟨?_, ?_⟩, ?_⟩, ?_⟩, ?_⟩, ?_⟩, ?_⟩
  · exact recovers_memberOf recovers_text Json.text_ne_null (fun _ _ => rfl) (fun _ => rfl)
  · exact recovers_memberOf recovers_text Json.text_ne_null (fun _ _ => rfl) (fun _ => rfl)
  · exact recovers_memberOf_of_option FieldsV1.recovers_value (fun _ _ => rfl) (fun _ => rfl)
  · exact recovers_memberOf recovers_text Json.text_ne_null (fun _ _ => rfl) (fun _ => rfl)
  · exact recovers_memberOf recovers_text Json.text_ne_null (fun _ _ => rfl) (fun _ => rfl)
  · exact recovers_memberOf recovers_text Json.text_ne_null (fun _ _ => rfl) (fun _ => rfl)
  · exact recovers_memberOf Timestamp.recovers_toJson times (fun _ _ => rfl) (fun _ => rfl)

/-- An entry is read back. -/
theorem recovers_toJson (e : ManagedFieldsEntry) : reader.Recovers e.toJson e := by
  rw [toJson_eq]
  refine Recovers.members e.copy e.recovers_takeMember e.copy_comm ?_
  obtain ⟨_ | _, _ | _, _ | _, _ | _, _ | _, _ | _, _ | _⟩ := e <;> rfl

theorem canonical_toJson (e : ManagedFieldsEntry) : e.toJson.Canonical := by
  rw [toJson_eq]
  refine (Json.canonical_fields _).mpr
    ⟨?_, e.forall_members Json.Canonical (fun _ => trivial) fun f _ => f.canonical⟩
  have hsub := (map_fst_memberOf "apiVersion" Json.text e.apiVersion).append
    (map_fst_memberOf "fieldsType" Json.text e.fieldsType) |>.append
    (map_fst_memberOf "fieldsV1" FieldsV1.value e.fieldsV1) |>.append
    (map_fst_memberOf "manager" Json.text e.manager) |>.append
    (map_fst_memberOf "operation" Json.text e.operation) |>.append
    (map_fst_memberOf "subresource" Json.text e.subresource) |>.append
    (map_fst_memberOf "time" Timestamp.toJson e.time)
  refine Entries.ascending_of_names (by simpa only [members, List.map_append] using hsub) ?_
  decide

theorem plain_toJson {e : ManagedFieldsEntry} {n : Nat} (h : ∀ f ∈ e.fieldsV1, f.value.Plain n) :
    e.toJson.Plain (n + 1) := by
  rw [toJson_eq]
  exact Json.plain_fields.mpr (e.forall_members (·.Plain n) (Json.plain_text · n) h)

theorem canonical_list (es : List ManagedFieldsEntry) : (Json.list (es.map toJson)).Canonical := by
  refine (Json.canonical_list _).mpr ?_
  intro v hv
  obtain ⟨e, -, rfl⟩ := List.mem_map.mp hv
  exact canonical_toJson e

theorem plain_list {es : List ManagedFieldsEntry} {n : Nat}
    (h : ∀ e ∈ es, ∀ f ∈ e.fieldsV1, f.value.Plain n) :
    (Json.list (es.map toJson)).Plain (n + 2) := by
  refine Json.plain_list.mpr fun v hv => ?_
  obtain ⟨e, he, rfl⟩ := List.mem_map.mp hv
  exact plain_toJson (h e he)

end ManagedFieldsEntry

/-! ### Objects -/

attribute [ext] ObjectMeta

namespace ObjectMeta

/-- The written members of metadata. -/
def members (m : ObjectMeta) : List (String × Json) :=
  memberOf "annotations" Json.ofTexts m.annotations ++
    memberOf "creationTimestamp" Timestamp.toJson m.creationTimestamp ++
    memberOf "deletionGracePeriodSeconds" Json.ofInt64 m.deletionGracePeriodSeconds ++
    memberOf "deletionTimestamp" Timestamp.toJson m.deletionTimestamp ++
    memberOf "finalizers" Json.ofStrings m.finalizers ++
    memberOf "generateName" .text m.generateName ++
    memberOf "generation" Json.ofInt64 m.generation ++
    memberOf "labels" Json.ofTexts m.labels ++
    memberOf "managedFields" (fun es => .list (es.map ManagedFieldsEntry.toJson))
      m.managedFields ++
    memberOf "name" .text m.name ++
    memberOf "namespace" .text m.ns ++
    memberOf "ownerReferences" (fun os => .list (os.map OwnerReference.toJson)) m.ownerReferences ++
    memberOf "resourceVersion" .text m.resourceVersion ++
    memberOf "selfLink" .text m.selfLink ++
    memberOf "uid" .text m.uid

theorem toJson_eq (m : ObjectMeta) : m.toJson = .fields m.members :=
  rfl

theorem forall_members (m : ObjectMeta) (P : Json → Prop) (text : ∀ s, P (.text s))
    (int : ∀ i, P (.ofInt64 i)) (texts : ∀ t, P (.ofTexts t)) (strings : ∀ ss, P (.ofStrings ss))
    (owners : ∀ os : List OwnerReference, P (.list (os.map OwnerReference.toJson)))
    (managed : ∀ es ∈ m.managedFields, P (.list (es.map ManagedFieldsEntry.toJson))) :
    ∀ n ∈ m.members, P n.2 := by
  simp only [members, List.forall_mem_append]
  have htext (name : String) (v : Option String) : ∀ n ∈ memberOf name Json.text v, P n.2 :=
    forall_mem_memberOf fun s _ => text s
  have hint (name : String) (v : Option Int64) : ∀ n ∈ memberOf name Json.ofInt64 v, P n.2 :=
    forall_mem_memberOf fun i _ => int i
  have htexts (name : String) (v : Option Labels) : ∀ n ∈ memberOf name Json.ofTexts v, P n.2 :=
    forall_mem_memberOf fun t _ => texts t
  have htime (name : String) (v : Option Timestamp) :
      ∀ n ∈ memberOf name Timestamp.toJson v, P n.2 :=
    forall_mem_memberOf fun t _ => text t.text
  exact ⟨⟨⟨⟨⟨⟨⟨⟨⟨⟨⟨⟨⟨⟨htexts _ _, htime _ _⟩, hint _ _⟩, htime _ _⟩,
    forall_mem_memberOf fun ss _ => strings ss⟩, htext _ _⟩, hint _ _⟩, htexts _ _⟩,
    forall_mem_memberOf managed⟩, htext _ _⟩, htext _ _⟩,
    forall_mem_memberOf fun os _ => owners os⟩, htext _ _⟩, htext _ _⟩, htext _ _⟩

/-- Metadata with the part `k` as it is in `m`. -/
def copy (m : ObjectMeta) (k : String) (s : ObjectMeta) : ObjectMeta where
  annotations := pick "annotations" k m.annotations s.annotations
  creationTimestamp := pick "creationTimestamp" k m.creationTimestamp s.creationTimestamp
  deletionGracePeriodSeconds :=
    pick "deletionGracePeriodSeconds" k m.deletionGracePeriodSeconds s.deletionGracePeriodSeconds
  deletionTimestamp := pick "deletionTimestamp" k m.deletionTimestamp s.deletionTimestamp
  finalizers := pick "finalizers" k m.finalizers s.finalizers
  generateName := pick "generateName" k m.generateName s.generateName
  generation := pick "generation" k m.generation s.generation
  labels := pick "labels" k m.labels s.labels
  managedFields := pick "managedFields" k m.managedFields s.managedFields
  name := pick "name" k m.name s.name
  ns := pick "namespace" k m.ns s.ns
  ownerReferences := pick "ownerReferences" k m.ownerReferences s.ownerReferences
  resourceVersion := pick "resourceVersion" k m.resourceVersion s.resourceVersion
  selfLink := pick "selfLink" k m.selfLink s.selfLink
  uid := pick "uid" k m.uid s.uid

theorem copy_comm (m : ObjectMeta) (k l : String) (s : ObjectMeta) :
    m.copy k (m.copy l s) = m.copy l (m.copy k s) := by
  simp only [copy]
  congr 1 <;> exact pick_comm _ _ _ _ _

theorem recovers_takeMember (m : ObjectMeta) :
    ∀ n ∈ m.members, ∀ s, Recovers (takeMember s n.1) n.2 (m.copy n.1 s) := by
  have texts : ∀ t, Json.ofTexts t ≠ .null := fun _ => Json.fields_ne_null _
  have strings : ∀ ss, Json.ofStrings ss ≠ .null := fun _ => Json.list_ne_null _
  have ints : ∀ i, Json.ofInt64 i ≠ .null := fun _ => Json.number_ne_null _
  have owners : ∀ os : List OwnerReference, Json.list (os.map OwnerReference.toJson) ≠ .null :=
    fun _ => Json.list_ne_null _
  have managed : ∀ es : List ManagedFieldsEntry,
      Json.list (es.map ManagedFieldsEntry.toJson) ≠ .null := fun _ => Json.list_ne_null _
  have times (t : Timestamp) : t.toJson ≠ .null := Json.text_ne_null _
  simp only [members, List.forall_mem_append]
  refine ⟨⟨⟨⟨⟨⟨⟨⟨⟨⟨⟨⟨⟨⟨?_, ?_⟩, ?_⟩, ?_⟩, ?_⟩, ?_⟩, ?_⟩, ?_⟩, ?_⟩, ?_⟩, ?_⟩, ?_⟩, ?_⟩, ?_⟩, ?_⟩
  · exact recovers_memberOf recovers_ofTexts texts (fun _ _ => rfl) (fun _ => rfl)
  · exact recovers_memberOf Timestamp.recovers_toJson times (fun _ _ => rfl) (fun _ => rfl)
  · exact recovers_memberOf recovers_int64 ints (fun _ _ => rfl) (fun _ => rfl)
  · exact recovers_memberOf Timestamp.recovers_toJson times (fun _ _ => rfl) (fun _ => rfl)
  · exact recovers_memberOf recovers_ofStrings strings (fun _ _ => rfl) (fun _ => rfl)
  · exact recovers_memberOf recovers_text Json.text_ne_null (fun _ _ => rfl) (fun _ => rfl)
  · exact recovers_memberOf recovers_int64 ints (fun _ _ => rfl) (fun _ => rfl)
  · exact recovers_memberOf recovers_ofTexts texts (fun _ _ => rfl) (fun _ => rfl)
  · exact recovers_memberOf (fun _ => Recovers.items fun e _ => e.recovers_toJson) managed
      (fun _ _ => rfl) (fun _ => rfl)
  · exact recovers_memberOf recovers_text Json.text_ne_null (fun _ _ => rfl) (fun _ => rfl)
  · exact recovers_memberOf recovers_text Json.text_ne_null (fun _ _ => rfl) (fun _ => rfl)
  · exact recovers_memberOf (fun _ => Recovers.items fun o _ => o.recovers_toJson) owners
      (fun _ _ => rfl) (fun _ => rfl)
  · exact recovers_memberOf recovers_text Json.text_ne_null (fun _ _ => rfl) (fun _ => rfl)
  · exact recovers_memberOf recovers_text Json.text_ne_null (fun _ _ => rfl) (fun _ => rfl)
  · exact recovers_memberOf recovers_text Json.text_ne_null (fun _ _ => rfl) (fun _ => rfl)

/-- The names of the members are those of the parts that are there. -/
theorem mem_names {m : ObjectMeta} {k : String} : k ∈ m.members.map Prod.fst ↔
    m.annotations.isSome ∧ k = "annotations" ∨
    m.creationTimestamp.isSome ∧ k = "creationTimestamp" ∨
    m.deletionGracePeriodSeconds.isSome ∧ k = "deletionGracePeriodSeconds" ∨
    m.deletionTimestamp.isSome ∧ k = "deletionTimestamp" ∨
    m.finalizers.isSome ∧ k = "finalizers" ∨ m.generateName.isSome ∧ k = "generateName" ∨
    m.generation.isSome ∧ k = "generation" ∨ m.labels.isSome ∧ k = "labels" ∨
    m.managedFields.isSome ∧ k = "managedFields" ∨ m.name.isSome ∧ k = "name" ∨
    m.ns.isSome ∧ k = "namespace" ∨
    m.ownerReferences.isSome ∧ k = "ownerReferences" ∨
    m.resourceVersion.isSome ∧ k = "resourceVersion" ∨ m.selfLink.isSome ∧ k = "selfLink" ∨
    m.uid.isSome ∧ k = "uid" := by
  simp only [members, List.map_append, List.mem_append, mem_map_fst_memberOf, or_assoc]

/-- A part that is there is the one of its member. -/
theorem get_foldl_copy {m : ObjectMeta} (get : ObjectMeta → Option β) {part : String}
    (hget : ∀ k s, get (m.copy k s) = pick part k (get m) (get s)) (hnone : get .empty = none)
    (hpart : (get m).isSome = true → part ∈ m.members.map Prod.fst) :
    get (m.members.foldl (fun s n => m.copy n.1 s) .empty) = get m := by
  have hfold : (m.members.map Prod.fst).foldl (fun own k => pick part k (get m) own) (get .empty) =
      get ((m.members.map Prod.fst).foldl (fun s k => m.copy k s) .empty) :=
    List.foldl_hom get fun s k => (hget k s).symm
  rw [hnone, foldl_pick hpart, List.foldl_map] at hfold
  exact hfold.symm

/-- All of them make up the metadata. -/
theorem foldl_copy (m : ObjectMeta) : m.members.foldl (fun s n => m.copy n.1 s) .empty = m := by
  apply ObjectMeta.ext
  · exact get_foldl_copy (·.annotations) (fun _ _ => rfl) rfl fun h => by simp [mem_names, h]
  · exact get_foldl_copy (·.creationTimestamp) (fun _ _ => rfl) rfl fun h => by simp [mem_names, h]
  · exact get_foldl_copy (·.deletionGracePeriodSeconds) (fun _ _ => rfl) rfl fun h => by
      simp [mem_names, h]
  · exact get_foldl_copy (·.deletionTimestamp) (fun _ _ => rfl) rfl fun h => by simp [mem_names, h]
  · exact get_foldl_copy (·.finalizers) (fun _ _ => rfl) rfl fun h => by simp [mem_names, h]
  · exact get_foldl_copy (·.generateName) (fun _ _ => rfl) rfl fun h => by simp [mem_names, h]
  · exact get_foldl_copy (·.generation) (fun _ _ => rfl) rfl fun h => by simp [mem_names, h]
  · exact get_foldl_copy (·.labels) (fun _ _ => rfl) rfl fun h => by simp [mem_names, h]
  · exact get_foldl_copy (·.managedFields) (fun _ _ => rfl) rfl fun h => by simp [mem_names, h]
  · exact get_foldl_copy (·.name) (fun _ _ => rfl) rfl fun h => by simp [mem_names, h]
  · exact get_foldl_copy (·.ns) (fun _ _ => rfl) rfl fun h => by simp [mem_names, h]
  · exact get_foldl_copy (·.ownerReferences) (fun _ _ => rfl) rfl fun h => by simp [mem_names, h]
  · exact get_foldl_copy (·.resourceVersion) (fun _ _ => rfl) rfl fun h => by simp [mem_names, h]
  · exact get_foldl_copy (·.selfLink) (fun _ _ => rfl) rfl fun h => by simp [mem_names, h]
  · exact get_foldl_copy (·.uid) (fun _ _ => rfl) rfl fun h => by simp [mem_names, h]

/-- Metadata are read back. -/
theorem recovers_toJson (m : ObjectMeta) : reader.Recovers m.toJson m :=
  Recovers.members m.copy m.recovers_takeMember m.copy_comm m.foldl_copy

theorem canonical_toJson (m : ObjectMeta) : m.toJson.Canonical := by
  rw [toJson_eq]
  refine (Json.canonical_fields _).mpr ⟨?_, m.forall_members Json.Canonical (fun _ => trivial)
    (fun _ => trivial) Json.canonical_ofTexts Json.canonical_ofStrings
    OwnerReference.canonical_list fun es _ => ManagedFieldsEntry.canonical_list es⟩
  have hsub := (map_fst_memberOf "annotations" Json.ofTexts m.annotations).append
    (map_fst_memberOf "creationTimestamp" Timestamp.toJson m.creationTimestamp) |>.append
    (map_fst_memberOf "deletionGracePeriodSeconds" Json.ofInt64 m.deletionGracePeriodSeconds)
      |>.append
    (map_fst_memberOf "deletionTimestamp" Timestamp.toJson m.deletionTimestamp) |>.append
    (map_fst_memberOf "finalizers" Json.ofStrings m.finalizers) |>.append
    (map_fst_memberOf "generateName" Json.text m.generateName) |>.append
    (map_fst_memberOf "generation" Json.ofInt64 m.generation) |>.append
    (map_fst_memberOf "labels" Json.ofTexts m.labels) |>.append
    (map_fst_memberOf "managedFields"
      (fun es : List ManagedFieldsEntry => Json.list (es.map ManagedFieldsEntry.toJson))
      m.managedFields) |>.append
    (map_fst_memberOf "name" Json.text m.name) |>.append
    (map_fst_memberOf "namespace" Json.text m.ns) |>.append
    (map_fst_memberOf "ownerReferences"
      (fun os : List OwnerReference => Json.list (os.map OwnerReference.toJson)) m.ownerReferences)
      |>.append
    (map_fst_memberOf "resourceVersion" Json.text m.resourceVersion) |>.append
    (map_fst_memberOf "selfLink" Json.text m.selfLink) |>.append
    (map_fst_memberOf "uid" Json.text m.uid)
  refine Entries.ascending_of_names (by simpa only [members, List.map_append] using hsub) ?_
  decide

theorem plain_toJson {m : ObjectMeta} {n : Nat}
    (h : ∀ es ∈ m.managedFields, ∀ e ∈ es, ∀ f ∈ e.fieldsV1, f.value.Plain n) :
    m.toJson.Plain (n + 3) := by
  rw [toJson_eq]
  exact Json.plain_fields.mpr (m.forall_members (·.Plain (n + 2)) (Json.plain_text · _)
    (Json.plain_ofInt64 · _) (Json.plain_ofTexts · _) (Json.plain_ofStrings · _)
    (OwnerReference.plain_list · n) fun es hes => ManagedFieldsEntry.plain_list (h es hes))

end ObjectMeta
end ClusterKit
