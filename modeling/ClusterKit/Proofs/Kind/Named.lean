/-
# Kinds and the names of their types

An object may be written with the names of a type. A watch takes it for one of the
watched kind if these are the names of the resource, or if it is written without any,
since it gets those of the resource then. Knives are written without names, and
namespaces, which describe a resource of their own, with its names. Nothing makes a type
keep to them: knives that describe a resource of their own and are written as forks are
read back just as well.

Key definitions: `Kind.Binds`, `Kind.NamesOnly`, `Kind.IsUnnamed`, `Namespace.copy`,
`Knife.asFork`.
Key theorems: `Kind.Faithful.binds`, `Namespace.faithful`, `Namespace.namesOnly`,
`Knife.faithful_asFork`.
-/
import ClusterKit.Catalog.BuiltIn
import ClusterKit.Proofs.Kind.Faithful
import ClusterKit.Watch.Termination

namespace ClusterKit

open Json.Reader (Recovers)

variable {α : Type} {K : Kind α}

theorem TypeMeta.suits_typeMeta (r : ApiResource) : r.typeMeta.suits r = true := by
  simp [TypeMeta.suits, ApiResource.typeMeta]

namespace Kind

/-- What the kind writes does not name another type than that of the resource. -/
def Binds (K : Kind α) (r : ApiResource) : Prop :=
  ∀ a o t, K.erase r a = .ok o → o.types = some t → t.suits r = true

/-- Where the kind writes both names of a type, the kind is that of the resource, and the
version too, if it is not empty. -/
def NamesOnly (K : Kind α) (r : ApiResource) : Prop :=
  ∀ a v (t : TypeMeta), K.toJson? a = .ok v →
    v.member? "apiVersion" = some (.text t.apiVersion) →
    v.member? "kind" = some (.text t.kind) → t.suits r = true

/-- The kind is written without the names of a type. -/
def IsUnnamed (K : Kind α) : Prop :=
  ∀ a v, K.toJson? a = .ok v → ¬ v.NamesType

theorem IsUnnamed.namesOnly (h : K.IsUnnamed) (r : ApiResource) : K.NamesOnly r :=
  fun a v _ hv hversion hkind => absurd ⟨_, _, hversion, hkind⟩ (h a v hv)

/-- What is written without the names of a type gets those of the resource. -/
theorem Faithful.binds {r : ApiResource} (hK : K.Faithful) (h : K.NamesOnly r) : K.Binds r := by
  intro a o t ho ht
  rcases hK.types_of_erase ho ht with rfl | ⟨v, hv, hversion, hkind⟩
  · exact TypeMeta.suits_typeMeta r
  · exact h a v t hv hversion hkind

end Kind

theorem Knife.isUnnamed : Knife.asKind.IsUnnamed := by
  rintro k v hv ⟨version, kind, hversion, -⟩
  cases hv
  cases hversion

/-! ### Readers of built-in kinds -/

namespace BuiltIn

/-- The names of a type leave what is read as it is. -/
theorem recovers_constant (s : String) (a : α) :
    Recovers (fun d => do
      constant s d
      return a) (.text s) a := by
  intro v hv
  have hread : Json.Reader.text v.toDraft = .ok s := Json.Reader.recovers_text s v hv
  simp only [constant, hread, ok_bind, if_pos]
  rfl

theorem recovers_metadata (m : ObjectMeta) : metadata.Recovers m.toJson m := by
  have hsome := m.recovers_toJson.optional (Json.fields_ne_null _)
  exact hsome.map (·.getD .empty)

end BuiltIn

/-! ### Namespaces -/

namespace Namespace

/-- A part that stands alone in an object is read back. -/
theorem recovers_single (name : String) {r : Json.Reader α} {f : α → Json}
    (h : ∀ a, r.Recovers (f a) a) (hf : ∀ a, f a ≠ .null) (v : Option α) :
    (single name r).Recovers (.fields (memberOf name f v)) v := by
  refine Recovers.members (fun k own => pick name k v own) ?_ (pick_comm name · · v ·) ?_
  · intro e he s
    cases v with
    | none => cases he
    | some a =>
      cases List.mem_singleton.mp he
      simpa only [if_pos, pick] using (h a).optional (hf a)
  · cases v with
    | none => rfl
    | some a => exact if_pos rfl

theorem canonical_single {f : α → Json} {name : String} (h : ∀ a, (f a).Canonical)
    (v : Option α) : (Json.fields (memberOf name f v)).Canonical := by
  refine (Json.canonical_fields _).mpr ⟨?_, forall_mem_memberOf fun a _ => h a⟩
  exact Entries.ascending_of_names (map_fst_memberOf name f v) (List.pairwise_singleton _ _)

/-- The written members of a namespace. -/
def members (n : Namespace) : List (String × Json) :=
  [("apiVersion", .text resource.apiVersion), ("kind", .text resource.kind),
    ("metadata", n.metadata.toJson)] ++
    memberOf "spec" (fun s => .fields (memberOf "finalizers" Json.ofStrings s)) n.spec ++
    memberOf "status" (fun s => .fields (memberOf "phase" .text s)) n.status

theorem toJson_eq (n : Namespace) : n.toJson = .fields n.members :=
  rfl

/-- A namespace with the part `k` as it is in `n`. -/
def copy (n : Namespace) (k : String) (s : Namespace) : Namespace :=
  ⟨pick "metadata" k n.metadata s.metadata, pick "spec" k n.spec s.spec,
    pick "status" k n.status s.status⟩

theorem copy_comm (n : Namespace) (k l : String) (s : Namespace) :
    n.copy k (n.copy l s) = n.copy l (n.copy k s) := by
  simp only [copy]
  congr 1 <;> exact pick_comm _ _ _ _ _

theorem recovers_takeMember (n : Namespace) :
    ∀ e ∈ n.members, ∀ s, Recovers (takeMember s e.1) e.2 (n.copy e.1 s) := by
  have hfinalizers := recovers_single "finalizers" Json.Reader.recovers_ofStrings
    fun _ => Json.list_ne_null _
  have hphase := recovers_single "phase" Json.Reader.recovers_text Json.text_ne_null
  simp only [members, List.forall_mem_append, List.forall_mem_cons]
  refine ⟨⟨⟨?_, ?_, ?_, List.forall_mem_nil _⟩, ?_⟩, ?_⟩
  · exact fun s => BuiltIn.recovers_constant resource.apiVersion s
  · exact fun s => BuiltIn.recovers_constant resource.kind s
  · intro s
    exact (BuiltIn.recovers_metadata n.metadata).map fun m => { s with metadata := m }
  · exact recovers_memberOf hfinalizers (fun _ => Json.fields_ne_null _) (fun _ _ => rfl)
      (fun _ => rfl)
  · exact recovers_memberOf hphase (fun _ => Json.fields_ne_null _) (fun _ _ => rfl)
      (fun _ => rfl)

/-- A namespace is read back. -/
theorem recovers_toJson (n : Namespace) : asKind.reader.Recovers n.toJson n := by
  rw [toJson_eq]
  refine Recovers.members n.copy n.recovers_takeMember n.copy_comm ?_
  obtain ⟨_, _ | _, _ | _⟩ := n <;> rfl

theorem canonical_toJson (n : Namespace) : n.toJson.Canonical := by
  rw [toJson_eq]
  refine (Json.canonical_fields _).mpr ⟨?_, ?_⟩
  · have hsub := ((List.Sublist.refl ["apiVersion", "kind", "metadata"]).append
      (map_fst_memberOf "spec" (fun s => .fields (memberOf "finalizers" Json.ofStrings s))
        n.spec)).append
      (map_fst_memberOf "status" (fun s => .fields (memberOf "phase" .text s)) n.status)
    refine Entries.ascending_of_names
      (by simpa only [members, List.map_append, List.map_cons, List.map_nil] using hsub) ?_
    decide
  · simp only [members, List.forall_mem_append, List.forall_mem_cons]
    refine ⟨⟨⟨trivial, trivial, n.metadata.canonical_toJson, List.forall_mem_nil _⟩, ?_⟩, ?_⟩
    · exact forall_mem_memberOf fun s _ => canonical_single Json.canonical_ofStrings s
    · exact forall_mem_memberOf fun s _ => canonical_single (f := Json.text) (fun _ => trivial) s

theorem faithful : asKind.Faithful where
  written n v hv := by
    cases hv
    exact ⟨_, rfl, n.canonical_toJson, rfl⟩
  reads n v hv := by
    cases hv
    exact Json.Reader.ofJson_eq_ok.mpr n.recovers_toJson.toDraft
  ignores n ms ws hv hnames := by
    cases hv
    exact absurd ⟨_, _, rfl, rfl⟩ hnames
  metadata_withMetadata _ _ := rfl
  toJson?_withMetadata m n v hv := by
    cases hv
    obtain ⟨_, _ | _, _ | _⟩ := n <;> rfl

theorem namesOnly : asKind.NamesOnly resource := by
  rintro n v ⟨version, kind⟩ hv hversion hkind
  cases hv
  cases hversion
  cases hkind
  exact TypeMeta.suits_typeMeta resource

end Namespace

/-! ### Types that write the names of another one -/

namespace Knife

/-- The written knife, under the names of a fork. -/
def toForkJson (k : Knife) : Json :=
  .fields [("apiVersion", .text "v1"), ("edges", Json.ofStrings k.edges), ("kind", .text "Fork"),
    ("metadata", k.metadata.toJson)]

/-- Knives that describe a resource of their own and are written as forks. -/
def asFork : Kind Knife :=
  { asKind with
    identity := ⟨"Knife", some ⟨"test.kubegen.dev", "v1", "Knife", "knives"⟩⟩
    toJson? := fun k => .ok k.toForkJson }

theorem canonical_toForkJson (k : Knife) : k.toForkJson.Canonical := by
  refine (Json.canonical_fields _).mpr ⟨?_, ?_⟩
  · exact Entries.ascending_of_names
      (List.Sublist.refl ["apiVersion", "edges", "kind", "metadata"]) (by decide)
  · simp only [List.forall_mem_cons]
    exact ⟨trivial, Json.canonical_ofStrings _, trivial, k.metadata.canonical_toJson,
      List.forall_mem_nil _⟩

theorem faithful_asFork : asFork.Faithful where
  written k v hv := by
    cases hv
    exact ⟨_, rfl, k.canonical_toForkJson, rfl⟩
  reads k v hv := by
    cases hv
    exact k.ofJson_fields ((Json.canonical_fields _).mp k.canonical_toForkJson).1 rfl rfl
  ignores k ms ws hv hnames := by
    cases hv
    exact absurd ⟨_, _, rfl, rfl⟩ hnames
  metadata_withMetadata _ _ := rfl
  toJson?_withMetadata m k v hv := by
    cases hv
    rfl

end Knife
end ClusterKit
