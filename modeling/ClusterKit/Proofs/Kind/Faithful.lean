/-
# Faithful kinds

A kind is faithful if its objects survive being written and read, if on reading
it pays no heed to the names of a type that it does not write itself, and if
its metadata are those under the name `metadata`. Objects of such a kind can be
erased and stored under other metadata: what is restored is the object with
these metadata, whatever the names of the type say.

Key definitions: `Kind.Faithful`.
Key theorems: `Kind.Faithful.restore_of_erase`, `Kind.Faithful.types_of_erase`, `Knife.faithful`.
-/
import ClusterKit.Catalog.Custom
import ClusterKit.Proofs.Wire.Erased

namespace ClusterKit
namespace Kind

/-- The laws of a kind whose reading inverts its writing. -/
structure Faithful (K : Kind α) : Prop where
  /-- Objects are written as objects in order, with their metadata. -/
  written : ∀ a v, K.toJson? a = .ok v → ∃ ms, v = .fields ms ∧ v.Canonical ∧
    Entries.get? "metadata" ms = some (K.metadata a).toJson
  /-- What is written is read as what it was. -/
  reads : ∀ a v, K.toJson? a = .ok v → K.reader.ofJson v = .ok a
  /-- Names of a type that are not written are not heeded. -/
  ignores : ∀ a ms ws, K.toJson? a = .ok (.fields ms) → ¬ (Json.fields ms).NamesType →
    (Json.fields ws).Canonical →
    (∀ name, Erased.isOther name = true → Entries.get? name ws = Entries.get? name ms) →
    K.reader.ofJson (.fields ws) = .ok a
  /-- The metadata can be set. -/
  metadata_withMetadata : ∀ m a, K.metadata (K.withMetadata m a) = m
  /-- Where metadata are set, nothing else is written in another way. -/
  toJson?_withMetadata : ∀ m a v, K.toJson? a = .ok v →
    K.toJson? (K.withMetadata m a) = .ok (.set "metadata" m.toJson v)

namespace Faithful

variable {K : Kind α} (hK : K.Faithful)

include hK

/-- An object is erased with its metadata, and whatever metadata the erased object is
given, the object with these is restored from it. -/
theorem restore_of_erase {r : ApiResource} {a : α} {o : Erased} (h : K.erase r a = .ok o) :
    o.metadata = K.metadata a ∧
      ∀ m, K.restore { o with metadata := m } = .ok (K.withMetadata m a) := by
  obtain ⟨v, hv, h⟩ := bind_eq_ok.mp h
  obtain ⟨e, he, h⟩ := bind_eq_ok.mp h
  obtain ⟨ms, rfl, hc, hm⟩ := hK.written a v hv
  obtain ⟨o', hread, hmeta, hwrite⟩ := Erased.rewritten hc hm
  rw [hread, Except.ok.injEq] at he
  subst he
  rw [pure_eq_ok, Except.ok.injEq] at h
  subst h
  refine ⟨hmeta, ?_⟩
  intro m
  obtain ⟨ws, hws, hwc, hwm, hview⟩ := hwrite r m
  have hset := hK.toJson?_withMetadata m a _ hv
  have hasc := (Json.canonical_fields ms).mp hc
  have hsetAsc : Entries.Ascending (Entries.insert "metadata" m.toJson ms) :=
    Entries.ascending_insert hasc.1
  have hsetOther : ∀ name, name ≠ "metadata" →
      Entries.get? name (Entries.insert "metadata" m.toJson ms) = Entries.get? name ms := by
    intro name hn
    rw [Entries.get?_insert, if_neg hn]
  unfold restore
  rw [hws, ok_bind]
  by_cases hnames : (Json.fields ms).NamesType
  · have heq : Json.fields ws = Json.set "metadata" m.toJson (.fields ms) := by
      apply Json.fields_ext ((Json.canonical_fields ws).mp hwc).1 hsetAsc
      intro name
      by_cases hn : name = "metadata"
      · rw [hn, hwm, Entries.get?_insert, if_pos rfl]
      · rw [hview name hn (.inr hnames), hsetOther name hn]
    rw [heq]
    exact hK.reads _ _ hset
  · apply hK.ignores _ _ _ hset
    · rintro ⟨s, k, hs, hk⟩
      refine hnames ⟨s, k, ?_, ?_⟩
      · exact (hsetOther "apiVersion" (by decide)).symm.trans hs
      · exact (hsetOther "kind" (by decide)).symm.trans hk
    · exact hwc
    · intro name ho
      by_cases hn : name = "metadata"
      · rw [hn, hwm, Entries.get?_insert, if_pos rfl]
      · rw [hview name hn (.inl ho), hsetOther name hn]

/-- An erased object has the names of its type from the written one, or of the resource. -/
theorem types_of_erase {r : ApiResource} {a : α} {o : Erased} {t : TypeMeta}
    (h : K.erase r a = .ok o) (ht : o.types = some t) : t = r.typeMeta ∨
      ∃ v, K.toJson? a = .ok v ∧ v.member? "apiVersion" = some (.text t.apiVersion) ∧
        v.member? "kind" = some (.text t.kind) := by
  obtain ⟨v, hv, h⟩ := bind_eq_ok.mp h
  obtain ⟨e, he, h⟩ := bind_eq_ok.mp h
  obtain ⟨ms, rfl, hc, hm⟩ := hK.written a v hv
  rw [Json.Reader.ofJson_eq_ok, Erased.reader_toDraft hc hm] at he
  cases he
  cases h
  cases hnames : (Erased.takeTypes none none (Erased.others ms)).1 with
  | none =>
    left
    simpa [Erased.stamp, hnames] using ht.symm
  | some names =>
    right
    obtain rfl : names = t := by simpa [Erased.stamp, hnames] using ht
    obtain ⟨hversion, hkind, -⟩ := Erased.takeTypes_eq_some _ hnames
    refine ⟨_, hv, ?_, ?_⟩
    · exact (Erased.get?_others (by decide)).symm.trans (hversion.resolve_left nofun).2
    · exact (Erased.get?_others (by decide)).symm.trans (hkind.resolve_left nofun).2

end Faithful
end Kind

/-! ### Knives -/

namespace Knife

/-- The fields of a knife. -/
def fields : List Json.Reader.Field :=
  [⟨"metadata", true⟩, ⟨"edges", true⟩]

theorem canonical_toJson (k : Knife) : k.toJson.Canonical := by
  refine (Json.canonical_fields _).mpr ⟨?_, ?_⟩
  · exact Entries.ascending_of_names (List.Sublist.refl ["edges", "metadata"]) (by decide)
  · simp [Json.canonical_ofStrings, k.metadata.canonical_toJson]

theorem reader_toDraft (k : Knife) : reader k.toJson.toDraft = .ok k := by
  have hmeta : ObjectMeta.reader k.metadata.toJson.toDraft = .ok k.metadata :=
    k.metadata.recovers_toJson.toDraft
  have hedges : Json.Reader.items Json.Reader.text (Json.ofStrings k.edges).toDraft =
      .ok k.edges := (Json.Reader.recovers_ofStrings k.edges).toDraft
  unfold reader toJson
  rw [Json.Reader.record_toDraft]
  simp [Json.Reader.takeField, takeField, hmeta, hedges]

/-- A knife is read from any object in order that has its fields. -/
theorem ofJson_fields (k : Knife) {ms : List (String × Json)} (hasc : Entries.Ascending ms)
    (hm : Entries.get? "metadata" ms = some k.metadata.toJson)
    (hes : Entries.get? "edges" ms = some (Json.ofStrings k.edges)) :
    reader.ofJson (.fields ms) = .ok k := by
  have hown : ms.filter (fun e => fields.any (·.name == e.1)) =
      [("edges", Json.ofStrings k.edges), ("metadata", k.metadata.toJson)] := by
    refine Entries.eq_of_get?_eq (Entries.ascending_filter hasc)
      ((Json.canonical_fields _).mp k.canonical_toJson).1 fun name => ?_
    rw [Entries.get?_filter_key fun name => fields.any (·.name == name)]
    by_cases hmeta : name = "metadata"
    · rw [hmeta, hm]
      rfl
    · by_cases hedges : name = "edges"
      · rw [hedges, hes]
        rfl
      · simp [fields, Entries.get?, Std.LawfulEqCmp.compare_eq_iff_eq, hmeta, hedges,
          Ne.symm hmeta, Ne.symm hedges]
  rw [Json.Reader.ofJson_eq_ok, ← k.reader_toDraft]
  unfold reader
  rw [Json.Reader.record_filter]
  exact congrArg (fun ms => reader (Json.toDraft (.fields ms))) hown

theorem faithful : asKind.Faithful where
  written k v hv := by
    cases hv
    exact ⟨_, rfl, k.canonical_toJson, rfl⟩
  reads k v hv := by
    cases hv
    exact k.ofJson_fields ((Json.canonical_fields _).mp k.canonical_toJson).1 rfl rfl
  ignores k ms ws hv _ hc hview := by
    cases hv
    apply k.ofJson_fields ((Json.canonical_fields _).mp hc).1
    · exact hview "metadata" rfl
    · exact hview "edges" rfl
  metadata_withMetadata _ _ := rfl
  toJson?_withMetadata m k v hv := by
    cases hv
    rfl

end Knife
end ClusterKit
