/-
# Erasing keeps all members

An object that names its type by two texts or not at all, and whose metadata can be read or are
left out, is read as an erased one that lacks nothing: the names of the type and the metadata
have parts of their own, and every other member is among the data. So it is written
again with the members it had, but for the metadata, which are written as metadata are. Names of
a type come in where there were none, and change nothing else. What is written is again an
object of this form, and is read as what it was.

Key definitions: `Erased.Shows`, `Erased.dataIn`.
Key theorems: `Erased.Shows.ofJson`, `Erased.exists_shows_of_toJson?`,
`Erased.erased_objects_keep_all_members`.
-/
import ClusterKit.Object.Kind
import ClusterKit.Proofs.Wire.Recovered

namespace ClusterKit
namespace Erased

open scoped List

/-! ### The parts of an object -/

/-- The members of an object name its type by two texts or not at all, and have metadata that
can be read, or none, which are the empty ones. -/
structure Shows (ms : List (String × Json)) (types : Option TypeMeta) (m : ObjectMeta) : Prop where
  canonical : (Json.fields ms).Canonical
  apiVersion : Entries.get? "apiVersion" ms = types.map fun t => .text t.apiVersion
  kind : Entries.get? "kind" ms = types.map fun t => .text t.kind
  metadata : metadataIn ms = .ok m

/-- The members for which an erased object has no part of their own. -/
def dataIn (ms : List (String × Json)) : List (String × Json) :=
  (others ms).filter fun e => isOther e.1

theorem get?_dataIn_of_isOther {ms : List (String × Json)} {name : String}
    (ho : isOther name = true) (hn : name ≠ "metadata") :
    Entries.get? name (dataIn ms) = Entries.get? name ms := by
  unfold dataIn
  rw [Entries.get?_filter_key isOther, if_pos ho, get?_others hn]

theorem get?_dataIn_of_not_isOther {ms : List (String × Json)} {name : String}
    (ho : isOther name = false) : Entries.get? name (dataIn ms) = none := by
  unfold dataIn
  rw [Entries.get?_filter_key isOther, if_neg (Bool.eq_false_iff.mp ho)]

theorem get?_metadata_dataIn (ms : List (String × Json)) :
    Entries.get? "metadata" (dataIn ms) = none := by
  unfold dataIn
  rw [Entries.get?_filter_key isOther, get?_metadata_others, ite_self]

theorem canonical_dataIn {ms : List (String × Json)} (h : (Json.fields ms).Canonical) :
    (Json.fields (dataIn ms)).Canonical := by
  obtain ⟨hasc, hmem⟩ := (Json.canonical_fields ms).mp h
  have hsub : (dataIn ms).Sublist ms := List.filter_sublist.trans List.filter_sublist
  exact (Json.canonical_fields _).mpr ⟨hasc.sublist hsub, fun e he => hmem e (hsub.subset he)⟩

/-- A name that has to do with the type is one of two. -/
theorem eq_of_not_isOther {name : String} (h : isOther name = false) :
    name = "apiVersion" ∨ name = "kind" := by
  simp only [isOther, Bool.and_eq_false_iff, bne_eq_false_iff_eq] at h
  exact h

namespace Shows

variable {ms : List (String × Json)} {types : Option TypeMeta} {m : ObjectMeta}
  (h : Shows ms types m)

include h

/-- A name of the type has the text that the type has. -/
theorem get?_of_not_isOther {name : String} (ho : isOther name = false) :
    Entries.get? name ms = Entries.get? name (typeMembers types) := by
  rcases eq_of_not_isOther ho with rfl | rfl
  · rw [h.apiVersion]
    cases types <;> rfl
  · rw [h.kind]
    cases types <;> rfl

/-- All members but the metadata are those that name the type and the data. -/
theorem others_perm : others ms ~ typeMembers types ++ dataIn ms := by
  have hasc : Entries.Ascending (others ms) :=
    Entries.ascending_filter ((Json.canonical_fields ms).mp h.canonical).1
  -- both are in order, so it is enough that they have the same at each name
  have htypes : (others ms).filter (fun e => !isOther e.1) = typeMembers types := by
    refine Entries.eq_of_get?_eq (Entries.ascending_filter hasc) (ascending_typeMembers types) ?_
    intro name
    rw [Entries.get?_filter_key (fun k => !isOther k)]
    cases ho : isOther name with
    | true => rw [if_neg (by simp), get?_typeMembers_of_isOther ho]
    | false =>
      have hn : name ≠ "metadata" := by
        rintro rfl
        cases ho
      rw [if_pos (by simp), get?_others hn, h.get?_of_not_isOther ho]
  have hsplit := List.filter_append_perm (fun e : String × Json => isOther e.1) (others ms)
  rw [htypes] at hsplit
  exact hsplit.symm.trans List.perm_append_comm

/-- The object is read as its three parts, in whatever order its members come. -/
theorem ofJson {ps : List (String × Json)} (hp : ps ~ ms) :
    reader.ofJson (.fields ps) = .ok ⟨types, m, .fields (dataIn ms)⟩ := by
  obtain ⟨hasc, hmem⟩ := (Json.canonical_fields ms).mp h.canonical
  have hmeta : metadataIn ps = .ok m := by
    have hsame := h.metadata
    unfold metadataIn at hsame ⊢
    rwa [Entries.get?_of_perm hp hasc]
  have hothers : others ps ~ typeMembers types ++ dataIn ms := (hp.filter _).trans h.others_perm
  obtain ⟨rest, htypes, hrest⟩ := takeTypes_of_perm hothers
    fun e he => (List.mem_filter.mp he).2
  have hdata : Json.object rest = .fields (dataIn ms) := congrArg Json.fields
    (Entries.ofList_of_perm hrest ((Json.canonical_fields _).mp (canonical_dataIn h.canonical)).1)
  rw [Json.Reader.ofJson_eq_ok, reader_toDraft_of_nodup
    ((hp.map Prod.fst).nodup_iff.mpr hasc.nodup) fun e he => hmem e (hp.mem_iff.mp he), hmeta]
  simp only [ok_bind, pure_eq_ok, ofMembers, List.reverse_reverse, htypes, hdata,
    Option.getD_some]

end Shows

/-! ### Writing the parts -/

/-- What an erased object with the data of some members is written as has the same data, and
shows its names of a type and its metadata. -/
theorem exists_shows_of_toJson? {ms : List (String × Json)} (hc : (Json.fields ms).Canonical)
    (types : Option TypeMeta) (m : ObjectMeta) :
    ∃ ws, (Erased.mk types m (.fields (dataIn ms))).toJson? = .ok (.fields ws) ∧
      Shows ws types m ∧ dataIn ws = dataIn ms ∧
      Entries.get? "metadata" ws = some m.toJson ∧
      ∀ name, name ≠ "metadata" → Entries.get? name ws =
        Entries.get? name (if isOther name then ms else typeMembers types) := by
  obtain ⟨ws, hws, hcanonical, hmeta, hview⟩ :=
    toJson?_fields types m (canonical_dataIn hc) (get?_metadata_dataIn ms)
  have hget : ∀ name, name ≠ "metadata" → Entries.get? name ws =
      Entries.get? name (if isOther name then ms else typeMembers types) := by
    intro name hn
    rw [hview name hn]
    cases ho : isOther name with
    | true =>
      rw [get?_dataIn_of_isOther ho hn, get?_typeMembers_of_isOther ho, Option.or_none]
      rfl
    | false =>
      rw [get?_dataIn_of_not_isOther ho, Option.none_or]
      rfl
  refine ⟨ws, hws, ⟨hcanonical, ?_, ?_, ?_⟩, ?_, hmeta, hget⟩
  · rw [hget "apiVersion" (by decide)]
    cases types <;> rfl
  · rw [hget "kind" (by decide)]
    cases types <;> rfl
  · unfold metadataIn
    rw [hmeta]
    exact m.recovers_toJson.toDraft
  · refine Entries.eq_of_get?_eq ((Json.canonical_fields _).mp (canonical_dataIn hcanonical)).1
      ((Json.canonical_fields _).mp (canonical_dataIn hc)).1 fun name => ?_
    by_cases hn : name = "metadata"
    · rw [hn, get?_metadata_dataIn, get?_metadata_dataIn]
    · cases ho : isOther name with
      | true =>
        rw [get?_dataIn_of_isOther ho hn, get?_dataIn_of_isOther ho hn, hget name hn, ho]
        rfl
      | false => rw [get?_dataIn_of_not_isOther ho, get?_dataIn_of_not_isOther ho]

/-- **Erasing keeps all members.** An object that names its type by two texts or not at all, with
metadata that can be read or none, is read as an erased one, in whatever order its members come.
This is written with the members that the object had, but for the metadata, which are written as
metadata are, and is read back from that. A value of any kind that is written as such an object is
erased to the same, with the names of the kind of a resource if it has none: what this adds to
the written object are the names that are missing there. To erase it again, for whatever
resource, changes nothing. -/
theorem erased_objects_keep_all_members {ms : List (String × Json)} {types : Option TypeMeta}
    {m : ObjectMeta} (h : Shows ms types m) :
    let o : Erased := ⟨types, m, .fields (dataIn ms)⟩
    let written := Json.set "metadata" m.toJson (.fields ms)
    (∀ ps, ps ~ ms → reader.ofJson (.fields ps) = .ok o) ∧
    o.toJson? = .ok written ∧
    reader.ofJson written = .ok o ∧
    ∀ {β : Type u} (K : Kind β) (b : β), K.toJson? b = .ok (.fields ms) → ∀ r : ApiResource,
      let e : Erased := ⟨some (types.getD r.typeMeta), m, .fields (dataIn ms)⟩
      K.erase r b = .ok e ∧
      (∃ ws, e.toJson? = .ok (.fields ws) ∧ (Json.fields ws).Canonical ∧
        ∀ name, Entries.get? name ws =
          (written.member? name).or (Entries.get? name (typeMembers (some r.typeMeta)))) ∧
      ∀ r', asKind.erase r' e = .ok e := by
  intro o written
  have hasc := ((Json.canonical_fields ms).mp h.canonical).1
  have hset : ∀ name, written.member? name =
      if name = "metadata" then some m.toJson else Entries.get? name ms :=
    fun name => Entries.get?_insert
  have hown : ∀ name, name ≠ "metadata" → Entries.get? name ms =
      Entries.get? name (if isOther name then ms else typeMembers types) := by
    intro name hn
    cases ho : isOther name with
    | true => rfl
    | false => exact h.get?_of_not_isOther ho
  obtain ⟨ws, hws, hshows, hdata, hmeta, hget⟩ := exists_shows_of_toJson? h.canonical types m
  -- what is written is told by its members, which come from `ms` wherever they are not metadata
  have hwritten : written = .fields ws := by
    refine Json.fields_ext (Entries.ascending_insert hasc)
      ((Json.canonical_fields ws).mp hshows.canonical).1 fun name => (hset name).trans ?_
    by_cases hn : name = "metadata"
    · rw [if_pos hn, hn, hmeta]
    · rw [if_neg hn, hget name hn, hown name hn]
  refine ⟨fun ps hps => h.ofJson hps, hwritten ▸ hws, ?_, ?_⟩
  · rw [hwritten, hshows.ofJson (.refl ws), hdata]
  intro β K b hb r e
  obtain ⟨us, hus, hstamped, hrest, hname, hmember⟩ :=
    exists_shows_of_toJson? h.canonical (some (types.getD r.typeMeta)) m
  refine ⟨?_, ⟨us, hus, hstamped.canonical, fun name => ?_⟩, fun r' => ?_⟩
  · unfold Kind.erase
    rw [hb, ok_bind, h.ofJson (.refl ms)]
    cases types <;> rfl
  · by_cases hn : name = "metadata"
    · rw [hset, if_pos hn, hn, hname]
      rfl
    · rw [hset, if_neg hn, hmember name hn, hown name hn]
      cases ho : isOther name with
      | true =>
        rw [get?_typeMembers_of_isOther ho, Option.or_none]
        rfl
      | false =>
        cases types with
        | none => rfl
        | some t =>
          rcases eq_of_not_isOther ho with rfl | rfl
          · rfl
          · rfl
  · show (do
      let v ← e.toJson?
      let o ← reader.ofJson v
      return o.stamp r') = .ok e
    rw [hus, ok_bind, hstamped.ofJson (.refl us), hrest]
    rfl

/-- A widget that does not name its type, with odd metadata among the data of an object whose own
metadata they take the place of, is erased with all that it has. It was made on a leap day, which
is told by a clock that is an hour ahead. -/
theorem widget_among_data_is_erased :
    let spec : List (String × Json) := [("spec", .fields [("size", .ofNat 2)]), ("status", .null)]
    let ms : List (String × Json) :=
      ("metadata", .fields [("color", .text "red"),
        ("creationTimestamp", .text "2024-03-01T00:30:00+01:00"),
        ("managedFields", .list [.fields [("fieldsV1", .fields [("f:spec", .fields [])])]]),
        ("name", .text "w"), ("uid", .null)]) :: spec
    let managed : FieldsV1 := ⟨.fields [("f:spec", .fields [])], by
      simp [Json.Canonical, Json.CanonicalMembers, Entries.Ascending], nofun⟩
    let m : ObjectMeta := { ObjectMeta.named "w" with
      creationTimestamp := Timestamp.parse? "2024-02-29T23:30:00Z"
      managedFields := some [⟨none, none, some managed, none, none, none, none⟩] }
    let widgets : ApiResource := ⟨"example.com", "v1", "Widget", "widgets"⟩
    let raw : Erased := ⟨none, .named "raw", .fields ms⟩
    Shows ms none m ∧ asKind.toJson? raw = .ok (.fields ms) ∧
      reader.ofJson (.fields ms.reverse) = .ok ⟨none, m, .fields spec⟩ ∧
      asKind.erase widgets raw =
        .ok ⟨some ⟨"example.com/v1", "Widget"⟩, m, .fields spec⟩ := by
  intro spec ms managed m widgets raw
  have hshows : Shows ms none m := by
    refine ⟨(Json.canonical_fields ms).mpr ⟨?_, ?_⟩, rfl, rfl, by decide +kernel⟩
    · exact Entries.ascending_of_names (List.Sublist.refl ["metadata", "spec", "status"])
        (by decide)
    · refine List.forall_mem_cons.mpr ⟨(Json.canonical_fields _).mpr ⟨?_, ?_⟩, ?_⟩
      · exact Entries.ascending_of_names (List.Sublist.refl
          ["color", "creationTimestamp", "managedFields", "name", "uid"]) (by decide)
      · simp [Json.Canonical, Json.CanonicalItems, Json.CanonicalMembers, Entries.Ascending]
      · simp [spec, Json.Canonical, Json.CanonicalMembers, Json.ofNat, Entries.Ascending]
  have hraw : asKind.toJson? raw = .ok (.fields ms) := by decide +kernel
  have hdata : dataIn ms = spec := rfl
  obtain ⟨hread, -, -, herase⟩ := erased_objects_keep_all_members hshows
  have hreversed := hread ms.reverse ms.reverse_perm
  have herased := (herase asKind raw hraw widgets).1
  rw [hdata] at hreversed herased
  exact ⟨hshows, hraw, hreversed, herased⟩

end Erased
end ClusterKit
