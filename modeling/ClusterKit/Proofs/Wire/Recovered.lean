/-
# Events survive writing

Erased objects, bookmarks and the events about them are read back from what is written of
them, in whatever order the members come. An object has its own names of a type, its metadata
and its data side by side, so that its data must not have a member of these names. What is
no member of its own is kept in the order of the text, which the type and the data do
not depend on.

Key definitions: `Erased.Fits`, `WatchEvent.Sendable`.
Key theorems: `Erased.exists_written`, `Bookmark.recovers_toJson`, `WatchEvent.exists_written`.
-/
import ClusterKit.Proofs.Wire.Erased
import ClusterKit.Proofs.Wire.Names
import ClusterKit.Proofs.Wire.Status

namespace ClusterKit

open Entries (valuesAt)
open Json.Reader (Recovers recovers_text)
open scoped List

namespace Erased

/-! ### Members in any order -/

/-- Without the names of a type, all members are left. -/
theorem takeTypes_of_isOther {ms : List (String × Json)} (h : ∀ e ∈ ms, isOther e.1 = true) :
    takeTypes none none ms = (none, ms) := by
  induction ms with
  | nil => rfl
  | cons e ms ih =>
    obtain ⟨hfirst, hrest⟩ := List.forall_mem_cons.mp h
    simp only [isOther, Bool.and_eq_true, bne_iff_ne, ne_eq] at hfirst
    unfold takeTypes
    rw [if_neg hfirst.1, if_neg hfirst.2, ih hrest]

/-- The names of a type are found among other members, which are left. -/
theorem takeTypes_of_perm {types : Option TypeMeta} {ms ds : List (String × Json)}
    (hp : ms ~ typeMembers types ++ ds) (hds : ∀ e ∈ ds, isOther e.1 = true) :
    ∃ rest, takeTypes none none ms = (types, rest) ∧ rest ~ ds := by
  cases types with
  | none => exact ⟨ms, takeTypes_of_isOther fun e he => hds e (hp.mem_iff.mp he), hp⟩
  | some t =>
    have hnone : ∀ name, isOther name = false → valuesAt name ds = [] := by
      intro name hname
      refine List.filterMap_eq_nil_iff.mpr fun e he => if_neg fun heq => ?_
      rw [← heq, hds e he] at hname
      cases hname
    have hvalue : ∀ name value, valuesAt name (typeMembers (some t) ++ ds) = [value] →
        valuesAt name ms = [value] :=
      fun name value h => List.perm_singleton.mp (h ▸ hp.filterMap _)
    have hversion : valuesAt "apiVersion" ms = [.text t.apiVersion] := by
      refine hvalue _ _ ?_
      rw [Entries.valuesAt_append, hnone _ rfl]
      rfl
    have hkind : valuesAt "kind" ms = [.text t.kind] := by
      refine hvalue _ _ ?_
      rw [Entries.valuesAt_append, hnone _ rfl]
      rfl
    have htypes : (takeTypes none none ms).1 = some t :=
      (takeTypes_eq_some_iff ms none none).mpr ⟨hversion, hkind⟩
    have hothers : (typeMembers (some t) ++ ds).filter (fun e => isOther e.1) = ds := by
      rw [List.filter_append, List.filter_eq_self.mpr hds]
      rfl
    refine ⟨_, Prod.ext htypes (takeTypes_eq_some ms htypes).2.2, ?_⟩
    exact hothers ▸ hp.filter _

/-- What is read of an object with the names of a type, metadata and data, whatever the order of
its members. -/
theorem exists_members {types : Option TypeMeta} {ds ns : List (String × Json)} {w : Json}
    {r : Json.Reader β} {b : β} (take : σ → String → Json.Draft → Except Json.ReadError σ)
    (state : Option β → List (String × Json) → σ)
    (hown : ∀ os d, take (state none os) "metadata" d = do
      let b ← r d
      return state (some b) os)
    (hother : ∀ b os k d, k ≠ "metadata" → take (state b os) k d = do
      let v ← Json.Reader.value d
      return state b ((k, v) :: os))
    (hw : r.Recovers w b) (hns : ns ~ typeMembers types ++ ("metadata", w) :: ds)
    (hds : ∀ e ∈ ds, (isOther e.1 = true ∧ e.1 ≠ "metadata") ∧ e.2.Canonical) {v : Json}
    (hv : v.Reordered (.fields ns)) :
    ∃ os rest, Json.Reader.members take (state none []) v.toDraft = .ok (state (some b) os) ∧
      takeTypes none none os.reverse = (types, rest) ∧ rest ~ ds := by
  obtain ⟨ms, qs, rfl, hms, hqs⟩ := hv.exists_members
  have hqs' : qs ~ ("metadata", w) :: (typeMembers types ++ ds) :=
    (hqs.trans hns).trans List.perm_middle
  obtain ⟨as, bs, rfl⟩ := List.append_of_mem (hqs'.mem_iff.mpr List.mem_cons_self)
  have hp : as ++ bs ~ typeMembers types ++ ds := (List.perm_middle.symm.trans hqs').cons_inv
  have hmember : ∀ e ∈ typeMembers types ++ ds, e.1 ≠ "metadata" ∧ e.2.Canonical := by
    refine List.forall_mem_append.mpr ⟨?_, fun e he => ⟨(hds e he).1.2, (hds e he).2⟩⟩
    cases types <;> simp [typeMembers, Json.Canonical]
  obtain ⟨rest, htypes, hrest⟩ := takeTypes_of_perm hp fun e he => (hds e he).1.1
  refine ⟨(as ++ bs).reverse, rest, ?_, by rw [List.reverse_reverse, htypes], hrest⟩
  exact Json.Reader.members_apart state hown hother hms hw
    (fun e he => (hmember e (hp.mem_iff.mp he)).1) fun e he => (hmember e (hp.mem_iff.mp he)).2

/-! ### Objects -/

/-- The data are an object, which lists its members in the order in which objects are kept, as do
all objects inside of it. It has no member that an erased object has of its own, its numbers are
whole ones of 64 bits, and it is no deeper than a reader of events goes. What the metadata say of
managed fields, if anything, has such numbers and is no deeper, either. -/
structure Fits (o : Erased) : Prop where
  object : ∃ ds, o.data = .fields ds
  canonical : o.data.Canonical
  apart : ∀ name ∈ ["apiVersion", "kind", "metadata"], o.data.member? name = none
  plain : o.data.Plain (Json.Document.maxDepth - 1)
  managed : ∀ es ∈ o.metadata.managedFields, ∀ e ∈ es, ∀ f ∈ e.fieldsV1,
    f.value.Plain (Json.Document.maxDepth - 5)

section

variable {types : Option TypeMeta} {m : ObjectMeta} {ds : List (String × Json)}
  (h : (Erased.mk types m (.fields ds)).Fits)

include h

theorem Fits.name_notMem {e : String × Json} (he : e ∈ ds) :
    e.1 ∉ ["apiVersion", "kind", "metadata"] := by
  intro hname
  obtain ⟨v, hv⟩ := Entries.exists_get?_of_mem he
  have hnone : Entries.get? e.1 ds = none := h.apart e.1 hname
  rw [hnone] at hv
  cases hv

theorem Fits.isOther {e : String × Json} (he : e ∈ ds) :
    Erased.isOther e.1 = true ∧ e.1 ≠ "metadata" := by
  simpa [Erased.isOther, and_assoc] using h.name_notMem he

/-- The members of the written object are those of its three parts, each name once. -/
theorem Fits.written : ∃ ws, (Erased.mk types m (.fields ds)).toJson? = .ok (.fields ws) ∧
    ws ~ typeMembers types ++ ("metadata", m.toJson) :: ds := by
  refine ⟨_, rfl, ?_⟩
  rw [List.append_assoc]
  refine Entries.ofList_perm ?_
  have hown : (((typeMembers types ++ [("metadata", m.toJson)]).map Prod.fst)).Sublist
      ["apiVersion", "kind", "metadata"] := by
    cases types with
    | none => exact .cons _ (.cons _ (.refl _))
    | some t => exact .refl _
  rw [← List.singleton_append, ← List.append_assoc, List.map_append]
  refine List.nodup_append.mpr ⟨hown.nodup (by decide), ?_, ?_⟩
  · exact ((Json.canonical_fields ds).mp h.canonical).1.nodup
  · rintro k hk l hl rfl
    obtain ⟨e, he, rfl⟩ := List.mem_map.mp hl
    exact h.name_notMem he (hown.subset hk)

end

/-- An object can be written, so that it is read back. -/
theorem exists_written {o : Erased} (h : o.Fits) : ∃ w, o.toJson? = .ok w ∧
    reader.Recovers w o ∧ w.Plain (Json.Document.maxDepth - 1) := by
  obtain ⟨types, m, data⟩ := o
  obtain ⟨ds, rfl⟩ := h.object
  obtain ⟨ws, hws, hp⟩ := h.written
  obtain ⟨hasc, hcanonical⟩ := (Json.canonical_fields ds).mp h.canonical
  refine ⟨.fields ws, hws, fun v hv => ?_, Json.plain_fields.mpr fun e he => ?_⟩
  · obtain ⟨os, rest, hread, htypes, hrest⟩ := exists_members takeMember Members.mk
      (fun _ _ => rfl) (fun _ _ _ _ hne => if_neg hne) m.recovers_toJson hp
      (fun e he => ⟨h.isOther he, hcanonical e he⟩) hv
    have hdata : Json.object rest = .fields ds :=
      congrArg Json.fields (Entries.ofList_of_perm hrest hasc)
    unfold reader
    rw [hread]
    simp only [ok_bind, pure_eq_ok, ofMembers, htypes, hdata, Option.getD_some]
  · have hplain := Json.plain_fields.mp h.plain
    rcases List.mem_append.mp (hp.mem_iff.mp he) with htype | hrest
    · cases types with
      | none => cases htype
      | some t =>
        have htext : e.2 = .text t.apiVersion ∨ e.2 = .text t.kind := by
          simp only [typeMembers, List.mem_cons, List.not_mem_nil, or_false] at htype
          exact htype.imp (congrArg Prod.snd) (congrArg Prod.snd)
        rcases htext with htext | htext <;> exact htext ▸ Json.plain_text _ _
    · rcases List.mem_cons.mp hrest with rfl | hdata
      · exact (ObjectMeta.plain_toJson h.managed).mono (by decide)
      · exact hplain e hdata

end Erased

/-! ### Bookmarks -/

namespace Bookmark

theorem recovers_version (v : String) :
    version.Recovers (.fields [("resourceVersion", .text v)]) v := by
  refine Recovers.record (fun _ _ => some v) (by decide) (.refl _) ?_ (fun _ _ _ => rfl) rfl
  exact List.forall_mem_singleton.mpr fun _ => (recovers_text v).map some

/-- A bookmark is read back. -/
theorem recovers_toJson (b : Bookmark) : reader.Recovers b.toJson b := by
  intro v hv
  have hmembers : [("apiVersion", .text b.types.apiVersion), ("kind", .text b.types.kind),
      ("metadata", .fields [("resourceVersion", .text b.resourceVersion)])] ~
      Erased.typeMembers (some b.types) ++
        [("metadata", .fields [("resourceVersion", .text b.resourceVersion)])] := .refl _
  obtain ⟨os, rest, hread, htypes, -⟩ := Erased.exists_members takeMember Members.mk
    (fun _ _ => rfl) (fun _ _ _ _ hne => if_neg hne) (recovers_version b.resourceVersion)
    hmembers (List.forall_mem_nil _) hv
  unfold reader
  rw [hread, ok_bind, htypes]
  rfl

theorem plain_toJson (b : Bookmark) (n : Nat) : b.toJson.Plain (n + 2) := by
  refine Json.plain_fields.mpr fun m hm => ?_
  simp only [List.mem_cons, List.not_mem_nil, or_false] at hm
  rcases hm with rfl | rfl | rfl
  · exact Json.plain_text _ _
  · exact Json.plain_text _ _
  · exact Json.plain_fields.mpr (List.forall_mem_singleton.mpr (Json.plain_text _ n))

end Bookmark

/-! ### Events -/

namespace WatchEvent

/-- The event can be sent: what it carries is read back from what is written of it. -/
def Sendable : WatchEvent Erased → Prop
  | .added o => o.Fits
  | .modified o => o.Fits
  | .deleted o => o.Fits
  | .bookmark _ => True
  | .error s => s.Fits

theorem exists_written_payload {e : WatchEvent Erased} (h : e.Sendable) : ∃ w,
    e.payload? Erased.toJson? = .ok w ∧ (payloadReader Erased.reader e.type).Recovers w e ∧
      w.Plain (Json.Document.maxDepth - 1) := by
  have hobject {o : Erased} (ho : o.Fits) (mk : Erased → WatchEvent Erased) : ∃ w,
      o.toJson? = .ok w ∧ Recovers (fun d => do
        let o ← Erased.reader d
        return mk o) w (mk o) ∧ w.Plain (Json.Document.maxDepth - 1) := by
    obtain ⟨w, hw, hrecovers, hplain⟩ := Erased.exists_written ho
    exact ⟨w, hw, hrecovers.map mk, hplain⟩
  cases e with
  | added o => exact hobject h .added
  | modified o => exact hobject h .modified
  | deleted o => exact hobject h .deleted
  | bookmark b => exact ⟨b.toJson, rfl, b.recovers_toJson.map WatchEvent.bookmark, b.plain_toJson _⟩
  | error s =>
    exact ⟨s.toJson, rfl, (Status.recovers_toJson h).map WatchEvent.error,
      (Status.plain_toJson h).mono (by decide)⟩

/-- An event can be written, so that it is read back. -/
theorem exists_written {e : WatchEvent Erased} (h : e.Sendable) : ∃ w,
    e.toJson? Erased.toJson? = .ok w ∧ (reader Erased.reader).Recovers w e ∧
      w.Plain Json.Document.maxDepth := by
  obtain ⟨w, hw, hrecovers, hplain⟩ := exists_written_payload h
  refine ⟨.fields [("object", w), ("type", .text e.type.name)], ?_,
    recovers_of_payload Erased.reader hrecovers, Json.plain_fields.mpr ?_⟩
  · rw [toJson?, hw]
    rfl
  · intro m hm
    simp only [List.mem_cons, List.not_mem_nil, or_false] at hm
    rcases hm with rfl | rfl
    · exact hplain
    · exact Json.plain_text _ _

end WatchEvent
end ClusterKit
