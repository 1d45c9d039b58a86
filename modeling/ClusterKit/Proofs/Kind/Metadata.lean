/-
# Kinds that read metadata

An object has its metadata under the name `metadata`, and a kind reads them from there,
whatever other members it takes or passes over. This is so for every known kind, since taking
another member leaves alone the part that the metadata have in what has been read so far. An
erased object whose data have no metadata of their own, as all that are read, is therefore
restored with the metadata that it has, if it is restored at all.

Key definitions: `Kind.ReadsMetadata`, `Erased.Tidy`.
Key theorems: `Json.Reader.view_of_members`, `KnownKind.readsMetadata`, `Erased.tidy_of_reader`,
`Kind.ReadsMetadata.metadata_of_restore`.
-/
import ClusterKit.Catalog.Index
import ClusterKit.Proofs.Wire.Erased
import ClusterKit.Proofs.Wire.Names

namespace ClusterKit

/-- Whatever the kind reads has the metadata that are written under their name. -/
def Kind.ReadsMetadata (K : Kind α) : Prop :=
  ∀ ms m a, Entries.Ascending ms → Entries.get? "metadata" ms = some m.toJson →
    K.reader.ofJson (.fields ms) = .ok a → K.metadata a = m

/-! ### Members one by one -/

namespace Json
namespace Reader

/-- What each member that is taken keeps holds in the end. -/
theorem members_induction {take : σ → String → Draft → Except ReadError σ} {P : σ → Prop}
    (hstep : ∀ s k d s', take s k d = .ok s' → P s → P s') {s t : σ} {d : Draft}
    (h : members take s d = .ok t) (hs : P s) : P t := by
  have hfold : ∀ (close : Option ReadError) (ms : List (Name × Draft)) (s : σ),
      foldMembers take close ms s = .ok t → P s → P t := by
    intro close ms
    induction ms with
    | nil =>
      intro s h hs
      cases close with
      | none =>
        cases h
        exact hs
      | some e => cases h
    | cons e ms ih =>
      intro s h hs
      obtain ⟨k, -, h⟩ := bind_eq_ok.mp h
      obtain ⟨u, hu, h⟩ := bind_eq_ok.mp h
      exact ih u h (hstep s k e.2 u hu hs)
  cases d with
  | fields deep ms close =>
    have hif : (if deep then Except.error .malformed else foldMembers take close ms s) = .ok t := h
    split at hif
    · cases hif
    · exact hfold close ms s hif hs
  | _ => cases h

section

variable {take : σ → String → Draft → Except ReadError σ} {view : σ → β} {name : String}
  (hkeep : ∀ s k d s', k ≠ name → take s k d = .ok s' → view s' = view s)

include hkeep

/-- What only the member `name` changes stays as it is without this member. -/
theorem view_of_foldlM {ms : List (String × Json)} (hms : ∀ e ∈ ms, e.1 ≠ name) :
    ∀ {s s' : σ}, ms.foldlM (fun s e => take s e.1 e.2.toDraft) s = .ok s' → view s' = view s := by
  induction ms with
  | nil =>
    intro s s' h
    cases h
    rfl
  | cons e ms ih =>
    intro s s' h
    rw [List.foldlM_cons] at h
    obtain ⟨t, ht, h⟩ := bind_eq_ok.mp h
    obtain ⟨hname, hms⟩ := List.forall_mem_cons.mp hms
    exact (ih hms h).trans (hkeep s e.1 _ t hname ht)

variable {w : Json} {b : β} {ms : List (String × Json)}

/-- What only the member `name` changes is in the end what that member makes of it. -/
theorem view_of_members (hown : ∀ s s', take s name w.toDraft = .ok s' → view s' = b)
    (hasc : Entries.Ascending ms) (hw : Entries.get? name ms = some w) {s s' : σ}
    (h : members take s (toDraft (.fields ms)) = .ok s') : view s' = b := by
  obtain ⟨as, bs, rfl⟩ := List.append_of_mem (Entries.mem_of_get? hw)
  -- the name comes once, so nothing behind its member changes the view again
  have hbs : ∀ e ∈ bs, e.1 ≠ name := by
    intro e he heq
    have hlt := (List.pairwise_cons.mp (List.pairwise_append.mp hasc).2.1).1 e he
    rw [heq] at hlt
    simp at hlt
  rw [members_toDraft, List.foldlM_append] at h
  obtain ⟨t, -, h⟩ := bind_eq_ok.mp h
  rw [List.foldlM_cons] at h
  obtain ⟨u, hu, h⟩ := bind_eq_ok.mp h
  exact (view_of_foldlM hkeep hbs h).trans (hown t u hu)

end

/-- A member is passed over if it is no field, and else read. -/
theorem takeField_eq_ok {fields : List Field} {read : String → Draft → σ → Except ReadError σ}
    {s s' : σ × List String} {k : String} {d : Draft}
    (h : takeField fields read s k d = .ok s') :
    s' = s ∧ fields.any (·.name == k) = false ∨ read k d s.1 = .ok s'.1 := by
  unfold takeField at h
  split at h
  · split at h
    · cases h
    · obtain ⟨t, ht, h⟩ := bind_eq_ok.mp h
      cases h
      exact .inr ht
  · rename_i hany
    obtain ⟨_, _, h⟩ := bind_eq_ok.mp h
    cases h
    exact .inl ⟨rfl, Bool.eq_false_iff.mpr hany⟩

/-- A record is made of a state in which the field `name` is what its member makes of it. -/
theorem view_of_record {fields : List Field} {read : String → Draft → σ → Except ReadError σ}
    {view : σ → β} {name : String} {w : Json} {b : β} {init : σ} {finish : σ → Except ReadError α}
    {a : α} {ms : List (String × Json)} (hname : fields.any (·.name == name) = true)
    (hkeep : ∀ k d s s', k ≠ name → read k d s = .ok s' → view s' = view s)
    (hown : ∀ s s', read name w.toDraft s = .ok s' → view s' = b)
    (hasc : Entries.Ascending ms) (hw : Entries.get? name ms = some w)
    (h : record fields read init finish (toDraft (.fields ms)) = .ok a) :
    ∃ s, finish s = .ok a ∧ view s = b := by
  obtain ⟨s, hs, hfinish⟩ := bind_eq_ok.mp h
  refine ⟨s.1, hfinish, ?_⟩
  have hkept : ∀ s k d s', k ≠ name → takeField fields read s k d = .ok s' →
      view s'.1 = view s.1 := by
    intro s k d s' hk h
    rcases takeField_eq_ok h with ⟨rfl, -⟩ | hread
    · rfl
    · exact hkeep k d s.1 s'.1 hk hread
  have hmade : ∀ s s', takeField fields read s name w.toDraft = .ok s' → view s'.1 = b := by
    intro s s' h
    rcases takeField_eq_ok h with ⟨-, hany⟩ | hread
    · rw [hname] at hany
      cases hany
    · exact hown s.1 s'.1 hread
  exact view_of_members hkept hmade hasc hw hs

end Reader
end Json

/-! ### Known kinds -/

namespace Kind

theorem readsMetadata_of_members {K : Kind α}
    {take : α → String → Json.Draft → Except Json.ReadError α} {init : α}
    (hreader : K.reader = Json.Reader.members take init)
    (hkeep : ∀ s k d s', k ≠ "metadata" → take s k d = .ok s' → K.metadata s' = K.metadata s)
    (hown : ∀ m s s', take s "metadata" m.toJson.toDraft = .ok s' → K.metadata s' = m) :
    K.ReadsMetadata := by
  intro ms m a hasc hm h
  rw [hreader] at h
  exact Json.Reader.view_of_members hkeep (hown m) hasc hm (Json.Reader.ofJson_eq_ok.mp h)

theorem readsMetadata_of_record {K : Kind α} {fields : List Json.Reader.Field}
    {read : String → Json.Draft → σ → Except Json.ReadError σ} {init : σ}
    {finish : σ → Except Json.ReadError α} (view : σ → β) (f : ObjectMeta → β)
    (hreader : K.reader = Json.Reader.record fields read init finish)
    (hname : fields.any (·.name == "metadata") = true)
    (hkeep : ∀ k d s s', k ≠ "metadata" → read k d s = .ok s' → view s' = view s)
    (hown : ∀ m s s', read "metadata" m.toJson.toDraft s = .ok s' → view s' = f m)
    (hfinish : ∀ m s a, finish s = .ok a → view s = f m → K.metadata a = m) :
    K.ReadsMetadata := by
  intro ms m a hasc hm h
  rw [hreader] at h
  obtain ⟨s, hs, hview⟩ := Json.Reader.view_of_record hname hkeep (hown m) hasc hm
    (Json.Reader.ofJson_eq_ok.mp h)
  exact hfinish m s a hs hview

end Kind

theorem BuiltIn.metadata_toDraft (m : ObjectMeta) : metadata m.toJson.toDraft = .ok m := by
  have hread : Json.Reader.optional ObjectMeta.reader m.toJson.toDraft = .ok (some m) :=
    (m.recovers_toJson.optional (Json.fields_ne_null _)).toDraft
  unfold metadata
  rw [hread]
  rfl

theorem ConfigMap.readsMetadata : asKind.ReadsMetadata := by
  have hreader : asKind.reader = Json.Reader.members takeMember ⟨.empty, none, none, none⟩ := rfl
  refine Kind.readsMetadata_of_members hreader (fun s k d s' hk h => ?_) fun m s s' h => ?_
  · unfold takeMember at h
    split at h
    case h_3 => exact absurd rfl hk
    all_goals
      obtain ⟨_, _, h⟩ := bind_eq_ok.mp h
      cases h
      rfl
  · simp only [takeMember, BuiltIn.metadata_toDraft, ok_bind] at h
    cases h
    rfl

theorem Namespace.readsMetadata : asKind.ReadsMetadata := by
  have hreader : asKind.reader = Json.Reader.members takeMember ⟨.empty, none, none⟩ := rfl
  refine Kind.readsMetadata_of_members hreader (fun s k d s' hk h => ?_) fun m s s' h => ?_
  · unfold takeMember at h
    split at h
    case h_3 => exact absurd rfl hk
    all_goals
      obtain ⟨_, _, h⟩ := bind_eq_ok.mp h
      cases h
      rfl
  · simp only [takeMember, BuiltIn.metadata_toDraft, ok_bind] at h
    cases h
    rfl

theorem Workload.readsMetadata (r : ApiResource) : (asKind r).ReadsMetadata := by
  have hreader : (asKind r).reader = Json.Reader.members (takeMember r) ⟨.empty, none, none⟩ := rfl
  refine Kind.readsMetadata_of_members hreader (fun s k d s' hk h => ?_) fun m s s' h => ?_
  · unfold takeMember at h
    split at h
    case h_3 => exact absurd rfl hk
    all_goals
      obtain ⟨_, _, h⟩ := bind_eq_ok.mp h
      cases h
      rfl
  · simp only [takeMember, BuiltIn.metadata_toDraft, ok_bind] at h
    cases h
    rfl

theorem ObjectMeta.bind_reader (m : ObjectMeta) (f : ObjectMeta → Except Json.ReadError β) :
    (do let m ← reader m.toJson.toDraft; f m) = f m := by
  have hread : reader m.toJson.toDraft = .ok m := m.recovers_toJson.toDraft
  rw [hread, ok_bind]

theorem Widget.readsMetadata : asKind.ReadsMetadata := by
  have hreader : reader = Json.Reader.record _ takeField (none, 0) _ := rfl
  refine Kind.readsMetadata_of_record Prod.fst some hreader rfl (fun k d s s' hk h => ?_)
    (fun m s s' h => ?_) fun m s a h hs => ?_
  · rw [takeField, if_neg hk] at h
    obtain ⟨n, -, h⟩ := bind_eq_ok.mp h
    cases h
    rfl
  · rw [takeField, if_pos rfl, m.bind_reader] at h
    cases h
    rfl
  · rw [hs] at h
    cases h
    rfl

theorem Party.readsMetadata : asKind.ReadsMetadata := by
  have hreader : reader = Json.Reader.record _ takeField ⟨none, none, none⟩ _ := rfl
  refine Kind.readsMetadata_of_record Fields.metadata some hreader rfl (fun k d s s' hk h => ?_)
    (fun m s s' h => ?_) fun m s a h hs => ?_
  · rw [takeField, if_neg hk] at h
    split at h
    all_goals
      obtain ⟨_, -, h⟩ := bind_eq_ok.mp h
      cases h
      rfl
  · rw [takeField, if_pos rfl, m.bind_reader] at h
    cases h
    rfl
  · rw [hs] at h
    obtain ⟨_, hm, h⟩ := bind_eq_ok.mp h
    obtain ⟨n, -, h⟩ := bind_eq_ok.mp h
    cases hm
    cases h
    rfl

theorem Knife.readsMetadata : asKind.ReadsMetadata := by
  have hreader : reader = Json.Reader.record _ takeField ⟨.empty, []⟩ _ := rfl
  refine Kind.readsMetadata_of_record Knife.metadata id hreader rfl (fun k d s s' hk h => ?_)
    (fun m s s' h => ?_) fun m s a h hs => ?_
  · rw [takeField, if_neg hk] at h
    obtain ⟨es, -, h⟩ := bind_eq_ok.mp h
    cases h
    rfl
  · rw [takeField, if_pos rfl, m.bind_reader] at h
    cases h
    rfl
  · cases h
    exact hs

theorem Calf.readsMetadata (item : β → Json) (r : Json.Reader β) :
    (asKind item r).ReadsMetadata := by
  have hreader : reader r = Json.Reader.record _ (takeField r) (none, none) _ := rfl
  refine Kind.readsMetadata_of_record Prod.fst some hreader rfl (fun k d s s' hk h => ?_)
    (fun m s s' h => ?_) fun m s a h hs => ?_
  · rw [takeField, if_neg hk] at h
    obtain ⟨i, -, h⟩ := bind_eq_ok.mp h
    cases h
    rfl
  · rw [takeField, if_pos rfl, m.bind_reader] at h
    cases h
    rfl
  · rw [hs] at h
    obtain ⟨_, hm, h⟩ := bind_eq_ok.mp h
    obtain ⟨i, -, h⟩ := bind_eq_ok.mp h
    cases hm
    cases h
    rfl

theorem Erased.readsMetadata : asKind.ReadsMetadata := by
  intro ms m a hasc hm h
  obtain ⟨s, hs, ho⟩ := bind_eq_ok.mp (Json.Reader.ofJson_eq_ok.mp h)
  have hmeta : s.metadata = some m := by
    refine Json.Reader.view_of_members (fun s k d s' hk h => ?_) (fun s s' h => ?_) hasc hm hs
    · rw [takeMember, if_neg hk] at h
      obtain ⟨v, -, h⟩ := bind_eq_ok.mp h
      cases h
      rfl
    · rw [takeMember, if_pos rfl] at h
      split at h
      · cases h
      · rw [m.bind_reader] at h
        cases h
        rfl
  cases ho
  show s.metadata.getD .empty = m
  rw [hmeta, Option.getD_some]

/-- All known kinds read metadata. -/
theorem KnownKind.readsMetadata {name : String} {k : KnownKind} (h : find? name = some k) :
    k.kind.ReadsMetadata := by
  unfold find? at h
  split at h
  · cases h
    exact ConfigMap.readsMetadata
  · cases h
    exact Namespace.readsMetadata
  · cases h
    exact Workload.readsMetadata _
  · cases h
    exact Workload.readsMetadata _
  · cases h
    exact Widget.readsMetadata
  · cases h
    exact Party.readsMetadata
  · cases h
    exact Knife.readsMetadata
  · cases h
    exact Calf.readsMetadata _ _
  · cases h
    exact Erased.readsMetadata
  · cases h

/-! ### Objects with their own metadata only -/

namespace Erased

/-- The data list their members in order and have no metadata of their own. -/
def Tidy (o : Erased) : Prop :=
  ∀ ds, o.data = .fields ds → Entries.Ascending ds ∧ Entries.get? "metadata" ds = none

/-- A tidy object is written with the metadata that it has. -/
theorem Tidy.written {o : Erased} (h : o.Tidy) {v : Json} (hv : o.toJson? = .ok v) :
    ∃ ws, v = .fields ws ∧ Entries.Ascending ws ∧
      Entries.get? "metadata" ws = some o.metadata.toJson := by
  obtain ⟨ds, hds, hv⟩ := bind_eq_ok.mp hv
  cases hv
  have htidy : Entries.Ascending ds ∧ Entries.get? "metadata" ds = none := by
    unfold dataMembers at hds
    split at hds
    · cases hds
      exact ⟨List.Pairwise.nil, rfl⟩
    · rename_i ms hdata
      cases hds
      exact h _ hdata
    · cases hds
  refine ⟨_, rfl, Entries.ascending_ofList _, ?_⟩
  rw [Entries.get?_ofList_append _ htidy.1, htidy.2, Option.none_or, Entries.get?_ofList,
    List.reverse_append]
  rfl

/-- What is read is tidy. -/
theorem tidy_of_reader {d : Json.Draft} {o : Erased} (h : reader d = .ok o) : o.Tidy := by
  obtain ⟨s, hs, ho⟩ := bind_eq_ok.mp h
  have hothers : ∀ e ∈ s.others, e.1 ≠ "metadata" := by
    have hstep : ∀ s k d t, takeMember s k d = .ok t → (∀ e ∈ s.others, e.1 ≠ "metadata") →
        ∀ e ∈ t.others, e.1 ≠ "metadata" := by
      intro s k d t ht hs
      rcases takeMember_eq_ok ht with ⟨-, hsame⟩ | ⟨hk, v, -, hmore⟩
      · exact hsame ▸ hs
      · exact hmore ▸ List.forall_mem_cons.mpr ⟨hk, hs⟩
    exact Json.Reader.members_induction hstep hs (List.forall_mem_nil _)
  intro ds hds
  cases ho
  obtain rfl : Entries.ofList (takeTypes none none s.others.reverse).2 = ds := Json.fields.inj hds
  refine ⟨Entries.ascending_ofList _, Option.eq_none_iff_forall_ne_some.mpr fun v hv => ?_⟩
  have hmem := (takeTypes_sublist _ _ _).subset (Entries.mem_ofList (Entries.mem_of_get? hv))
  exact hothers _ (List.mem_reverse.mp hmem) rfl

end Erased

/-- A tidy object is restored with its own metadata, if at all. -/
theorem Kind.ReadsMetadata.metadata_of_restore {K : Kind α} (hK : K.ReadsMetadata) {o : Erased}
    (ho : o.Tidy) {a : α} (h : K.restore o = .ok a) : K.metadata a = o.metadata := by
  obtain ⟨v, hv, hread⟩ := bind_eq_ok.mp h
  obtain ⟨ws, rfl, hasc, hm⟩ := ho.written hv
  exact hK ws _ a hasc hm hread

end ClusterKit
