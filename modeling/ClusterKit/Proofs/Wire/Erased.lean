/-
# Erasing and writing again

An object of any type is erased by reading what is written of it, and restored
by writing the erased object again. In between it may be given the names of a
type and other metadata. This changes nothing else: the members that do not
name the type stay as they were, and those that do stay if they are two texts
(`Erased.rewritten`).

Key definitions: `Json.NamesType`, `Erased.Found`, `Erased.metadataIn`.
Key theorems: `Erased.reader_toDraft_of_nodup`, `Erased.reader_toDraft`, `Erased.rewritten`.
-/
import ClusterKit.Proofs.Wire.Meta
import ClusterKit.Wire.Erased

namespace ClusterKit

open Json (toDraft)

/-- The value names its type, by two texts. -/
def Json.NamesType (v : Json) : Prop :=
  ∃ a k, v.member? "apiVersion" = some (.text a) ∧ v.member? "kind" = some (.text k)

namespace Erased

/-! ### Names of types among members -/

/-- Whether a member has nothing to do with the name of the type. -/
def isOther (name : String) : Bool :=
  name != "apiVersion" && name != "kind"

/-- One name of the type has been found, or else is still there among the members. -/
def Found (found : Option String) (name : String) (ms : List (String × Json)) (s : String) : Prop :=
  (found = some s ∧ Entries.get? name ms = none) ∨
    (found = none ∧ Entries.get? name ms = some (.text s))

section

variable {found : Option String} {name other s : String} {value : Json}
  {ms : List (String × Json)}

theorem found_cons_other (h : other ≠ name) :
    Found found name ((other, value) :: ms) s ↔ Found found name ms s := by
  have hne : ¬ compare name other = .eq := by
    rw [Std.LawfulEqCmp.compare_eq_iff_eq]
    exact Ne.symm h
  unfold Found
  rw [Entries.get?, if_neg hne]

theorem found_cons_self : Found found name ((name, value) :: ms) s ↔
    found = none ∧ value = .text s := by
  unfold Found
  simp [Entries.get?]

end

theorem takeTypes_sublist (ms : List (String × Json)) : ∀ a k : Option String,
    (takeTypes a k ms).2.Sublist ms := by
  induction ms with
  | nil =>
    intro a k
    unfold takeTypes
    split <;> exact List.Sublist.refl _
  | cons e ms ih =>
    intro a k
    obtain ⟨name, value⟩ := e
    unfold takeTypes
    split
    · split
      · exact (ih _ _).cons _
      · exact List.sublist_cons_self _ _
    · split
      · split
        · exact (ih _ _).cons _
        · exact List.sublist_cons_self _ _
      · exact (ih a k).cons_cons _

/-- The members that do not name the type are left. -/
theorem get?_takeTypes {name : String} (hn : isOther name = true) (ms : List (String × Json)) :
    ∀ a k : Option String,
      Entries.get? name (takeTypes a k ms).2 = Entries.get? name ms := by
  have hskip : ∀ (other : String) (value : Json) (es : List (String × Json)), other ≠ name →
      Entries.get? name ((other, value) :: es) = Entries.get? name es := by
    intro other value es h
    rw [Entries.get?, if_neg]
    rw [Std.LawfulEqCmp.compare_eq_iff_eq]
    exact Ne.symm h
  simp only [isOther, Bool.and_eq_true, bne_iff_ne, ne_eq] at hn
  induction ms with
  | nil =>
    intro a k
    unfold takeTypes
    split <;> rfl
  | cons e ms ih =>
    intro a k
    obtain ⟨other, value⟩ := e
    unfold takeTypes
    split
    · rename_i h
      rw [hskip other value ms (h ▸ Ne.symm hn.1)]
      split
      · exact ih _ _
      · rfl
    · split
      · rename_i h
        rw [hskip other value ms (h ▸ Ne.symm hn.2)]
        split
        · exact ih _ _
        · rfl
      · show Entries.get? name ((other, value) :: (takeTypes a k ms).2) = _
        rw [Entries.get?, Entries.get?, ih]

/-- If both names are found, they are texts, and exactly the other members are left. -/
theorem takeTypes_eq_some {v w : String} (ms : List (String × Json)) : ∀ {a k : Option String},
    (takeTypes a k ms).1 = some ⟨v, w⟩ →
      Found a "apiVersion" ms v ∧ Found k "kind" ms w ∧
        (takeTypes a k ms).2 = ms.filter fun e => isOther e.1 := by
  induction ms with
  | nil =>
    intro a k h
    unfold takeTypes at h ⊢
    split at h
    · cases h
      exact ⟨.inl ⟨rfl, rfl⟩, .inl ⟨rfl, rfl⟩, rfl⟩
    · cases h
  | cons e ms ih =>
    intro a k h
    obtain ⟨name, value⟩ := e
    unfold takeTypes at h ⊢
    by_cases hv : name = "apiVersion"
    · subst hv
      rw [if_pos rfl] at h ⊢
      cases a with
      | some a => cases h
      | none =>
        cases value with
        | text s =>
          obtain ⟨ha, hk, hrest⟩ := ih h
          rcases ha with ⟨hs, hnone⟩ | ⟨hs, -⟩
          · cases hs
            exact ⟨found_cons_self.mpr ⟨rfl, rfl⟩, (found_cons_other (by decide)).mpr hk,
              hrest.trans (by simp [isOther])⟩
          · cases hs
        | _ => cases h
    · rw [if_neg hv] at h ⊢
      by_cases hw : name = "kind"
      · subst hw
        rw [if_pos rfl] at h ⊢
        cases k with
        | some k => cases h
        | none =>
          cases value with
          | text s =>
            obtain ⟨ha, hk, hrest⟩ := ih h
            rcases hk with ⟨hs, hnone⟩ | ⟨hs, -⟩
            · cases hs
              exact ⟨(found_cons_other (by decide)).mpr ha, found_cons_self.mpr ⟨rfl, rfl⟩,
                hrest.trans (by simp [isOther])⟩
            · cases hs
          | _ => cases h
      · rw [if_neg hw] at h ⊢
        obtain ⟨ha, hk, hrest⟩ := ih h
        refine ⟨(found_cons_other hv).mpr ha, (found_cons_other hw).mpr hk, ?_⟩
        have ho : isOther name = true := by simp [isOther, hv, hw]
        simp only [List.filter_cons, if_pos ho, ← hrest]

/-- Names that are texts and come once are found. -/
theorem takeTypes_of_found {v w : String} (ms : List (String × Json)) :
    ∀ {a k : Option String}, Entries.Ascending ms → Found a "apiVersion" ms v →
      Found k "kind" ms w → (takeTypes a k ms).1 = some ⟨v, w⟩ := by
  induction ms with
  | nil =>
    rintro a k - (⟨rfl, -⟩ | ⟨-, h⟩) (⟨rfl, -⟩ | ⟨-, h'⟩)
    · rfl
    · cases h'
    · cases h
    · cases h
  | cons e ms ih =>
    intro a k hasc ha hk
    obtain ⟨name, value⟩ := e
    have hfirst := (List.pairwise_cons.mp hasc).1
    have hrest := (List.pairwise_cons.mp hasc).2
    have honce : Entries.get? name ms = none := Entries.get?_eq_none_of_lt hfirst
    unfold takeTypes
    by_cases hv : name = "apiVersion"
    · subst hv
      obtain ⟨rfl, rfl⟩ := found_cons_self.mp ha
      exact ih hrest (.inl ⟨rfl, honce⟩) ((found_cons_other (by decide)).mp hk)
    · rw [if_neg hv]
      by_cases hw : name = "kind"
      · subst hw
        obtain ⟨rfl, rfl⟩ := found_cons_self.mp hk
        exact ih hrest ((found_cons_other (by decide)).mp ha) (.inl ⟨rfl, honce⟩)
      · rw [if_neg hw]
        exact ih hrest ((found_cons_other hv).mp ha) ((found_cons_other hw).mp hk)

/-! ### Reading -/

/-- The members of a value except its metadata. -/
def others (ms : List (String × Json)) : List (String × Json) :=
  ms.filter fun e => e.1 != "metadata"

theorem others_eq_self {ms : List (String × Json)} (h : ∀ e ∈ ms, e.1 ≠ "metadata") :
    others ms = ms :=
  List.filter_eq_self.mpr fun e he => bne_iff_ne.mpr (h e he)

/-- The metadata that are read of members; where there are none, they are empty. -/
def metadataIn (ms : List (String × Json)) : Except Json.ReadError ObjectMeta :=
  match Entries.get? "metadata" ms with
  | none => .ok .empty
  | some w => ObjectMeta.reader (toDraft w)

/-- Members with different names are read as metadata and others, which is all that can fail. -/
theorem reader_toDraft_of_nodup {ms : List (String × Json)} (hn : (ms.map Prod.fst).Nodup)
    (hc : ∀ e ∈ ms, e.2.Canonical) : reader (toDraft (.fields ms)) = do
      let m ← metadataIn ms
      return ofMembers ⟨some m, (others ms).reverse⟩ := by
  have hother : ∀ (m : Option ObjectMeta) (os es : List (String × Json)),
      (∀ e ∈ es, e.1 ≠ "metadata") → (∀ e ∈ es, e.2.Canonical) →
      es.foldlM (fun s e => takeMember s e.1 (toDraft e.2)) ⟨m, os⟩ =
        .ok ⟨m, es.reverse ++ os⟩ := fun m os es hnames hes =>
    Json.Reader.foldlM_others Members.mk (fun _ _ _ _ h => if_neg h) m
      (Json.reorderedMembers_refl es) hnames hes os
  unfold reader metadataIn
  rw [Json.Reader.members_toDraft]
  cases hm : Entries.get? "metadata" ms with
  | none =>
    have hnames : ∀ e ∈ ms, e.1 ≠ "metadata" := by
      intro e he heq
      obtain ⟨v, hv⟩ := Entries.exists_get?_of_mem he
      rw [heq, hm] at hv
      cases hv
    rw [hother none [] ms hnames hc, others_eq_self hnames, List.append_nil]
    rfl
  | some w =>
    obtain ⟨as, bs, rfl⟩ := List.append_of_mem (Entries.mem_of_get? hm)
    rw [List.map_append, List.map_cons, List.nodup_middle, ← List.map_append,
      List.nodup_cons] at hn
    have hnames : ∀ e ∈ as ++ bs, e.1 ≠ "metadata" := fun e he heq =>
      hn.1 (List.mem_map.mpr ⟨e, he, heq⟩)
    obtain ⟨has, hbs⟩ := List.forall_mem_append.mp hnames
    obtain ⟨hcas, hcbs⟩ := List.forall_mem_append.mp hc
    have hothers : others (as ++ ("metadata", w) :: bs) = as ++ bs := by
      calc others (as ++ ("metadata", w) :: bs) = others as ++ others bs := by simp [others]
        _ = as ++ bs := by rw [others_eq_self has, others_eq_self hbs]
    have hown : takeMember ⟨none, as.reverse⟩ "metadata" (toDraft w) = do
        let m ← ObjectMeta.reader (toDraft w)
        return ⟨some m, as.reverse⟩ := rfl
    rw [List.foldlM_append, hother none [] as has hcas, ok_bind, List.append_nil,
      List.foldlM_cons, hown, hothers]
    dsimp only
    cases ObjectMeta.reader (toDraft w) with
    | error e => rfl
    | ok m =>
      simp only [ok_bind, pure_eq_ok]
      rw [hother _ _ bs hbs (List.forall_mem_cons.mp hcbs).2, List.reverse_append]
      rfl

/-- What is read of a value: its metadata, the names of its type, and the rest as data. -/
theorem reader_toDraft {ms : List (String × Json)} {m : ObjectMeta}
    (hc : (Json.fields ms).Canonical) (hm : Entries.get? "metadata" ms = some m.toJson) :
    reader (toDraft (.fields ms)) =
      .ok ⟨(takeTypes none none (others ms)).1, m,
        .fields (takeTypes none none (others ms)).2⟩ := by
  obtain ⟨hasc, hmem⟩ := (Json.canonical_fields ms).mp hc
  have hmeta : metadataIn ms = .ok m := by
    unfold metadataIn
    rw [hm]
    exact m.recovers_toJson.toDraft
  have hdata : Json.object (takeTypes none none (others ms)).2 =
      .fields (takeTypes none none (others ms)).2 :=
    Json.object_of_ascending (hasc.sublist ((takeTypes_sublist _ _ _).trans List.filter_sublist))
  rw [reader_toDraft_of_nodup hasc.nodup hmem, hmeta]
  simp only [ok_bind, pure_eq_ok, ofMembers, List.reverse_reverse, hdata, Option.getD_some]

/-! ### Writing again -/

theorem get?_others {ms : List (String × Json)} {name : String} (h : name ≠ "metadata") :
    Entries.get? name (others ms) = Entries.get? name ms := by
  unfold others
  rw [Entries.get?_filter_key (fun k => k != "metadata"), if_pos (by simpa using h)]

theorem get?_metadata_others (ms : List (String × Json)) :
    Entries.get? "metadata" (others ms) = none := by
  unfold others
  rw [Entries.get?_filter_key (fun k => k != "metadata"), if_neg (by simp)]

theorem ascending_typeMembers (types : Option TypeMeta) :
    Entries.Ascending (typeMembers types) := by
  cases types with
  | none => exact List.Pairwise.nil
  | some t =>
    exact Entries.ascending_of_names (List.Sublist.refl ["apiVersion", "kind"]) (by decide)

theorem get?_typeMembers_of_isOther {types : Option TypeMeta} {name : String}
    (h : isOther name = true) : Entries.get? name (typeMembers types) = none := by
  simp only [isOther, Bool.and_eq_true, bne_iff_ne, ne_eq] at h
  cases types with
  | none => rfl
  | some t => simp [typeMembers, Entries.get?, Std.LawfulEqCmp.compare_eq_iff_eq, h]

/-- An erased object with data is written as its data in order, its metadata and the
names of its type. -/
theorem toJson?_fields (types : Option TypeMeta) (m : ObjectMeta) {data : List (String × Json)}
    (hd : (Json.fields data).Canonical) (hm : Entries.get? "metadata" data = none) :
    ∃ ws, (Erased.mk types m (.fields data)).toJson? = .ok (.fields ws) ∧
      (Json.fields ws).Canonical ∧ Entries.get? "metadata" ws = some m.toJson ∧
      ∀ name, name ≠ "metadata" → Entries.get? name ws =
        (Entries.get? name data).or (Entries.get? name (typeMembers types)) := by
  obtain ⟨hasc, hmem⟩ := (Json.canonical_fields data).mp hd
  have hview : ∀ name, Entries.get? name
      (Entries.ofList (typeMembers types ++ [("metadata", m.toJson)] ++ data)) =
        (Entries.get? name data).or ((if name = "metadata" then some m.toJson else none).or
          (Entries.get? name (typeMembers types))) := by
    intro name
    rw [Entries.get?_ofList_append _ hasc,
      Entries.get?_ofList_append _ (List.pairwise_singleton _ _)]
    simp [Entries.ofList_of_ascending (ascending_typeMembers types), Entries.get?,
      Std.LawfulEqCmp.compare_eq_iff_eq]
  refine ⟨_, rfl, Json.canonical_object ?_, ?_, ?_⟩
  · simp only [List.forall_mem_append]
    refine ⟨⟨?_, ?_⟩, hmem⟩
    · cases types <;> simp [typeMembers, Json.Canonical]
    · simpa using m.canonical_toJson
  · rw [hview, hm]
    simp
  · intro name hn
    rw [hview, if_neg hn]
    rfl

/-- Whatever of a value is erased, given the names of a type where it has none and
other metadata, and written again, has the other metadata, and the other members
of the value; and all other members if it names its type itself. -/
theorem rewritten {ms : List (String × Json)} {m : ObjectMeta} (hc : (Json.fields ms).Canonical)
    (hm : Entries.get? "metadata" ms = some m.toJson) :
    ∃ o, reader.ofJson (.fields ms) = .ok o ∧ o.metadata = m ∧
      ∀ (r : ApiResource) (m' : ObjectMeta),
      ∃ ws, ({ o.stamp r with metadata := m' }).toJson? = .ok (.fields ws) ∧
        (Json.fields ws).Canonical ∧ Entries.get? "metadata" ws = some m'.toJson ∧
        ∀ name, name ≠ "metadata" → isOther name = true ∨ (Json.fields ms).NamesType →
          Entries.get? name ws = Entries.get? name ms := by
  obtain ⟨hasc, hmem⟩ := (Json.canonical_fields ms).mp hc
  have hoasc : Entries.Ascending (others ms) := Entries.ascending_filter hasc
  set taken := takeTypes none none (others ms) with htaken
  have hsub : taken.2.Sublist ms := (takeTypes_sublist _ _ _).trans List.filter_sublist
  have hdata : (Json.fields taken.2).Canonical :=
    (Json.canonical_fields _).mpr ⟨hasc.sublist hsub, fun e he => hmem e (hsub.subset he)⟩
  have hnometa : Entries.get? "metadata" taken.2 = none := by
    rw [htaken, get?_takeTypes rfl, get?_metadata_others]
  refine ⟨⟨taken.1, m, .fields taken.2⟩, ?_, rfl, ?_⟩
  · exact Json.Reader.ofJson_eq_ok.mpr (reader_toDraft hc hm)
  · intro r m'
    obtain ⟨ws, hws, hcan, hmeta, hview⟩ :=
      toJson?_fields (taken.1.or (some r.typeMeta)) m' hdata hnometa
    have hother : ∀ name, name ≠ "metadata" → isOther name = true →
        Entries.get? name ws = Entries.get? name ms := by
      intro name hname ho
      rw [hview name hname, get?_typeMembers_of_isOther ho, Option.or_none, htaken,
        get?_takeTypes ho, get?_others hname]
    refine ⟨ws, hws, hcan, hmeta, ?_⟩
    rintro name hname (ho | ⟨a, k, ha, hk⟩)
    · exact hother name hname ho
    · by_cases ho : isOther name = true
      · exact hother name hname ho
      · have htypes : taken.1 = some ⟨a, k⟩ := takeTypes_of_found _ hoasc
          (.inr ⟨rfl, (get?_others (by decide)).trans ha⟩)
          (.inr ⟨rfl, (get?_others (by decide)).trans hk⟩)
        have hrest : Entries.get? name taken.2 = none := by
          rw [htaken, (takeTypes_eq_some _ htypes).2.2, Entries.get?_filter_key isOther, if_neg ho]
        rw [hview name hname, hrest, htypes, Option.none_or]
        simp only [isOther, Bool.and_eq_true, bne_iff_ne, ne_eq, not_and_or, not_not] at ho
        rcases ho with rfl | rfl
        · exact ha.symm
        · exact hk.symm

end Erased
end ClusterKit
