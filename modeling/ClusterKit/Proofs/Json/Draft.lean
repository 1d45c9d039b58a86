/-
# Reading values

Everything in the draft of a value can be read: some value is read from it, it can be
passed over, and its members are taken one after the other. Values whose objects all
list their members in order are the canonical ones.

Key theorems: `Json.Reader.exists_value_toDraft`, `Json.Reader.skip_toDraft`,
`Json.Reader.members_toDraft`.
-/
import ClusterKit.Json.Read
import ClusterKit.Outcome
import ClusterKit.Proofs.Table

namespace ClusterKit
namespace Json

/-! ### Canonical values -/

theorem object_of_ascending {ms : List (String × Json)} (h : Entries.Ascending ms) :
    object ms = .fields ms := by
  unfold object
  rw [Entries.ofList_of_ascending h]

/-- Objects in order are the same if they have the same members. -/
theorem fields_ext {ms ns : List (String × Json)} (hm : Entries.Ascending ms)
    (hn : Entries.Ascending ns) (h : ∀ k, Entries.get? k ms = Entries.get? k ns) :
    Json.fields ms = Json.fields ns :=
  congrArg Json.fields (Entries.eq_of_get?_eq hm hn h)

namespace Reader

/-! ### Drafts of values -/

mutual

/-- Whatever the order of members, some value is read from a draft of a value. -/
theorem exists_value_toDraft : ∀ v : Json, ∃ w, value (toDraft v) = .ok w
  | .null => ⟨_, rfl⟩
  | .bool _ => ⟨_, rfl⟩
  | .number _ => ⟨_, rfl⟩
  | .text _ => ⟨_, rfl⟩
  | .list vs => by
    obtain ⟨ws, hws⟩ := exists_valueItems_toDrafts vs
    exact ⟨.list ws, by simp [toDraft, value, hws]⟩
  | .fields ms => by
    obtain ⟨ns, hns⟩ := exists_valueMembers_toMembers ms
    exact ⟨object ns, by simp [toDraft, value, hns]⟩

theorem exists_valueItems_toDrafts : ∀ vs : List Json,
    ∃ ws, valueItems none (toDrafts vs) = .ok ws
  | [] => ⟨_, rfl⟩
  | v :: vs => by
    obtain ⟨w, hw⟩ := exists_value_toDraft v
    obtain ⟨ws, hws⟩ := exists_valueItems_toDrafts vs
    exact ⟨w :: ws, by simp [toDrafts, valueItems, hw, hws]⟩

theorem exists_valueMembers_toMembers : ∀ ms : List (String × Json),
    ∃ ns, valueMembers none (toMembers ms) = .ok ns
  | [] => ⟨_, rfl⟩
  | (k, v) :: ms => by
    obtain ⟨w, hw⟩ := exists_value_toDraft v
    obtain ⟨ns, hns⟩ := exists_valueMembers_toMembers ms
    exact ⟨(k, w) :: ns, by simp [toMembers, valueMembers, Name.read, hw, hns]⟩

end

mutual

theorem skip_toDraft : ∀ v : Json, skip (toDraft v) = .ok ()
  | .null => rfl
  | .bool _ => rfl
  | .number _ => rfl
  | .text _ => rfl
  | .list vs => skipItems_toDrafts vs
  | .fields ms => skipMembers_toMembers ms

theorem skipItems_toDrafts : ∀ vs : List Json, skipItems none (toDrafts vs) = .ok ()
  | [] => rfl
  | v :: vs => by
    have hv := skip_toDraft v
    have hvs := skipItems_toDrafts vs
    simp [toDrafts, skipItems, hv, hvs]

theorem skipMembers_toMembers : ∀ ms : List (String × Json),
    skipMembers none (toMembers ms) = .ok ()
  | [] => rfl
  | (k, v) :: ms => by
    have hv := skip_toDraft v
    have hms := skipMembers_toMembers ms
    simp [toMembers, skipMembers, hv, hms]

end

/-- The members of a value are taken one after the other. -/
theorem foldMembers_toMembers (f : σ → String → Draft → Except ReadError σ) :
    ∀ (ms : List (String × Json)) (s : σ),
      foldMembers f none (toMembers ms) s = ms.foldlM (fun s e => f s e.1 (toDraft e.2)) s
  | [], _ => rfl
  | (k, v) :: ms, s => by
    simp only [toMembers, foldMembers, Name.read, ok_bind, List.foldlM_cons]
    cases f s k (toDraft v) with
    | error e => rfl
    | ok s => exact foldMembers_toMembers f ms s

/-- What is read of a value is read of its draft. -/
theorem ofJson_eq_ok {r : Reader α} {v : Json} {a : α} :
    r.ofJson v = .ok a ↔ r v.toDraft = .ok a := by
  unfold ofJson
  cases r v.toDraft <;> simp

theorem members_toDraft (f : σ → String → Draft → Except ReadError σ) (s : σ)
    (ms : List (String × Json)) : members f s (toDraft (.fields ms)) =
      ms.foldlM (fun s e => f s e.1 (toDraft e.2)) s :=
  foldMembers_toMembers f ms s

end Reader
end Json
end ClusterKit
