/-
# Readers of what events carry

The readers of objects, bookmarks and statuses are patient: each of them misses something
in a text that breaks off, whatever it would have read in the whole one, and only in a
text in which something is missing.

Key theorems: `ObjectMeta.patient_reader`, `Erased.patient_reader`, `Status.patient_reader`,
`Bookmark.patient_reader`.
-/
import ClusterKit.Proofs.Json.PatientRecord
import ClusterKit.Proofs.Json.PatientValue
import ClusterKit.Wire.Event

namespace ClusterKit

open Json.Reader

/-! ### Metadata -/

theorem OwnerReference.patient_takeMember (o : OwnerReference) (k : String) :
    Patient (takeMember o k) := by
  have htext := patient_text.optional strict_text
  have hflag := patient_flag.optional strict_flag
  unfold takeMember
  split
  · exact htext.map fun _ _ => ⟨_, rfl⟩
  · exact hflag.map fun _ _ => ⟨_, rfl⟩
  · exact hflag.map fun _ _ => ⟨_, rfl⟩
  · exact htext.map fun _ _ => ⟨_, rfl⟩
  · exact htext.map fun _ _ => ⟨_, rfl⟩
  · exact htext.map fun _ _ => ⟨_, rfl⟩
  · exact patient_skip.map fun _ _ => ⟨_, rfl⟩

theorem OwnerReference.patient_reader : Patient OwnerReference.reader :=
  patient_members patient_takeMember _

theorem Timestamp.strict_reader : Strict Timestamp.reader :=
  strict_text.bind

theorem Timestamp.patient_reader : Patient Timestamp.reader := by
  refine patient_text.bind numberFree_text fun _ s => ?_
  split <;> exact nofun

theorem ManagedFieldsEntry.patient_takeMember (e : ManagedFieldsEntry) (k : String) :
    Patient (takeMember e k) := by
  have htext := patient_text.optional strict_text
  have hfields : Patient FieldsV1.reader := patient_canonical.map fun _ _ => ⟨_, rfl⟩
  unfold takeMember
  split
  · exact htext.map fun _ _ => ⟨_, rfl⟩
  · exact htext.map fun _ _ => ⟨_, rfl⟩
  · exact hfields.map fun _ _ => ⟨_, rfl⟩
  · exact htext.map fun _ _ => ⟨_, rfl⟩
  · exact htext.map fun _ _ => ⟨_, rfl⟩
  · exact htext.map fun _ _ => ⟨_, rfl⟩
  · exact (Timestamp.patient_reader.optional Timestamp.strict_reader).map fun _ _ => ⟨_, rfl⟩
  · exact patient_skip.map fun _ _ => ⟨_, rfl⟩

theorem ManagedFieldsEntry.patient_reader : Patient ManagedFieldsEntry.reader :=
  patient_members patient_takeMember _

theorem ObjectMeta.patient_takeMember (m : ObjectMeta) (k : String) :
    Patient (takeMember m k) := by
  have htext := patient_text.optional strict_text
  have hnumber := patient_int64.optional strict_int64
  have htexts := patient_text.table.optional (strict_table _)
  have htime := Timestamp.patient_reader.optional Timestamp.strict_reader
  unfold takeMember
  split
  · exact htexts.map fun _ _ => ⟨_, rfl⟩
  · exact htime.map fun _ _ => ⟨_, rfl⟩
  · exact hnumber.map fun _ _ => ⟨_, rfl⟩
  · exact htime.map fun _ _ => ⟨_, rfl⟩
  · exact (patient_text.items.optional (strict_items _)).map fun _ _ => ⟨_, rfl⟩
  · exact htext.map fun _ _ => ⟨_, rfl⟩
  · exact hnumber.map fun _ _ => ⟨_, rfl⟩
  · exact htexts.map fun _ _ => ⟨_, rfl⟩
  · exact (ManagedFieldsEntry.patient_reader.items.optional (strict_items _)).map
      fun _ _ => ⟨_, rfl⟩
  · exact htext.map fun _ _ => ⟨_, rfl⟩
  · exact htext.map fun _ _ => ⟨_, rfl⟩
  · exact (OwnerReference.patient_reader.items.optional (strict_items _)).map fun _ _ => ⟨_, rfl⟩
  · exact htext.map fun _ _ => ⟨_, rfl⟩
  · exact htext.map fun _ _ => ⟨_, rfl⟩
  · exact htext.map fun _ _ => ⟨_, rfl⟩
  · exact patient_skip.map fun _ _ => ⟨_, rfl⟩

theorem ObjectMeta.patient_reader : Patient ObjectMeta.reader :=
  patient_members patient_takeMember _

/-! ### Objects -/

theorem Erased.patient_takeMember (s : Erased.Members) (k : String) :
    Patient (takeMember s k) := by
  unfold takeMember
  split
  · split
    · exact patient_error nofun
    · exact ObjectMeta.patient_reader.map fun _ _ => ⟨_, rfl⟩
  · exact patient_value.map fun _ _ => ⟨_, rfl⟩

theorem Erased.patient_reader : Patient Erased.reader :=
  (patient_members patient_takeMember _).map fun _ _ => ⟨_, rfl⟩

theorem Erased.strict_reader : Strict Erased.reader :=
  (strict_members takeMember _).bind

/-! ### Statuses -/

theorem StatusCause.patient_reader : Patient StatusCause.reader := by
  refine patient_record (fun k s => ?_) fun _ => nofun
  unfold takeField
  refine (patient_text.optional strict_text).map fun _ v => ?_
  split
  · exact ⟨_, rfl⟩
  split
  · exact ⟨_, rfl⟩
  · exact ⟨_, rfl⟩

theorem StatusDetails.patient_takeField (k : String) (s : StatusDetails) :
    Patient fun d => takeField k d s := by
  unfold takeField
  split
  · exact (StatusCause.patient_reader.items.optional (strict_items _)).map fun _ _ => ⟨_, rfl⟩
  split
  · exact ((patient_signed 32).optional (strict_signed 32)).map fun _ _ => ⟨_, rfl⟩
  refine (patient_text.optional strict_text).map fun _ v => ?_
  split
  · exact ⟨_, rfl⟩
  split
  · exact ⟨_, rfl⟩
  split
  · exact ⟨_, rfl⟩
  · exact ⟨_, rfl⟩

theorem StatusDetails.patient_reader : Patient StatusDetails.reader :=
  patient_record patient_takeField fun _ => nofun

theorem Status.patient_takeField (k : String) (s : Status.Partial) :
    Patient fun d => takeField k d s := by
  unfold takeField
  split
  · exact (patient_unsigned 16).map fun _ _ => ⟨_, rfl⟩
  split
  · exact (StatusDetails.patient_reader.optional strict_record).map fun _ _ => ⟨_, rfl⟩
  refine patient_text.map fun _ v => ?_
  split
  · exact ⟨_, rfl⟩
  split
  · exact ⟨_, rfl⟩
  · exact ⟨_, rfl⟩

theorem required_ne_truncated (o : Option α) : required o ≠ .error .truncated := by
  cases o <;> exact nofun

theorem Status.ofPartial_ne_truncated (s : Status.Partial) : ofPartial s ≠ .error .truncated := by
  intro h
  rcases bind_eq_error.mp h with h | ⟨status, -, h⟩
  · exact required_ne_truncated _ h
  · rcases bind_eq_error.mp h with h | ⟨code, -, h⟩
    · exact required_ne_truncated _ h
    · cases h

theorem Status.patient_reader : Patient Status.reader :=
  patient_record patient_takeField ofPartial_ne_truncated

/-! ### Bookmarks -/

theorem Bookmark.patient_version : Patient Bookmark.version :=
  patient_record (fun _ _ => patient_text.map fun _ _ => ⟨_, rfl⟩) required_ne_truncated

theorem Bookmark.patient_takeMember (s : Bookmark.Members) (k : String) :
    Patient (takeMember s k) := by
  unfold takeMember
  split
  · split
    · exact patient_error nofun
    · exact patient_version.map fun _ _ => ⟨_, rfl⟩
  · exact patient_value.map fun _ _ => ⟨_, rfl⟩

theorem Bookmark.patient_reader : Patient Bookmark.reader := by
  refine (patient_members patient_takeMember _).bind (numberFree_members _ _) fun _ s h => ?_
  rcases bind_eq_error.mp h with h | ⟨v, -, h⟩
  · exact required_ne_truncated _ h
  · rcases bind_eq_error.mp h with h | ⟨t, -, h⟩
    · exact required_ne_truncated _ h
    · cases h

end ClusterKit
