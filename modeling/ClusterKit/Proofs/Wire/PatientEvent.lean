/-
# Readers of events

The reader of events is patient if that of their objects is. What it holds back until the
type of the event has come has been read as some value, so that nothing is missed in it
afterwards.

Key definitions: `WatchEvent.Progress.Sound`.
Key theorems: `EventType.patient_reader`, `WatchEvent.patient_reader`,
`WatchEvent.closed_of_reader`.
-/
import ClusterKit.Proofs.Wire.Patient

namespace ClusterKit

open Json (Draft ReadError)
open Json.Draft (BrokenOff)
open Json.Reader

/-! ### Event types -/

namespace EventType

theorem ofName_ne_truncated (s : String) : ofName s ≠ .error .truncated := by
  unfold ofName
  split <;> exact nofun

theorem patient_nameReader : Patient nameReader :=
  patient_text.bind numberFree_text fun _ => ofName_ne_truncated

theorem strict_unit : Strict unit := fun _ _ _ => rfl

theorem patient_unit : Patient unit :=
  strict_unit.patient (NumberFree.shortens (strict_unit.numberFree nofun))
    (fun v => by cases v <;> exact nofun) (fun _ _ _ => rfl) (fun _ _ _ => rfl)

/-- Take one member of the object that names a type. -/
def takeName (t : Option EventType) (m : Json.Name × Draft) :
    Except ReadError (Option EventType) :=
  match t with
  | some _ => .error .malformed
  | none => do
    let s ← m.1.read
    let t ← ofName s
    unit m.2
    return some t

/-- The type that has been named. -/
def lastName : Option EventType → Except ReadError EventType
  | some t => .ok t
  | none => .error .malformed

theorem reader_fields (ms : List (Json.Name × Draft)) (close : Option ReadError) :
    reader (.fields false ms close) = walk takeName lastName close ms none := by
  cases ms with
  | nil => cases close <;> rfl
  | cons m ms =>
    obtain ⟨k, d⟩ := m
    simp only [reader, walk, takeName, Bool.false_eq_true, if_false, pure_eq_ok, ok_bind,
      throw_eq_error, bind_assoc]
    cases k.read with
    | error e => rfl
    | ok s =>
      simp only [ok_bind]
      cases ofName s with
      | error e => rfl
      | ok t =>
        simp only [ok_bind]
        cases unit d with
        | error e => rfl
        | ok u =>
          cases ms with
          | nil => cases close <;> rfl
          | cons m ms => rfl

/-- A member with a name has the type of this name, if it is one. -/
theorem patient_takeName (s : String) : Patient fun d => takeName none (.text s, d) := by
  unfold takeName
  simp only [Json.Name.read, ok_bind]
  cases hname : ofName s with
  | error e =>
    refine patient_error ?_
    rintro rfl
    exact ofName_ne_truncated s hname
  | ok t => exact patient_unit.map fun _ _ => ⟨_, rfl⟩

theorem waits_takeName (t : Option EventType) (k : Json.Name) :
    Waits fun d => takeName t (k, d) := by
  cases t with
  | some t => exact waits_error .malformed
  | none =>
    cases k with
    | text s => exact (patient_takeName s).toWaits
    | broken e => exact waits_error e

theorem numberFree_reader : NumberFree EventType.reader := by
  intro x y hxy t hok
  cases hxy <;> cases hok

theorem reader_of_brokenOff {d d' : Draft} {t : EventType} (hd : BrokenOff d d')
    (hok : reader d' = .ok t) : reader d = .error .truncated := by
  have hfields : ∀ {deep ms ms' close'},
      BrokenOff (.fields deep ms (some .truncated)) (.fields deep ms' close') →
      reader (.fields deep ms' close') = .ok t →
      reader (.fields deep ms (some .truncated)) = .error .truncated := by
    intro deep ms ms' close' hd hok
    cases deep with
    | true => cases hok
    | false =>
      rw [reader_fields] at hok ⊢
      refine Waits.walk_fields waits_takeName (fun {s e k y a} he hs => ?_) hd hok
      cases s with
      | some t => cases hs
      | none =>
        rcases he with rfl | ⟨e', rfl⟩
        · rfl
        · cases hs
  cases hd with
  | nothing => rfl
  | lone => cases hok
  | word hv => rcases hv with rfl | ⟨b, rfl⟩ <;> cases hok
  | listEnd => cases hok
  | listItem => cases hok
  | listNumber => cases hok
  | fieldsEnd deep xs ys close => exact hfields (.fieldsEnd deep xs ys close) hok
  | fieldsMember hxy deep k xs ys close =>
    exact hfields (.fieldsMember hxy deep k xs ys close) hok
  | fieldsNumber hxy deep k xs ys close =>
    exact hfields (.fieldsNumber hxy deep k xs ys close) hok
  | fieldsName he deep xs y ys close => exact hfields (.fieldsName he deep xs y ys close) hok

theorem honest_reader : Honest EventType.reader := by
  intro d hd
  cases d with
  | scalar v =>
    cases v with
    | text s => exact absurd hd (ofName_ne_truncated s)
    | null => cases hd
    | bool b => cases hd
    | number n => cases hd
  | broken n v s =>
    cases hd
    exact .name v s
  | list deep ds close => cases hd
  | fields deep ms close =>
    cases deep with
    | true => cases hd
    | false =>
      rw [reader_fields] at hd
      have hlast : ∀ t, lastName t ≠ .error .truncated := by
        intro t
        cases t <;> exact nofun
      refine unfinished_of_walk_fields (I := fun _ => True) false trivial
        (fun _ _ _ _ _ => trivial) (fun t k d _ _ hmiss => ?_) hd hlast
      cases t with
      | some t => cases hmiss
      | none =>
        cases k with
        | text s => exact .inr ((patient_takeName s).honest d hmiss)
        | broken e =>
          cases hmiss
          exact .inl rfl

theorem patient_reader : Patient EventType.reader :=
  ⟨⟨reader_of_brokenOff, numberFree_reader.shortens⟩, honest_reader⟩

end EventType

/-! ### Events -/

namespace WatchEvent

variable {r : Json.Reader α}

theorem patient_payloadReader (h : r.Patient) (t : EventType) : Patient (payloadReader r t) := by
  cases t with
  | added => exact h.map fun _ _ => ⟨_, rfl⟩
  | modified => exact h.map fun _ _ => ⟨_, rfl⟩
  | deleted => exact h.map fun _ _ => ⟨_, rfl⟩
  | bookmark => exact Bookmark.patient_reader.map fun _ _ => ⟨_, rfl⟩
  | error => exact Status.patient_reader.map fun _ _ => ⟨_, rfl⟩

/-- What is held back of an event can be read as some value. -/
def Progress.Sound : Progress α → Prop
  | .held d => ∃ v, value d = .ok v
  | _ => True

theorem buffered_ne_truncated {d : Draft} {v : Json} (h : value d = .ok v) :
    buffered r d ≠ .error .truncated := by
  unfold buffered
  rw [h]
  cases r d <;> exact nofun

theorem patient_takeMember (h : r.Patient) {s : Progress α} (hs : s.Sound) (k : String) :
    Patient (takeMember r s k) := by
  unfold takeMember
  split
  · split
    · exact EventType.patient_reader.map fun _ _ => ⟨_, rfl⟩
    · refine EventType.patient_reader.bind EventType.numberFree_reader fun _ t hmiss => ?_
      obtain ⟨v, hv⟩ := hs
      rcases bind_eq_error.mp hmiss with hmiss | ⟨e, -, he⟩
      · exact buffered_ne_truncated hv hmiss
      · cases he
    · exact patient_error nofun
  split
  · split
    · exact patient_value.map fun _ _ => ⟨_, rfl⟩
    · exact (patient_payloadReader h _).map fun _ _ => ⟨_, rfl⟩
    · exact patient_error nofun
  · exact patient_skip.map fun _ _ => ⟨_, rfl⟩

/-- The members of an event wait, whatever has been held back. -/
theorem waits_takeMember (h : r.Patient) (s : Progress α) (k : String) :
    Waits (takeMember r s k) := by
  cases s with
  -- what is held back may be anything here: only the type is waited for
  | held content =>
    unfold takeMember
    split
    · exact EventType.patient_reader.toWaits.bind EventType.numberFree_reader
    split
    · exact waits_error .mismatch
    · exact (patient_skip.map fun _ _ => ⟨_, rfl⟩).toWaits
  | nothing => exact (patient_takeMember h (s := .nothing) trivial k).toWaits
  | typed t => exact (patient_takeMember h (s := .typed t) trivial k).toWaits
  | complete e => exact (patient_takeMember h (s := .complete e) trivial k).toWaits

theorem Progress.Sound.takeMember {s t : Progress α} (hs : s.Sound) {k : String} {d : Draft}
    (h : takeMember r s k d = .ok t) : t.Sound := by
  unfold WatchEvent.takeMember at h
  split at h
  · split at h
    · obtain ⟨t, -, h⟩ := bind_eq_ok.mp h
      cases h
      trivial
    · obtain ⟨t, -, h⟩ := bind_eq_ok.mp h
      obtain ⟨e, -, h⟩ := bind_eq_ok.mp h
      cases h
      trivial
    · cases h
  split at h
  · split at h
    · obtain ⟨v, hv, h⟩ := bind_eq_ok.mp h
      cases h
      exact ⟨v, hv⟩
    · obtain ⟨e, -, h⟩ := bind_eq_ok.mp h
      cases h
      trivial
    · cases h
  · obtain ⟨u, -, h⟩ := bind_eq_ok.mp h
    cases h
    exact hs

/-- Take the type and what the event carries, in this order. -/
def takePart (r : Json.Reader α) (s : Progress α) (d : Draft) : Except ReadError (Progress α) :=
  match s with
  | .nothing => do
    let t ← EventType.nameReader d
    return .typed t
  | .typed t => do
    let e ← payloadReader r t d
    return .complete e
  | _ => .error .malformed

/-- The event that is complete. -/
def completed : Progress α → Except ReadError (WatchEvent α)
  | .complete e => .ok e
  | _ => .error .mismatch

theorem ofParts_eq_walk (r : Json.Reader α) (close : Option ReadError) (ds : List Draft) :
    ofParts r close ds = walk (takePart r) completed close ds .nothing := by
  cases ds with
  | nil => cases close <;> rfl
  | cons t ds =>
    simp only [ofParts, walk, takePart, pure_eq_ok, throw_eq_error, bind_assoc, ok_bind]
    cases EventType.nameReader t with
    | error e => rfl
    | ok t =>
      simp only [ok_bind]
      cases ds with
      | nil => cases close <;> rfl
      | cons d ds =>
        simp only [walk, takePart, pure_eq_ok, bind_assoc, ok_bind]
        cases hd : payloadReader r t d with
        | error e => cases ds <;> simp [hd]
        | ok e =>
          cases ds with
          | nil => cases close <;> simp [hd, walk, completed]
          | cons d' ds => simp [hd, walk, takePart]

theorem patient_takePart (h : r.Patient) (s : Progress α) : Patient (takePart r s) := by
  unfold takePart
  split
  · exact EventType.patient_nameReader.map fun _ _ => ⟨_, rfl⟩
  · exact (patient_payloadReader h _).map fun _ _ => ⟨_, rfl⟩
  · exact patient_error nofun

theorem completed_ne_truncated (s : Progress α) : completed s ≠ .error .truncated := by
  cases s <;> exact nofun

theorem reader_list (r : Json.Reader α) (ds : List Draft) (close : Option ReadError) :
    reader r (.list false ds close) = walk (takePart r) completed close ds .nothing :=
  ofParts_eq_walk r close ds

theorem reader_of_ne_list {d : Draft} (h : ∀ deep ds close, d ≠ .list deep ds close) :
    reader r d = members (takeMember r) .nothing d >>= completed := by
  unfold reader
  split
  · exact absurd rfl (h _ _ _)
  · refine congrArg _ (funext fun s => ?_)
    cases s <;> rfl

theorem strict_reader (r : Json.Reader α) : Strict (reader r) := fun _ _ _ => rfl

theorem numberFree_reader (r : Json.Reader α) : NumberFree (reader r) :=
  (strict_reader r).numberFree nofun

theorem reader_of_brokenOff (h : r.Patient) {d d' : Draft} {e : WatchEvent α}
    (hd : BrokenOff d d') (hok : reader r d' = .ok e) : reader r d = .error .truncated := by
  refine (strict_reader r).waits (fun {deep ds ds' close' e} hd hok => ?_)
    (fun {deep ms ms' close' e} hd hok => ?_) hd hok
  · cases deep with
    | true => cases hok
    | false =>
      rw [reader_list] at hok ⊢
      exact Waits.walk_list (fun s => (patient_takePart h s).toWaits) hd hok
  · have hmembers := waits_members (waits_takeMember h) .nothing
    have hfields : ∀ ms close, reader r (.fields deep ms close) =
        members (takeMember r) .nothing (.fields deep ms close) >>= completed :=
      fun _ _ => reader_of_ne_list fun _ _ _ => nofun
    rw [hfields] at hok ⊢
    exact (hmembers.bind (g := fun _ => completed) (numberFree_members _ _)).waits hd hok

theorem honest_reader (h : r.Patient) : Honest (reader r) := by
  intro d hd
  by_cases hlist : ∃ deep ds close, d = .list deep ds close
  · obtain ⟨deep, ds, close, rfl⟩ := hlist
    cases deep with
    | true => cases hd
    | false =>
      rw [reader_list] at hd
      exact unfinished_of_walk_list false (fun s d _ => (patient_takePart h s).honest d) hd
        completed_ne_truncated
  · rw [reader_of_ne_list fun deep ds close heq => hlist ⟨deep, ds, close, heq⟩] at hd
    have hmembers : Honest (members (takeMember r) .nothing) :=
      honest_members (I := Progress.Sound) trivial (fun _ _ _ _ hs ht => hs.takeMember ht)
        fun s k hs => (patient_takeMember h hs k).honest
    exact hmembers.bind (fun _ => completed_ne_truncated) d hd

theorem closed_of_reader {d : Draft} {e : WatchEvent α} (h : reader r d = .ok e) : d.Closed := by
  by_cases hlist : ∃ deep ds close, d = .list deep ds close
  · obtain ⟨deep, ds, close, rfl⟩ := hlist
    cases deep with
    | true => cases h
    | false =>
      rw [reader_list] at h
      exact close_of_walk h
  · rw [reader_of_ne_list fun deep ds close heq => hlist ⟨deep, ds, close, heq⟩] at h
    obtain ⟨s, hs, -⟩ := bind_eq_ok.mp h
    exact closed_of_members hs

/-- An event is read whole, or something is missing. -/
theorem patient_reader (h : r.Patient) : Patient (reader r) :=
  ⟨⟨reader_of_brokenOff h, NumberFree.shortens (numberFree_reader r)⟩, honest_reader h⟩

end WatchEvent
end ClusterKit
