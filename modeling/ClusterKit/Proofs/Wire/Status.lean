/-
# Statuses survive writing

A status is read back from what is written of it, with the members of all its parts in
any order, if its numbers are ones of the bits that a reader takes for them. A bare
status is no event of a watch, since it has no member of one. What an event carries is
read back whether it comes behind the type of the event or in front of it, and so is
the status in an event of an error.

Key definitions: `StatusDetails.Fits`, `Status.Fits`.
Key theorems: `Status.recovers_toJson`, `Status.plain_toJson`, `Status.reader_bare`,
`WatchEvent.recovers_of_payload`, `Status.recovers_event`.
-/
import ClusterKit.Proofs.Json.Recovered
import ClusterKit.Wire.Event

namespace ClusterKit

open Json.Reader (Recovers recovers_text recovers_signed recovers_unsigned)

/-! ### Members that are there -/

/-- A member that is there stands in the list under its name, as a text. -/
theorem mem_presentTexts {ps : List (String × Option String)} {m : String × Json} :
    m ∈ presentTexts ps ↔ ∃ t, (m.1, some t) ∈ ps ∧ m.2 = .text t := by
  obtain ⟨k, v⟩ := m
  simp only [presentTexts, List.mem_filterMap, Option.map_eq_some_iff, Prod.mk.injEq, Prod.exists]
  constructor
  · rintro ⟨_, _, hp, t, rfl, rfl, rfl⟩
    exact ⟨t, hp, rfl⟩
  · rintro ⟨t, hp, rfl⟩
    exact ⟨k, some t, hp, t, rfl, rfl, rfl⟩

theorem map_fst_presentTexts (ps : List (String × Option String)) :
    List.Sublist ((presentTexts ps).map Prod.fst) (ps.map Prod.fst) := by
  induction ps with
  | nil => exact .slnil
  | cons p ps ih =>
    obtain ⟨k, t⟩ := p
    cases t with
    | none => exact ih.cons k
    | some t => exact ih.cons_cons k

theorem map_fst_toList {β : Type} (k : String) (f : β → Json) (v : Option β) :
    List.Sublist ((v.map fun b => (k, f b)).toList.map Prod.fst) [k] := by
  cases v with
  | none => exact List.nil_sublist _
  | some b => exact List.Sublist.refl _

/-! ### Causes -/

namespace StatusCause

/-- A cause with the part `k` as it is in `c`. -/
def copy (c : StatusCause) (k : String) (s : StatusCause) : StatusCause :=
  ⟨pick "field" k c.field s.field, pick "message" k c.message s.message,
    pick "reason" k c.reason s.reason⟩

theorem copy_comm (c : StatusCause) (k l : String) (s : StatusCause) :
    c.copy k (c.copy l s) = c.copy l (c.copy k s) := by
  simp only [copy]
  congr 1 <;> exact pick_comm _ _ _ _ _

/-- A cause is read back. -/
theorem recovers_toJson (c : StatusCause) : reader.Recovers c.toJson c := by
  have hnames := map_fst_presentTexts [("field", c.field), ("message", c.message),
    ("reason", c.reason)]
  refine Recovers.record c.copy (by decide) hnames.subperm ?_ c.copy_comm ?_
  · intro n hn s v hv
    obtain ⟨t, hpart, htext⟩ := mem_presentTexts.mp hn
    have hread : Json.Reader.optional Json.Reader.text v.toDraft = .ok (some t) :=
      (recovers_text t).optional (Json.text_ne_null t) v (htext ▸ hv)
    simp only [List.mem_cons, List.not_mem_nil, or_false, Prod.mk.injEq] at hpart
    rcases hpart with ⟨hname, hpart⟩ | ⟨hname, hpart⟩ | ⟨hname, hpart⟩ <;>
      simp [hname, ← hpart, takeField, hread, copy, pick]
  · obtain ⟨_ | _, _ | _, _ | _⟩ := c <;> rfl

theorem plain_toJson (c : StatusCause) (n : Nat) : c.toJson.Plain (n + 1) := by
  refine Json.plain_fields.mpr fun m hm => ?_
  obtain ⟨t, -, htext⟩ := mem_presentTexts.mp hm
  exact htext ▸ Json.plain_text t n

end StatusCause

/-! ### Details -/

namespace StatusDetails

/-- The number of the details has 32 bits with its sign. -/
def Fits (d : StatusDetails) : Prop :=
  ∀ n, d.retryAfterSeconds = some n → -2 ^ (31 : Nat) ≤ n ∧ n < 2 ^ (31 : Nat)

/-- Details with the part `k` as it is in `d`. -/
def copy (d : StatusDetails) (k : String) (s : StatusDetails) : StatusDetails :=
  ⟨pick "causes" k d.causes s.causes, pick "group" k d.group s.group, pick "kind" k d.kind s.kind,
    pick "name" k d.name s.name,
    pick "retryAfterSeconds" k d.retryAfterSeconds s.retryAfterSeconds, pick "uid" k d.uid s.uid⟩

theorem copy_comm (d : StatusDetails) (k l : String) (s : StatusDetails) :
    d.copy k (d.copy l s) = d.copy l (d.copy k s) := by
  simp only [copy]
  congr 1 <;> exact pick_comm _ _ _ _ _

/-- The written members of details. -/
inductive Member (d : StatusDetails) : String × Json → Prop
  | causes {cs : List StatusCause} (h : d.causes = some cs) :
      Member d ("causes", .list (cs.map StatusCause.toJson))
  | group {t : String} (h : d.group = some t) : Member d ("group", .text t)
  | kind {t : String} (h : d.kind = some t) : Member d ("kind", .text t)
  | name {t : String} (h : d.name = some t) : Member d ("name", .text t)
  | retryAfterSeconds {n : Int} (h : d.retryAfterSeconds = some n) :
      Member d ("retryAfterSeconds", .ofInt n)
  | uid {t : String} (h : d.uid = some t) : Member d ("uid", .text t)

/-- Details are written as the members that are there, and these make them up. -/
theorem toJson_eq (d : StatusDetails) : ∃ ms, d.toJson = .fields ms ∧ (∀ m ∈ ms, d.Member m) ∧
    (ms.map Prod.fst).Sublist (fieldNames.map (·.name)) ∧
    ms.foldl (fun s m => d.copy m.1 s) ⟨none, none, none, none, none, none⟩ = d := by
  refine ⟨_, rfl, ?_, ?_, ?_⟩
  · intro m hm
    obtain ⟨k, v⟩ := m
    simp only [List.mem_append, Option.mem_toList, Option.map_eq_some_iff, mem_presentTexts,
      List.mem_cons, List.not_mem_nil, or_false, Prod.mk.injEq] at hm
    rcases hm with ((⟨cs, h, rfl, rfl⟩ | ⟨t, ⟨rfl, h⟩ | ⟨rfl, h⟩ | ⟨rfl, h⟩, rfl⟩) |
      ⟨n, h, rfl, rfl⟩) | ⟨t, ⟨rfl, h⟩, rfl⟩
    · exact .causes h
    · exact .group h.symm
    · exact .kind h.symm
    · exact .name h.symm
    · exact .retryAfterSeconds h
    · exact .uid h.symm
  · have hsub := (((map_fst_toList "causes" (fun cs => .list (cs.map StatusCause.toJson))
      d.causes).append (map_fst_presentTexts [("group", d.group), ("kind", d.kind),
      ("name", d.name)])).append (map_fst_toList "retryAfterSeconds" Json.ofInt
      d.retryAfterSeconds)).append (map_fst_presentTexts [("uid", d.uid)])
    rw [List.map_append, List.map_append, List.map_append]
    exact hsub
  · obtain ⟨_ | _, _ | _, _ | _, _ | _, _ | _, _ | _⟩ := d <;> rfl

/-- Details are read back. -/
theorem recovers_toJson {d : StatusDetails} (hd : d.Fits) : reader.Recovers d.toJson d := by
  obtain ⟨ms, hjson, hmembers, hnames, hfinish⟩ := d.toJson_eq
  rw [hjson]
  refine Recovers.record d.copy (by decide) hnames.subperm ?_ d.copy_comm
    (congrArg _ hfinish)
  intro m hm s v hv
  have htext : ∀ t, v.Reordered (.text t) →
      Json.Reader.optional Json.Reader.text v.toDraft = .ok (some t) :=
    fun t ht => (recovers_text t).optional (Json.text_ne_null t) v ht
  cases hmembers m hm with
  | @causes cs h =>
    have hread : Json.Reader.optional (Json.Reader.items StatusCause.reader) v.toDraft =
        .ok (some cs) :=
      (Recovers.items fun c _ => c.recovers_toJson).optional (Json.list_ne_null _) v hv
    simp [takeField, hread, copy, pick, h]
  | group h => simp [takeField, htext _ hv, copy, pick, h]
  | kind h => simp [takeField, htext _ hv, copy, pick, h]
  | name h => simp [takeField, htext _ hv, copy, pick, h]
  | @retryAfterSeconds n h =>
    have hread : Json.Reader.optional (Json.Reader.signed 32) v.toDraft = .ok (some n) :=
      (recovers_signed (hd n h).1 (hd n h).2).optional (Json.number_ne_null _) v hv
    simp [takeField, hread, copy, pick, h]
  | uid h => simp [takeField, htext _ hv, copy, pick, h]

theorem plain_toJson {d : StatusDetails} (hd : d.Fits) : d.toJson.Plain 3 := by
  obtain ⟨ms, hjson, hmembers, -⟩ := d.toJson_eq
  rw [hjson]
  refine Json.plain_fields.mpr fun m hm => ?_
  cases hmembers m hm with
  | causes h =>
    refine Json.plain_list.mpr fun v hv => ?_
    obtain ⟨c, -, rfl⟩ := List.mem_map.mp hv
    exact c.plain_toJson 0
  | retryAfterSeconds h =>
    have hn := hd _ h
    exact ⟨⟨by omega, by omega⟩, Nat.zero_le _⟩
  | _ => exact Json.plain_text _ _

end StatusDetails

/-! ### Statuses -/

namespace Status

/-- The numbers of the status have the bits that a reader takes for them: the code 16 bits, and
the number in the details 32 with its sign. -/
structure Fits (s : Status) : Prop where
  code : s.code < 2 ^ (16 : Nat)
  details : ∀ d, s.details = some d → d.Fits

/-- A status with the part `k` as it is in `s`. -/
def copy (s : Status) (k : String) (p : Partial) : Partial :=
  ⟨pick "status" k (some s.status) p.status, pick "message" k s.message p.message,
    pick "reason" k s.reason p.reason, pick "code" k (some s.code) p.code,
    pick "details" k s.details p.details⟩

theorem copy_comm (s : Status) (k l : String) (p : Partial) :
    s.copy k (s.copy l p) = s.copy l (s.copy k p) := by
  simp only [copy]
  congr 1 <;> exact pick_comm _ _ _ _ _

/-- The written members of a status. -/
inductive Member (s : Status) : String × Json → Prop
  | code : Member s ("code", .ofNat s.code)
  | details {d : StatusDetails} (h : s.details = some d) : Member s ("details", d.toJson)
  | message : Member s ("message", .text s.message)
  | reason : Member s ("reason", .text s.reason)
  | status : Member s ("status", .text s.status)

/-- A status is written as all its members, and these make it up. -/
theorem toJson_eq (s : Status) : ∃ ms, s.toJson = .fields ms ∧ (∀ m ∈ ms, s.Member m) ∧
    (ms.map Prod.fst).Subperm (fieldNames.map (·.name)) ∧
    ofPartial (ms.foldl (fun p m => s.copy m.1 p) ⟨none, "", "", none, none⟩) = .ok s := by
  refine ⟨_, rfl, ?_, ?_, ?_⟩
  · intro m hm
    obtain ⟨k, v⟩ := m
    simp only [List.mem_append, Option.mem_toList, Option.map_eq_some_iff, List.mem_cons,
      List.not_mem_nil, or_false, Prod.mk.injEq] at hm
    rcases hm with (⟨rfl, rfl⟩ | ⟨d, h, rfl, rfl⟩) | ⟨rfl, rfl⟩ | ⟨rfl, rfl⟩ | ⟨rfl, rfl⟩
    · exact .code
    · exact .details h
    · exact .message
    · exact .reason
    · exact .status
  · have hsub := ((List.Sublist.refl ["code"]).append
      (map_fst_toList "details" StatusDetails.toJson s.details)).append
        (List.Sublist.refl ["message", "reason", "status"])
    have hperm : List.Perm (["code"] ++ ["details"] ++ ["message", "reason", "status"])
        (fieldNames.map (·.name)) := by decide
    rw [List.map_append, List.map_append]
    exact hsub.subperm.trans hperm.subperm
  · obtain ⟨_, _, _, _, _ | _⟩ := s <;> rfl

/-- A status is read back. -/
theorem recovers_toJson {s : Status} (hs : s.Fits) : reader.Recovers s.toJson s := by
  obtain ⟨ms, hjson, hmembers, hnames, hfinish⟩ := s.toJson_eq
  rw [hjson]
  refine Recovers.record s.copy (by decide) hnames ?_ s.copy_comm hfinish
  intro m hm p v hv
  cases hmembers m hm with
  | code =>
    have hread : Json.Reader.unsigned 16 v.toDraft = .ok s.code := recovers_unsigned hs.code v hv
    simp [takeField, hread, copy, pick]
  | @details d h =>
    have hread : Json.Reader.optional StatusDetails.reader v.toDraft = .ok (some d) :=
      (StatusDetails.recovers_toJson (hs.details d h)).optional (Json.fields_ne_null _) v hv
    simp [takeField, hread, copy, pick, h]
  | message => simp [takeField, recovers_text _ v hv, copy, pick]
  | reason => simp [takeField, recovers_text _ v hv, copy, pick]
  | status => simp [takeField, recovers_text _ v hv, copy, pick]

theorem plain_toJson {s : Status} (hs : s.Fits) : s.toJson.Plain 4 := by
  obtain ⟨ms, hjson, hmembers, -⟩ := s.toJson_eq
  rw [hjson]
  refine Json.plain_fields.mpr fun m hm => ?_
  cases hmembers m hm with
  | code =>
    have hcode := hs.code
    exact ⟨⟨by omega, by omega⟩, Nat.zero_le _⟩
  | details h => exact StatusDetails.plain_toJson (hs.details _ h)
  | _ => exact Json.plain_text _ _

end Status

/-! ### In a watch -/

namespace WatchEvent

variable (r : Json.Reader α)

theorem reader_of_complete {ms : List (String × Json)} {e : WatchEvent α}
    (h : ms.foldlM (fun s m => takeMember r s m.1 m.2.toDraft) .nothing = .ok (.complete e)) :
    reader r (Json.fields ms).toDraft = .ok e := by
  have hmembers := Json.Reader.members_toDraft (takeMember r) .nothing ms
  rw [h] at hmembers
  show (do let p ← Json.Reader.members (takeMember r) .nothing _; _) = _
  rw [hmembers]
  rfl

/-- Without a member of an event, an object is none. -/
theorem reader_of_others {ms : List (String × Json)}
    (h : ∀ m ∈ ms, m.1 ≠ "type" ∧ m.1 ≠ "object") :
    reader r (Json.fields ms).toDraft = .error .mismatch := by
  have hpassed : ms.foldlM (fun s m => takeMember r s m.1 m.2.toDraft) .nothing =
      .ok .nothing := by
    induction ms with
    | nil => rfl
    | cons m ms ih =>
      obtain ⟨⟨htype, hobject⟩, hrest⟩ := List.forall_mem_cons.mp h
      rw [List.foldlM_cons, takeMember, if_neg htype, if_neg hobject, Json.Reader.skip_toDraft]
      exact ih hrest
  have hmembers := Json.Reader.members_toDraft (takeMember r) .nothing ms
  rw [hpassed] at hmembers
  show (do let p ← Json.Reader.members (takeMember r) .nothing _; _) = _
  rw [hmembers]
  rfl

/-- An event is read back if what it carries is, its type in front of that or behind it. -/
theorem recovers_of_payload {t : EventType} {w : Json} {e : WatchEvent α}
    (h : (payloadReader r t).Recovers w e) :
    (reader r).Recovers (.fields [("object", w), ("type", .text t.name)]) e := by
  intro v hv
  obtain ⟨x, y, hx, hy, hv⟩ := hv.exists_pair
  obtain rfl := hy.eq_text
  have hpayload : payloadReader r t x.toDraft = .ok e := h x hx
  have htype : EventType.reader (Json.text t.name).toDraft = .ok t := by
    cases t <;> rfl
  rcases hv with rfl | rfl
  -- in front of its type, what is carried is held back until the type says how to read it
  · obtain ⟨w, hw⟩ := Json.Reader.exists_value_toDraft x
    refine reader_of_complete r ?_
    simp [takeMember, hw, htype, Json.Reader.buffered, hpayload]
  · refine reader_of_complete r ?_
    simp [takeMember, htype, hpayload]

end WatchEvent

namespace Status

/-- A bare status has no member of an event, and so is none. -/
theorem reader_bare (r : Json.Reader α) {s : Status} {v : Json} (hv : v.Reordered s.toJson) :
    WatchEvent.reader r v.toDraft = .error .mismatch := by
  obtain ⟨ns, hjson, hmembers, -⟩ := s.toJson_eq
  rw [hjson] at hv
  cases hv with
  | fields hp hs =>
    refine WatchEvent.reader_of_others r fun m hm => ?_
    obtain ⟨n, hn, hname, -⟩ := hs.exists_of_mem m (hp.mem_iff.mp hm)
    rw [hname]
    cases hmembers n hn <;> simp

/-- The event of an error is read back. -/
theorem recovers_event (r : Json.Reader α) {s : Status} (hs : s.Fits) :
    (WatchEvent.reader r).Recovers (.fields [("object", s.toJson), ("type", .text "ERROR")])
      (.error s) :=
  WatchEvent.recovers_of_payload r (t := .error) ((recovers_toJson hs).map WatchEvent.error)

end Status

end ClusterKit
