/-
# Written values are read back

A value is written so that its own draft comes of the text again, whatever its texts
hold, as long as its numbers are whole ones of 64 bits and it lies no deeper than a
reader goes. The proof follows the text: a written value goes into its place in the
innermost list or object that is open, and behind it comes a comma or the end. No
control stands in a written value, so that it is one line.

Key definitions: `Json.IsWhole`, `Json.depth`, `Json.Plain`.
Key theorems: `Json.Document.ofChars_renderChars`, `Json.Reader.ofText_render`,
`Json.le_of_mem_renderChars`.
-/
import ClusterKit.Json.Read
import ClusterKit.Proofs.Json.WrittenTokens

namespace ClusterKit
namespace Json

/-! ### Values -/

mutual

/-- Every number inside the value is a whole one of 64 bits. -/
def IsWhole : Json → Prop
  | .number (.whole n) => -2 ^ (63 : Nat) ≤ n ∧ n < 2 ^ (64 : Nat)
  | .number (.real _) => False
  | .list vs => ItemsWhole vs
  | .fields ms => MembersWhole ms
  | _ => True

/-- All values of a list are such. -/
def ItemsWhole : List Json → Prop
  | [] => True
  | v :: vs => IsWhole v ∧ ItemsWhole vs

/-- The values of all members are such. -/
def MembersWhole : List (String × Json) → Prop
  | [] => True
  | (_, v) :: ms => IsWhole v ∧ MembersWhole ms

end

mutual

/-- How many lists and objects lie inside of each other. -/
def depth : Json → Nat
  | .list vs => itemsDepth vs + 1
  | .fields ms => membersDepth ms + 1
  | _ => 0

/-- The greatest depth of the values of a list. -/
def itemsDepth : List Json → Nat
  | [] => 0
  | v :: vs => max (depth v) (itemsDepth vs)

/-- The greatest depth of the values of members. -/
def membersDepth : List (String × Json) → Nat
  | [] => 0
  | (_, v) :: ms => max (depth v) (membersDepth ms)

end

theorem itemsWhole_iff (vs : List Json) : ItemsWhole vs ↔ ∀ v ∈ vs, v.IsWhole := by
  induction vs with
  | nil => simp [ItemsWhole]
  | cons v vs ih => simp [ItemsWhole, ih]

theorem membersWhole_iff (ms : List (String × Json)) :
    MembersWhole ms ↔ ∀ m ∈ ms, m.2.IsWhole := by
  induction ms with
  | nil => simp [MembersWhole]
  | cons m ms ih => simp [MembersWhole, ih]

theorem itemsDepth_le_iff {vs : List Json} {n : Nat} :
    itemsDepth vs ≤ n ↔ ∀ v ∈ vs, v.depth ≤ n := by
  induction vs with
  | nil => simp [itemsDepth]
  | cons v vs ih => rw [itemsDepth, Nat.max_le, ih, List.forall_mem_cons]

theorem membersDepth_le_iff {ms : List (String × Json)} {n : Nat} :
    membersDepth ms ≤ n ↔ ∀ m ∈ ms, m.2.depth ≤ n := by
  induction ms with
  | nil => simp [membersDepth]
  | cons m ms ih => rw [membersDepth, Nat.max_le, ih, List.forall_mem_cons]

/-- A value of whole numbers of 64 bits that is at most `n` deep. -/
structure Plain (v : Json) (n : Nat) : Prop where
  whole : v.IsWhole
  shallow : v.depth ≤ n

theorem Plain.mono {v : Json} {m n : Nat} (h : v.Plain m) (hm : m ≤ n) : v.Plain n :=
  ⟨h.whole, Nat.le_trans h.shallow hm⟩

theorem plain_text (s : String) (n : Nat) : (Json.text s).Plain n :=
  ⟨trivial, Nat.zero_le n⟩

theorem plain_list {vs : List Json} {n : Nat} :
    (Json.list vs).Plain (n + 1) ↔ ∀ v ∈ vs, v.Plain n := by
  constructor
  · rintro ⟨hw, hd⟩ v hv
    exact ⟨(itemsWhole_iff vs).mp hw v hv, itemsDepth_le_iff.mp (Nat.le_of_succ_le_succ hd) v hv⟩
  · intro h
    exact ⟨(itemsWhole_iff vs).mpr fun v hv => (h v hv).whole,
      Nat.succ_le_succ (itemsDepth_le_iff.mpr fun v hv => (h v hv).shallow)⟩

theorem plain_fields {ms : List (String × Json)} {n : Nat} :
    (Json.fields ms).Plain (n + 1) ↔ ∀ m ∈ ms, m.2.Plain n := by
  constructor
  · rintro ⟨hw, hd⟩ m hm
    exact ⟨(membersWhole_iff ms).mp hw m hm,
      membersDepth_le_iff.mp (Nat.le_of_succ_le_succ hd) m hm⟩
  · intro h
    exact ⟨(membersWhole_iff ms).mpr fun m hm => (h m hm).whole,
      Nat.succ_le_succ (membersDepth_le_iff.mpr fun m hm => (h m hm).shallow)⟩

theorem renderItems_cons_cons (v w : Json) (vs : List Json) :
    renderItems (v :: w :: vs) = renderChars v ++ ',' :: renderItems (w :: vs) := by
  simp [renderItems]

theorem renderMembers_cons_cons (k : String) (v : Json) (m : String × Json)
    (ms : List (String × Json)) : renderMembers ((k, v) :: m :: ms) =
      renderText k ++ ':' :: (renderChars v ++ ',' :: renderMembers (m :: ms)) := by
  simp [renderMembers]

namespace Document
namespace State

open Token (scanFrom Apart apart_cons)

/-- A text goes on with a value, for which there is room. -/
structure Awaits (s : State) (room : Nat) : Prop where
  going : s.done = none
  value : s.expect = .value ∨ s.expect = .valueOrClose
  shallow : s.frames.length + room ≤ maxDepth

theorem Awaits.mono {s : State} {m n : Nat} (h : s.Awaits n) (hm : m ≤ n) : s.Awaits m :=
  { h with shallow := Nat.le_trans (Nat.add_le_add_left hm _) h.shallow }

section

variable {s : State} {room : Nat}

theorem Awaits.step_eq (h : s.Awaits room) {t : Token} (ht : t ≠ .mark ']') :
    s.step t = s.takeValue t := by
  unfold step
  rw [h.going, if_neg (by simp)]
  rcases h.value with hv | hv
  · rw [hv]
  · rw [hv]
    exact if_neg ht

theorem Awaits.step_scalar (h : s.Awaits room) (v : Scalar) :
    s.step (.scalar v) = s.place (.scalar v) :=
  h.step_eq nofun

/-- There is room for what is opened. -/
theorem Awaits.push_eq (h : s.Awaits (room + 1)) (frame : Bool → Frame) (expect : Expect) :
    s.push frame expect = { s with frames := frame false :: s.frames, expect := expect } := by
  have hroom : ¬ maxDepth ≤ s.frames.length := by
    have := h.shallow
    omega
  rw [push, decide_eq_false hroom]

/-- A list that is opened goes on with a value or its end, and an object with a name or its
end. -/
theorem Awaits.step_list (h : s.Awaits (room + 1)) : s.step (.mark '[') =
    { s with frames := .list false [] :: s.frames, expect := .valueOrClose } :=
  (h.step_eq (by decide)).trans (h.push_eq (.list · []) _)

theorem Awaits.step_fields (h : s.Awaits (room + 1)) : s.step (.mark '\x7b') =
    { s with frames := .fields false [] none :: s.frames, expect := .nameOrClose } :=
  (h.step_eq (by decide)).trans (h.push_eq (.fields · [] none) _)

/-- Inside of another one, a value goes into its place, and then comes a comma or the end. -/
theorem place_of_cons {f : Frame} {fs : List Frame} (h : s.frames = f :: fs) (e : Expect)
    (d : Draft) : ({ s with expect := e } : State).place d =
      { s with frames := fill d f :: fs, expect := .comma } := by
  unfold place
  dsimp only
  rw [h]

end

section

variable {s : State} {room : Nat} {items : List Draft} {members : List (Name × Draft)}
  {fs : List Frame} {d : Draft} {k : Name}

/-- Behind a value of a list comes another one or the end. -/
theorem step_behind_item (h : s.done = none) (hs : s.frames = .list false items :: fs)
    (e : Expect) :
    (({ s with expect := e } : State).place d).step (.mark ',') =
        { s with frames := .list false (d :: items) :: fs, expect := .value } ∧
      (({ s with expect := e } : State).place d).step (.mark ']') =
        ({ s with frames := fs, expect := .comma } : State).place
          (.list false (items.reverse ++ [d]) none) := by
  rw [place_of_cons hs]
  constructor
  · simp [step, h, takeComma, fill]
  · simp [step, h, takeComma, fill, pop, shut]

/-- Behind a member of an object comes another one or the end. -/
theorem step_behind_member (h : s.done = none)
    (hs : s.frames = .fields false members (some k) :: fs) (e : Expect) :
    (({ s with expect := e } : State).place d).step (.mark ',') =
        { s with frames := .fields false ((k, d) :: members) none :: fs, expect := .name } ∧
      (({ s with expect := e } : State).place d).step (.mark '\x7d') =
        ({ s with frames := fs, expect := .comma } : State).place
          (.fields false (members.reverse ++ [(k, d)]) none) := by
  rw [place_of_cons hs]
  constructor
  · simp [step, h, takeComma, fill]
  · simp [step, h, takeComma, fill, pop, shut]

/-- A name and a colon lead to the value of a member. -/
theorem run_name {n : String} (h : s.done = none)
    (hexpect : s.expect = .name ∨ s.expect = .nameOrClose)
    (hs : s.frames = .fields false members none :: fs) (rest : List Char) :
    (scanFrom .between (renderText n ++ ':' :: rest)).foldl step s =
      (scanFrom .between rest).foldl step
        { s with frames := .fields false members (some (.text n)) :: fs, expect := .value } := by
  have hname : s.step (.scalar (.text n)) =
      { s with frames := .fields false members (some (.text n)) :: fs, expect := .colon } := by
    rcases hexpect with hexpect | hexpect <;> simp [step, h, hexpect, takeName, await, hs]
  rw [Token.scan_renderText]
  show (scanFrom .between rest).foldl step ((s.step (.scalar (.text n))).step (.mark ':')) = _
  rw [hname]
  simp [step, h]

end

mutual

/-- A written value goes into its place as its draft. -/
theorem run_value : ∀ (v : Json) (rest : List Char) {s : State}, v.IsWhole → s.Awaits v.depth →
    Apart rest → ∃ e, (scanFrom .between (renderChars v ++ rest)).foldl step s =
      (scanFrom .between rest).foldl step (({ s with expect := e } : State).place v.toDraft)
  | .null, rest, s, _, h, _ => by
    rw [Token.scan_null, List.foldl_cons, h.step_scalar]
    exact ⟨s.expect, rfl⟩
  | .bool b, rest, s, _, h, _ => by
    rw [Token.scan_bool, List.foldl_cons, h.step_scalar]
    exact ⟨s.expect, rfl⟩
  | .number (.whole n), rest, s, hn, h, hrest => by
    rw [renderChars, Token.scan_renderNumber hn.1 hn.2 hrest, List.foldl_cons, h.step_scalar]
    exact ⟨s.expect, rfl⟩
  | .number (.real d), _, _, hn, _, _ => hn.elim
  | .text t, rest, s, _, h, _ => by
    rw [renderChars, Token.scan_renderText, List.foldl_cons, h.step_scalar]
    exact ⟨s.expect, rfl⟩
  | .list [], rest, s, _, h, _ => by
    refine ⟨.valueOrClose, ?_⟩
    show (scanFrom .between rest).foldl step ((s.step (.mark '[')).step (.mark ']')) = _
    rw [h.step_list]
    simp [step, h.going, pop, shut, toDraft, toDrafts]
  | .list (v :: vs), rest, s, hvs, h, _ => by
    have hroom : s.frames.length + 1 + itemsDepth (v :: vs) ≤ maxDepth := by
      have hshallow := h.shallow
      rw [depth] at hshallow
      omega
    have hrun := run_items (v :: vs) rest
      (s := { s with frames := .list false [] :: s.frames, expect := .valueOrClose })
      nofun hvs ⟨h.going, .inr rfl, hroom⟩ rfl
    refine ⟨.comma, ?_⟩
    show (scanFrom .between (renderItems (v :: vs) ++ [']'] ++ rest)).foldl step
      (s.step (.mark '[')) = _
    rw [h.step_list, List.append_assoc]
    exact hrun
  | .fields [], rest, s, _, h, _ => by
    refine ⟨.nameOrClose, ?_⟩
    show (scanFrom .between rest).foldl step ((s.step (.mark '\x7b')).step (.mark '\x7d')) = _
    rw [h.step_fields]
    simp [step, h.going, pop, shut, toDraft, toMembers]
  | .fields (m :: ms), rest, s, hms, h, _ => by
    have hroom : s.frames.length + 1 + membersDepth (m :: ms) ≤ maxDepth := by
      have hshallow := h.shallow
      rw [depth] at hshallow
      omega
    have hrun := run_members (m :: ms) rest
      (s := { s with frames := .fields false [] none :: s.frames, expect := .nameOrClose })
      nofun hms h.going (.inr rfl) rfl hroom
    refine ⟨.comma, ?_⟩
    show (scanFrom .between (renderMembers (m :: ms) ++ ['\x7d'] ++ rest)).foldl step
      (s.step (.mark '\x7b')) = _
    rw [h.step_fields, List.append_assoc]
    exact hrun

/-- Written values of a list go behind those that have come, and then the list ends. -/
theorem run_items : ∀ (vs : List Json) (rest : List Char) {s : State} {items : List Draft}
    {fs : List Frame}, vs ≠ [] → ItemsWhole vs → s.Awaits (itemsDepth vs) →
    s.frames = .list false items :: fs →
    (scanFrom .between (renderItems vs ++ ']' :: rest)).foldl step s =
      (scanFrom .between rest).foldl step (({ s with frames := fs, expect := .comma } : State).place
        (.list false (items.reverse ++ toDrafts vs) none))
  | [], _, _, _, _, hne, _, _, _ => absurd rfl hne
  | [v], rest, s, items, fs, _, hvs, h, hs => by
    obtain ⟨e, hrun⟩ := run_value v (']' :: rest) hvs.1
      (h.mono (Nat.le_max_left _ _)) (apart_cons (by decide) _)
    rw [renderItems, hrun]
    show (scanFrom .between rest).foldl step (State.step _ (.mark ']')) = _
    rw [(step_behind_item h.going hs e).2]
    rfl
  | v :: w :: vs, rest, s, items, fs, _, hvs, h, hs => by
    obtain ⟨e, hrun⟩ := run_value v (',' :: (renderItems (w :: vs) ++ ']' :: rest)) hvs.1
      (h.mono (Nat.le_max_left _ _)) (apart_cons (by decide) _)
    have hroom : fs.length + 1 + itemsDepth (w :: vs) ≤ maxDepth := by
      have hshallow := h.shallow
      rw [hs, List.length_cons, itemsDepth] at hshallow
      omega
    have hmore := run_items (w :: vs) rest
      (s := { s with frames := .list false (v.toDraft :: items) :: fs, expect := .value })
      nofun hvs.2 ⟨h.going, .inl rfl, hroom⟩ rfl
    rw [renderItems_cons_cons, List.append_assoc, List.cons_append, hrun]
    show (scanFrom .between (renderItems (w :: vs) ++ ']' :: rest)).foldl step
      (State.step _ (.mark ',')) = _
    rw [(step_behind_item h.going hs e).1, hmore]
    simp [toDrafts]

/-- Written members of an object go behind those that have come, and then the object ends. -/
theorem run_members : ∀ (ms : List (String × Json)) (rest : List Char) {s : State}
    {members : List (Name × Draft)} {fs : List Frame}, ms ≠ [] → MembersWhole ms → s.done = none →
    (s.expect = .name ∨ s.expect = .nameOrClose) → s.frames = .fields false members none :: fs →
    s.frames.length + membersDepth ms ≤ maxDepth →
    (scanFrom .between (renderMembers ms ++ '\x7d' :: rest)).foldl step s =
      (scanFrom .between rest).foldl step (({ s with frames := fs, expect := .comma } : State).place
        (.fields false (members.reverse ++ toMembers ms) none))
  | [], _, _, _, _, hne, _, _, _, _, _ => absurd rfl hne
  | [(k, v)], rest, s, members, fs, _, hms, hs, hexpect, hframes, hshallow => by
    have hroom : fs.length + 1 + v.depth ≤ maxDepth := by
      rw [hframes, List.length_cons, membersDepth] at hshallow
      omega
    obtain ⟨e, hrun⟩ := run_value v ('\x7d' :: rest)
      (s := { s with frames := .fields false members (some (.text k)) :: fs, expect := .value })
      hms.1 ⟨hs, .inl rfl, hroom⟩ (apart_cons (by decide) _)
    have hend := (step_behind_member (d := v.toDraft) hs (s := { s with
      frames := .fields false members (some (.text k)) :: fs, expect := .value }) rfl e).2
    rw [renderMembers, List.append_assoc, List.cons_append, run_name hs hexpect hframes, hrun]
    show (scanFrom .between rest).foldl step (State.step _ (.mark '\x7d')) = _
    rw [hend]
    rfl
  | (k, v) :: m :: ms, rest, s, members, fs, _, hms, hs, hexpect, hframes, hshallow => by
    obtain ⟨hroom, hroom'⟩ : fs.length + 1 + v.depth ≤ maxDepth ∧
        fs.length + 1 + membersDepth (m :: ms) ≤ maxDepth := by
      rw [hframes, List.length_cons, membersDepth] at hshallow
      omega
    obtain ⟨e, hrun⟩ := run_value v (',' :: (renderMembers (m :: ms) ++ '\x7d' :: rest))
      (s := { s with frames := .fields false members (some (.text k)) :: fs, expect := .value })
      hms.1 ⟨hs, .inl rfl, hroom⟩ (apart_cons (by decide) _)
    have hmore := run_members (m :: ms) rest (s := { s with
        frames := .fields false ((.text k, v.toDraft) :: members) none :: fs, expect := .name })
      nofun hms.2 hs (.inl rfl) rfl hroom'
    have hbehind := (step_behind_member (d := v.toDraft) hs (s := { s with
      frames := .fields false members (some (.text k)) :: fs, expect := .value }) rfl e).1
    rw [renderMembers_cons_cons, List.append_assoc, List.cons_append, List.append_assoc,
      List.cons_append, run_name hs hexpect hframes, hrun]
    show (scanFrom .between (renderMembers (m :: ms) ++ '\x7d' :: rest)).foldl step
      (State.step _ (.mark ',')) = _
    rw [hbehind, hmore]
    simp [toMembers]

end

end State

/-- **Written values.** The document of a written value is its draft, and nothing follows it. -/
theorem ofChars_renderChars {v : Json} (h : v.Plain maxDepth) :
    ofChars (renderChars v) = ⟨v.toDraft, false⟩ := by
  obtain ⟨e, hrun⟩ := State.run_value v [] (s := .init) h.whole
    ⟨rfl, .inl rfl, by simpa [State.init] using h.shallow⟩ Token.apart_nil
  rw [List.append_nil] at hrun
  unfold ofChars ofTokens Token.scan
  rw [hrun]
  rfl

end Document

/-- What a reader makes of a written value is what it makes of its draft. -/
theorem Reader.ofText_render (r : Reader α) {v : Json} (h : v.Plain Document.maxDepth) :
    r.ofText v.render = r v.toDraft := by
  unfold ofText ofChars ofDocument
  rw [render, String.toList_ofList, Document.ofChars_renderChars h]
  cases r v.toDraft <;> rfl

/-! ### No controls -/

theorem le_of_all {cs : List Char} (h : cs.all (fun d => decide (0x20 ≤ d.toNat)) = true) :
    ∀ d ∈ cs, 0x20 ≤ d.toNat :=
  fun d hd => of_decide_eq_true (List.all_eq_true.mp h d hd)

/-- No control stands in what is written for a character. -/
theorem le_of_mem_escaped {c d : Char} (h : d ∈ escaped c) : 0x20 ≤ d.toNat := by
  by_cases hcontrol : c.toNat < 0x20
  · have hunits : ∀ n < 0x20,
        (escaped (Char.ofNat n)).all (fun d => decide (0x20 ≤ d.toNat)) = true := by decide
    exact le_of_all (hunits c.toNat hcontrol) d (by rwa [Char.ofNat_toNat])
  · have hne : ∀ e : Char, e.toNat < 0x20 → c ≠ e := by
      rintro e he rfl
      exact hcontrol he
    by_cases hquote : c = '"' ∨ c = '\\'
    · have hshort : ∀ d ∈ escaped '"' ++ escaped '\\', 0x20 ≤ d.toNat := le_of_all (by decide)
      rcases hquote with rfl | rfl
      · exact hshort d (List.mem_append_left _ h)
      · exact hshort d (List.mem_append_right _ h)
    · rw [not_or] at hquote
      have hplain : escaped c = [c] := by simp [escaped, hquote, hne, hcontrol]
      rw [hplain, List.mem_singleton] at h
      exact h ▸ Nat.le_of_not_lt hcontrol

theorem le_of_mem_renderText {s : String} {d : Char} (h : d ∈ renderText s) : 0x20 ≤ d.toNat := by
  simp only [renderText, List.cons_append, List.mem_cons, List.mem_append, List.mem_flatMap,
    List.not_mem_nil, or_false] at h
  rcases h with rfl | ⟨c, -, hc⟩ | rfl
  · decide
  · exact le_of_mem_escaped hc
  · decide

theorem le_of_mem_renderNumber {n : Int} {d : Char} (h : d ∈ renderNumber (.whole n)) :
    0x20 ≤ d.toNat := by
  have hdigits : ∀ k, d ∈ Nat.toDigits 10 k → 0x20 ≤ d.toNat := by
    intro k hk
    have hdigit := Char.isDigit_iff_toNat.mp
      (Nat.isDigit_of_mem_toDigits (by decide) (by decide) hk)
    exact Nat.le_trans (by decide) hdigit.1
  rw [renderNumber, Int.toString_eq_repr, Int.repr_eq_if] at h
  split at h
  · exact hdigits _ (Nat.toList_repr ▸ h)
  · rw [String.toList_append, List.mem_append] at h
    rcases h with h | h
    · rw [List.mem_singleton.mp h]
      decide
    · exact hdigits _ (Nat.toList_repr ▸ h)

mutual

/-- No control stands in a written value. -/
theorem le_of_mem_renderChars : ∀ {v : Json}, v.IsWhole → ∀ d ∈ renderChars v, 0x20 ≤ d.toNat
  | .null, _ => le_of_all (by decide)
  | .bool b, _ => le_of_all (by cases b <;> decide)
  | .number (.whole n), _ => fun d hd => le_of_mem_renderNumber hd
  | .number (.real _), h => h.elim
  | .text s, _ => fun d hd => le_of_mem_renderText hd
  | .list vs, h => by
    rw [renderChars, List.cons_append]
    exact List.forall_mem_cons.mpr ⟨by decide, List.forall_mem_append.mpr
      ⟨le_of_mem_renderItems h, le_of_all (by decide)⟩⟩
  | .fields ms, h => by
    rw [renderChars, List.cons_append]
    exact List.forall_mem_cons.mpr ⟨by decide, List.forall_mem_append.mpr
      ⟨le_of_mem_renderMembers h, le_of_all (by decide)⟩⟩

theorem le_of_mem_renderItems : ∀ {vs : List Json}, ItemsWhole vs →
    ∀ d ∈ renderItems vs, 0x20 ≤ d.toNat
  | [], _ => List.forall_mem_nil _
  | [v], h => le_of_mem_renderChars h.1
  | v :: w :: vs, h => by
    rw [renderItems_cons_cons]
    exact List.forall_mem_append.mpr ⟨le_of_mem_renderChars h.1, List.forall_mem_cons.mpr
      ⟨by decide, le_of_mem_renderItems h.2⟩⟩

theorem le_of_mem_renderMembers : ∀ {ms : List (String × Json)}, MembersWhole ms →
    ∀ d ∈ renderMembers ms, 0x20 ≤ d.toNat
  | [], _ => List.forall_mem_nil _
  | [(k, v)], h => by
    rw [renderMembers]
    exact List.forall_mem_append.mpr ⟨fun _ => le_of_mem_renderText, List.forall_mem_cons.mpr
      ⟨by decide, le_of_mem_renderChars h.1⟩⟩
  | (k, v) :: m :: ms, h => by
    rw [renderMembers_cons_cons]
    exact List.forall_mem_append.mpr ⟨fun _ => le_of_mem_renderText, List.forall_mem_cons.mpr
      ⟨by decide, List.forall_mem_append.mpr ⟨le_of_mem_renderChars h.1, List.forall_mem_cons.mpr
        ⟨by decide, le_of_mem_renderMembers h.2⟩⟩⟩⟩

end

end Json
end ClusterKit
