/-
# Readers that wait

A reader is patient if it says of a text that breaks off just that: what it would have
read in the whole text, it misses in a beginning, and nothing else is wrong. In turn it
says so only of a text in which the end stands in place of something. Readers take one
part after the other, so that whatever they miss, they miss in one of the parts.

Key definitions: `Draft.Unfinished`, `Reader.Waits`, `Reader.Patient`, `Reader.walk`.
Key theorems: `Reader.Patient.map`, `Reader.Patient.bind`, `Reader.Patient.optional`,
`Reader.unfinished_of_ofChars`, `Reader.ofChars_of_brokenOff`.
-/
import ClusterKit.Json.Read
import ClusterKit.Proofs.Json.BrokenOff
import ClusterKit.Outcome

namespace ClusterKit
namespace Json

/-- The end of the text stands somewhere in the draft, in place of what is missing. -/
inductive Draft.Unfinished : Draft → Prop
  | name (v : ReadError) (s : Option ReadError) : Unfinished (.broken .truncated v s)
  | value (n : ReadError) (s : Option ReadError) : Unfinished (.broken n .truncated s)
  | skip (n v : ReadError) : Unfinished (.broken n v (some .truncated))
  | listEnd (deep : Bool) (ds : List Draft) : Unfinished (.list deep ds (some .truncated))
  | item {deep : Bool} {ds : List Draft} {close : Option ReadError} {d : Draft} (h : d ∈ ds)
      (hd : Unfinished d) : Unfinished (.list deep ds close)
  | fieldsEnd (deep : Bool) (ms : List (Name × Draft)) :
      Unfinished (.fields deep ms (some .truncated))
  | memberName {deep : Bool} {ms : List (Name × Draft)} {close : Option ReadError} {d : Draft}
      (h : (.broken .truncated, d) ∈ ms) : Unfinished (.fields deep ms close)
  | member {deep : Bool} {ms : List (Name × Draft)} {close : Option ReadError} {k : Name}
      {d : Draft} (h : (k, d) ∈ ms) (hd : Unfinished d) : Unfinished (.fields deep ms close)

/-- Induction over a draft, with the parts of its lists and objects. -/
@[elab_as_elim]
theorem Draft.induct {motive : Draft → Prop} (scalar : ∀ v, motive (.scalar v))
    (broken : ∀ n v s, motive (.broken n v s))
    (list : ∀ deep ds close, (∀ d ∈ ds, motive d) → motive (.list deep ds close))
    (fields : ∀ deep ms close, (∀ k d, (k, d) ∈ ms → motive d) → motive (.fields deep ms close))
    (d : Draft) : motive d := by
  refine @Draft.rec motive (fun ds => ∀ d ∈ ds, motive d) (fun ms => ∀ k d, (k, d) ∈ ms → motive d)
    (fun m => motive m.2) scalar broken list fields nofun ?_ nofun ?_ (fun _ _ hd => hd) d
  · intro d ds hd hds
    exact List.forall_mem_cons.mpr ⟨hd, hds⟩
  · intro m ms hm hms k d hmem
    rcases List.mem_cons.mp hmem with rfl | hmem
    · exact hm
    · exact hms k d hmem

namespace Reader

open Draft (BrokenOff Shorter)

/-- Where the reader reads a draft, it misses something in one that is broken off, and
reads a number that is shorter too. -/
structure Waits (r : Reader α) : Prop where
  waits : ∀ {d d' a}, BrokenOff d d' → r d' = .ok a → r d = .error .truncated
  shortens : ∀ {x y a}, Shorter x y → r y = .ok a → ∃ b, r x = .ok b

/-- The reader misses something only where something is missing. -/
def Honest (r : Reader α) : Prop :=
  ∀ d, r d = .error .truncated → d.Unfinished

/-- The reader misses something where a draft is broken off, and only where something is
missing. -/
structure Patient (r : Reader α) : Prop extends Waits r where
  honest : r.Honest

/-- The reader stops at what has no value. -/
def Strict (r : Reader α) : Prop :=
  ∀ n v s, r (.broken n v s) = .error v

/-- The reader reads no numbers. -/
def NumberFree (r : Reader α) : Prop :=
  ∀ {x y}, Shorter x y → ∀ a, r y ≠ .ok a

/-! ### Parts one after the other -/

/-- Take parts one by one, and then their end. -/
def walk (step : σ → δ → Except ReadError σ) (finish : σ → Except ReadError β)
    (close : Option ReadError) : List δ → σ → Except ReadError β
  | [], s => match close with
    | none => finish s
    | some e => .error e
  | d :: ds, s => do
    let s ← step s d
    walk step finish close ds s

section

variable {step : σ → δ → Except ReadError σ} {finish : σ → Except ReadError β}
  {close : Option ReadError} {xs ys : List δ} {x y : δ} {s : σ} {b : β}

/-- What has been taken in front leads to one state, whatever follows. -/
theorem walk_append (h : walk step finish close (xs ++ ys) s = .ok b) :
    ∃ u, walk step finish close ys u = .ok b ∧
      ∀ close' zs, walk step finish close' (xs ++ zs) s = walk step finish close' zs u := by
  induction xs generalizing s with
  | nil => exact ⟨s, h, fun _ _ => rfl⟩
  | cons x xs ih =>
    obtain ⟨t, hx, hxs⟩ := bind_eq_ok.mp h
    obtain ⟨u, hys, hall⟩ := ih hxs
    refine ⟨u, hys, fun close' zs => ?_⟩
    rw [List.cons_append, walk, hx]
    exact hall close' zs

theorem close_of_walk (h : walk step finish close xs s = .ok b) : close = none := by
  rw [← List.append_nil xs] at h
  obtain ⟨u, hend, -⟩ := walk_append h
  cases close with
  | none => rfl
  | some e => cases hend

/-- Each part has been taken. -/
theorem step_of_walk (h : walk step finish close xs s = .ok b) (hx : x ∈ xs) :
    ∃ u w, step u x = .ok w := by
  obtain ⟨front, back, rfl⟩ := List.append_of_mem hx
  obtain ⟨u, hback, -⟩ := walk_append h
  obtain ⟨w, hw, -⟩ := bind_eq_ok.mp hback
  exact ⟨u, w, hw⟩

theorem walk_end (h : walk step finish close (xs ++ ys) s = .ok b) :
    walk step finish (some .truncated) xs s = .error .truncated := by
  obtain ⟨u, -, hall⟩ := walk_append h
  rw [← List.append_nil xs, hall]
  rfl

/-- A part that is broken off. -/
theorem walk_part (hx : ∀ s a, step s y = .ok a → step s x = .error .truncated)
    (h : walk step finish close (xs ++ y :: ys) s = .ok b) :
    walk step finish (some .truncated) (xs ++ [x]) s = .error .truncated := by
  obtain ⟨u, hys, hall⟩ := walk_append h
  obtain ⟨t, hy, -⟩ := bind_eq_ok.mp hys
  rw [hall, walk, hx u t hy]
  rfl

/-- A part that is there, as the last one. -/
theorem walk_number (hx : ∀ s a, step s y = .ok a → ∃ b, step s x = .ok b)
    (h : walk step finish close (xs ++ y :: ys) s = .ok b) :
    walk step finish (some .truncated) (xs ++ [x]) s = .error .truncated := by
  obtain ⟨u, hys, hall⟩ := walk_append h
  obtain ⟨t, hy, -⟩ := bind_eq_ok.mp hys
  obtain ⟨v, hv⟩ := hx u t hy
  rw [hall, walk, hv]
  rfl

theorem honest_walk {I : σ → Prop} (hs : I s) (hI : ∀ s d t, I s → step s d = .ok t → I t)
    (h : walk step finish close xs s = .error .truncated)
    (hfinish : ∀ s, finish s ≠ .error .truncated) :
    close = some .truncated ∨ ∃ u d, I u ∧ d ∈ xs ∧ step u d = .error .truncated := by
  induction xs generalizing s with
  | nil =>
    cases close with
    | none => exact absurd h (hfinish s)
    | some e =>
      cases h
      exact .inl rfl
  | cons x xs ih =>
    rw [walk] at h
    cases hx : step s x with
    | error e =>
      rw [hx] at h
      cases h
      exact .inr ⟨s, x, hs, List.mem_cons_self, hx⟩
    | ok t =>
      rw [hx] at h
      rcases ih (hI s x t hs hx) h with hclose | ⟨u, d, hu, hd, hstep⟩
      · exact .inl hclose
      · exact .inr ⟨u, d, hu, List.mem_cons_of_mem _ hd, hstep⟩

end

section

variable {step : σ → Draft → Except ReadError σ} {finish : σ → Except ReadError β} {s : σ}
  {ds : List Draft} {close : Option ReadError}

/-- A list is unfinished if a part of it is missed, or its end. -/
theorem unfinished_of_walk_list (deep : Bool)
    (hstep : ∀ u, ∀ d ∈ ds, step u d = .error .truncated → d.Unfinished)
    (h : walk step finish close ds s = .error .truncated)
    (hfinish : ∀ s, finish s ≠ .error .truncated) : (Draft.list deep ds close).Unfinished := by
  have hmiss := honest_walk (I := fun _ => True) trivial (fun _ _ _ _ _ => trivial) h hfinish
  rcases hmiss with rfl | ⟨u, d, -, hd, hmiss⟩
  · exact .listEnd deep ds
  · exact .item hd (hstep u d hd hmiss)

end

section

variable {step : σ → Name × Draft → Except ReadError σ} {finish : σ → Except ReadError β}
  {s : σ} {ms : List (Name × Draft)} {close : Option ReadError} {I : σ → Prop}

/-- An object is unfinished if a name or a value in it is missed, or its end. -/
theorem unfinished_of_walk_fields (deep : Bool) (hs : I s)
    (hI : ∀ s m t, I s → step s m = .ok t → I t)
    (hstep : ∀ u k d, I u → (k, d) ∈ ms → step u (k, d) = .error .truncated →
      k = .broken .truncated ∨ d.Unfinished)
    (h : walk step finish close ms s = .error .truncated)
    (hfinish : ∀ s, finish s ≠ .error .truncated) : (Draft.fields deep ms close).Unfinished := by
  rcases honest_walk hs hI h hfinish with rfl | ⟨u, ⟨k, d⟩, hu, hmem, hmiss⟩
  · exact .fieldsEnd deep ms
  · rcases hstep u k d hu hmem hmiss with rfl | hd
    · exact .memberName hmem
    · exact .member hmem hd

end

/-! ### Steps -/

section

variable {r : Reader α} {g : Draft → α → Except ReadError β}

theorem Strict.bind (h : r.Strict) : Strict fun d => r d >>= g d := by
  intro n v s
  exact congrArg (· >>= g _) (h n v s)

theorem NumberFree.bind (h : r.NumberFree) : NumberFree fun d => r d >>= g d := by
  intro x y hxy b hy
  obtain ⟨a, ha, -⟩ := bind_eq_ok.mp hy
  exact h hxy a ha

/-- Of what has been read without numbers anything may be made. -/
theorem Waits.bind (h : r.Waits) (hn : r.NumberFree) : Waits fun d => r d >>= g d where
  waits hd hok := by
    obtain ⟨a, ha, -⟩ := bind_eq_ok.mp hok
    exact congrArg (· >>= g _) (h.waits hd ha)
  shortens hxy hok := absurd hok (hn.bind hxy _)

/-- What has been read is taken as it is. -/
theorem Waits.map (h : r.Waits) (hg : ∀ d a, ∃ b, g d a = .ok b) :
    Waits fun d => r d >>= g d where
  waits hd hok := by
    obtain ⟨a, ha, -⟩ := bind_eq_ok.mp hok
    exact congrArg (· >>= g _) (h.waits hd ha)
  shortens {x y _} hxy hok := by
    obtain ⟨a, ha, -⟩ := bind_eq_ok.mp hok
    obtain ⟨a', ha'⟩ := h.shortens hxy ha
    obtain ⟨b, hb⟩ := hg x a'
    exact ⟨b, bind_eq_ok.mpr ⟨a', ha', hb⟩⟩

theorem Honest.bind (h : r.Honest) (hg : ∀ d a, g d a ≠ .error .truncated) :
    Honest fun d => r d >>= g d := by
  intro d hd
  cases hr : r d with
  | ok a =>
    simp only [hr, ok_bind] at hd
    exact absurd hd (hg d a)
  | error e =>
    simp only [hr, error_bind] at hd
    cases hd
    exact h d hr

theorem Patient.bind (h : r.Patient) (hn : r.NumberFree)
    (hg : ∀ d a, g d a ≠ .error .truncated) : Patient fun d => r d >>= g d :=
  ⟨h.toWaits.bind hn, h.honest.bind hg⟩

theorem Patient.map (h : r.Patient) (hg : ∀ d a, ∃ b, g d a = .ok b) :
    Patient fun d => r d >>= g d := by
  refine ⟨h.toWaits.map hg, h.honest.bind fun d a => ?_⟩
  obtain ⟨b, hb⟩ := hg d a
  rw [hb]
  exact nofun

/-- So is a reader that says more about what it has read. -/
theorem Patient.of_map {r : Reader α} {s : Reader β} {f : α → β} (h : s.Patient)
    (hmap : ∀ d, (r d).map f = s d) : r.Patient := by
  have hread : ∀ {d a}, r d = .ok a → s d = .ok (f a) := by
    intro d a hd
    rw [← hmap, hd]
    rfl
  have hfail : ∀ {d e}, r d = .error e ↔ s d = .error e := by
    intro d e
    rw [← hmap]
    cases r d <;> simp [Except.map]
  refine ⟨⟨fun hd hok => hfail.mpr (h.waits hd (hread hok)), fun {x _ _} hxy hok => ?_⟩,
    fun d hd => h.honest d (hfail.mp hd)⟩
  obtain ⟨b, hb⟩ := h.shortens hxy (hread hok)
  cases hx : r x with
  | ok a => exact ⟨a, rfl⟩
  | error e =>
    rw [hfail.mp hx] at hb
    cases hb

/-- Nothing is read at all. -/
theorem waits_error (e : ReadError) : Waits fun _ => (.error e : Except ReadError α) where
  waits _ hok := nomatch hok
  shortens _ hok := nomatch hok

theorem patient_error {e : ReadError} (he : e ≠ .truncated) :
    Patient fun _ => (.error e : Except ReadError α) :=
  ⟨waits_error e, fun _ hd => absurd (Except.error.inj hd) he⟩

end

/-! ### Scalars -/

section

variable {r : Reader α}

/-- A strict reader waits if it waits inside of lists and objects. -/
theorem Strict.waits (h : r.Strict)
    (hlist : ∀ {deep ds ds' close' a},
      BrokenOff (.list deep ds (some .truncated)) (.list deep ds' close') →
      r (.list deep ds' close') = .ok a → r (.list deep ds (some .truncated)) = .error .truncated)
    (hfields : ∀ {deep ms ms' close' a},
      BrokenOff (.fields deep ms (some .truncated)) (.fields deep ms' close') →
      r (.fields deep ms' close') = .ok a →
      r (.fields deep ms (some .truncated)) = .error .truncated)
    {d d' : Draft} {a : α} (hd : BrokenOff d d') (hok : r d' = .ok a) :
    r d = .error .truncated := by
  cases hd with
  | nothing d => exact h _ _ _
  | lone he =>
    rw [h] at hok
    cases hok
  | word hv => exact h _ _ _
  | listEnd deep xs ys close => exact hlist (.listEnd deep xs ys close) hok
  | listItem hxy deep xs ys close => exact hlist (.listItem hxy deep xs ys close) hok
  | listNumber hxy deep xs ys close => exact hlist (.listNumber hxy deep xs ys close) hok
  | fieldsEnd deep xs ys close => exact hfields (.fieldsEnd deep xs ys close) hok
  | fieldsMember hxy deep k xs ys close => exact hfields (.fieldsMember hxy deep k xs ys close) hok
  | fieldsNumber hxy deep k xs ys close => exact hfields (.fieldsNumber hxy deep k xs ys close) hok
  | fieldsName he deep xs y ys close => exact hfields (.fieldsName he deep xs y ys close) hok

/-- A strict reader without numbers. -/
theorem Strict.numberFree (h : r.Strict) (hn : ∀ n a, r (.scalar (.number n)) ≠ .ok a) :
    r.NumberFree := by
  intro x y hxy a hok
  cases hxy with
  | number hmn => exact hn _ a hok
  | overflow m =>
    rw [h] at hok
    cases hok
  | overflown =>
    rw [h] at hok
    cases hok

theorem NumberFree.shortens (h : r.NumberFree) {x y : Draft} {a : α} (hxy : Shorter x y)
    (hok : r y = .ok a) : ∃ b, r x = .ok b :=
  absurd hok (h hxy a)

/-- A strict reader of scalars refuses lists and objects without looking inside. -/
theorem Strict.patient (h : r.Strict)
    (hshort : ∀ {x y a}, Shorter x y → r y = .ok a → ∃ b, r x = .ok b)
    (hscalar : ∀ v, r (.scalar v) ≠ .error .truncated)
    (hlist : ∀ deep ds close, r (.list deep ds close) = .error .mismatch)
    (hfields : ∀ deep ms close, r (.fields deep ms close) = .error .mismatch) : r.Patient where
  waits := h.waits
    (fun {_ _ _ _ _} _ hok => by rw [hlist] at hok; cases hok)
    (fun {_ _ _ _ _} _ hok => by rw [hfields] at hok; cases hok)
  shortens := hshort
  honest d hd := by
    cases d with
    | scalar v => exact absurd hd (hscalar v)
    | broken n v s =>
      rw [h] at hd
      cases hd
      exact .value n s
    | list deep ds close =>
      rw [hlist] at hd
      cases hd
    | fields deep ms close =>
      rw [hfields] at hd
      cases hd

end

theorem strict_text : text.Strict := fun _ _ _ => rfl

theorem numberFree_text : text.NumberFree := strict_text.numberFree nofun

theorem patient_text : text.Patient :=
  strict_text.patient numberFree_text.shortens (fun v => by cases v <;> exact nofun)
    (fun _ _ _ => rfl) (fun _ _ _ => rfl)

theorem strict_flag : flag.Strict := fun _ _ _ => rfl

theorem numberFree_flag : flag.NumberFree := strict_flag.numberFree nofun

theorem patient_flag : flag.Patient :=
  strict_flag.patient numberFree_flag.shortens
    (fun v => by cases v <;> exact nofun) (fun _ _ _ => rfl) (fun _ _ _ => rfl)

theorem strict_whole (lo hi : Int) : (whole lo hi).Strict := fun _ _ _ => rfl

/-- A range around zero takes every beginning of its numbers. -/
theorem patient_whole {lo hi : Int} (hlo : lo ≤ 0) (hhi : 0 ≤ hi) : (whole lo hi).Patient := by
  refine (strict_whole lo hi).patient (fun {x y a} hxy hok => ?_) (fun v => ?_)
    (fun _ _ _ => rfl) (fun _ _ _ => rfl)
  · cases hxy with
    | overflow m => cases hok
    | overflown => cases hok
    | @number m n hmn =>
      cases n with
      | real d => cases hok
      | whole b =>
        obtain ⟨a', rfl, hrange⟩ := hmn b rfl
        unfold whole at hok
        dsimp only at hok
        split at hok
        · exact ⟨a', if_pos (by omega)⟩
        · cases hok
  · cases v with
    | number n =>
      cases n with
      | real d => exact nofun
      | whole b =>
        unfold whole
        dsimp only
        split <;> exact nofun
    | null => exact nofun
    | bool b => exact nofun
    | text s => exact nofun

theorem strict_signed (bits : Nat) : (signed bits).Strict := strict_whole _ _

theorem patient_signed (bits : Nat) : (signed bits).Patient :=
  patient_whole (by have := Int.pow_pos (n := 2) (m := bits - 1) (by decide); omega)
    (by have := Int.pow_pos (n := 2) (m := bits - 1) (by decide); omega)

theorem patient_unsigned (bits : Nat) : (unsigned bits).Patient :=
  (patient_whole (Int.le_refl 0) (by
    have := Int.pow_pos (n := 2) (m := bits) (by decide); omega)).map fun _ _ => ⟨_, rfl⟩

theorem strict_int64 : int64.Strict := (strict_signed 64).bind

theorem patient_int64 : int64.Patient := (patient_signed 64).map fun _ _ => ⟨_, rfl⟩

/-! ### Optional values -/

section

variable {r : Reader α}

theorem optional_of_ne {d : Draft} (h : d ≠ .scalar .null) :
    optional r d = (do let v ← r d; return some v) := by
  unfold optional
  split
  · exact absurd rfl h
  · rfl

theorem Strict.optional (h : r.Strict) : (optional r).Strict := by
  intro n v s
  have hne : Draft.broken n v s ≠ .scalar .null := nofun
  rw [optional_of_ne hne, h]
  rfl

theorem Patient.optional (h : r.Patient) (hs : r.Strict) : (Reader.optional r).Patient where
  waits {d d' a} hd hok := by
    have hne : d ≠ .scalar .null := by
      rintro rfl
      cases hd
    by_cases hnull : d' = .scalar .null
    · subst hnull
      cases hd with
      | nothing => exact hs.optional _ _ _
      | word => exact hs.optional _ _ _
    · rw [optional_of_ne hnull] at hok
      obtain ⟨v, hv, -⟩ := bind_eq_ok.mp hok
      rw [optional_of_ne hne, h.waits hd hv]
      rfl
  shortens {x y a} hxy hok := by
    have hx : x ≠ .scalar .null := by
      rintro rfl
      cases hxy
    have hy : y ≠ .scalar .null := by
      rintro rfl
      cases hxy
    rw [optional_of_ne hy] at hok
    obtain ⟨v, hv, -⟩ := bind_eq_ok.mp hok
    obtain ⟨w, hw⟩ := h.shortens hxy hv
    exact ⟨some w, by rw [optional_of_ne hx, hw]; rfl⟩
  honest d hd := by
    by_cases hnull : d = .scalar .null
    · subst hnull
      cases hd
    · rw [optional_of_ne hnull] at hd
      cases hr : r d with
      | ok v =>
        rw [hr] at hd
        cases hd
      | error e =>
        rw [hr] at hd
        cases hd
        exact h.honest d hr

end

/-! ### Whole texts -/

section

variable {r : Reader α} {a : α} {p q : List Char}

theorem ofChars_eq_ok :
    r.ofChars p = .ok a ↔
      r (Document.ofChars p).root = .ok a ∧ (Document.ofChars p).trailing = false := by
  unfold ofChars ofDocument
  rw [bind_eq_ok]
  cases (Document.ofChars p).trailing <;> simp

theorem unfinished_of_ofChars (hr : r.Honest) (h : r.ofChars p = .error .truncated) :
    (Document.ofChars p).root.Unfinished := by
  rcases bind_eq_error.mp h with hroot | ⟨v, -, htrailing⟩
  · exact hr _ hroot
  · split at htrailing <;> cases htrailing

variable (hclosed : ∀ {d a}, r d = .ok a → d.Closed) (h : r.ofChars (p ++ q) = .ok a)

include hclosed h

/-- What is read of a text is read without the blanks at its end. -/
theorem ofChars_of_blank (hq : Token.Blank q) : r.ofChars p = .ok a := by
  obtain ⟨hroot, htrailing⟩ := ofChars_eq_ok.mp h
  have hsame := Document.ofChars_of_blank (hclosed hroot) htrailing hq
  rw [ofChars_eq_ok, hsame]
  exact ⟨hroot, htrailing⟩

/-- Nothing is read of a text before its value has ended. -/
theorem ofChars_ne_ok (hq : ¬ Token.Blank q) (b : α) : r.ofChars p ≠ .ok b := by
  intro hb
  obtain ⟨hroot, htrailing⟩ := ofChars_eq_ok.mp h
  exact Document.not_closed_of_append (hclosed hroot) htrailing hq
    (hclosed (ofChars_eq_ok.mp hb).1)

/-- A patient reader misses the rest of a text that breaks off. -/
theorem ofChars_of_brokenOff (hr : r.Waits) (hq : ¬ Token.Blank q)
    (hnumber : Token.splitsNumber p q = false) : r.ofChars p = .error .truncated := by
  obtain ⟨hroot, htrailing⟩ := ofChars_eq_ok.mp h
  have hcut := Document.brokenOff_of_append (hclosed hroot) htrailing hq hnumber
  rw [ofChars, ofDocument, hr.waits hcut hroot]
  rfl

end

end Reader
end Json
end ClusterKit
