/-
# The order of members

Who writes a record is free in the order of its members, so that one value has many
written forms. A reader recovers something from a value if it reads it from the value
with the members of all objects in it in any order. Readers of lists and of optional
parts do if those of the parts do, and readers of records do if what each member does
to the record does not depend on when it comes.

Key definitions: `Json.Reordered`, `Json.Reader.Recovers`.
Key theorems: `Json.Reordered.exists_members`, `Json.Reader.Recovers.ofText`,
`Json.Reader.record_filter`, `Json.Reader.Recovers.record`.
-/
import ClusterKit.Proofs.Json.Draft
import ClusterKit.Proofs.Json.Written
import Mathlib.Data.List.Permutation

namespace ClusterKit
namespace Json

mutual

/-- The first value is the second but for the order in which objects list their members. -/
inductive Reordered : Json → Json → Prop
  | null : Reordered .null .null
  | bool (b : Bool) : Reordered (.bool b) (.bool b)
  | number (n : Number) : Reordered (.number n) (.number n)
  | text (s : String) : Reordered (.text s) (.text s)
  | list {vs ws : List Json} (h : ReorderedItems vs ws) : Reordered (.list vs) (.list ws)
  | fields {ms ms' ns : List (String × Json)} (hp : ms.Perm ms') (h : ReorderedMembers ms' ns) :
      Reordered (.fields ms) (.fields ns)

/-- So are the values of two lists. -/
inductive ReorderedItems : List Json → List Json → Prop
  | nil : ReorderedItems [] []
  | cons {v w : Json} {vs ws : List Json} (h : Reordered v w) (hs : ReorderedItems vs ws) :
      ReorderedItems (v :: vs) (w :: ws)

/-- So are the values of members with the same names. -/
inductive ReorderedMembers : List (String × Json) → List (String × Json) → Prop
  | nil : ReorderedMembers [] []
  | cons {k : String} {v w : Json} {ms ns : List (String × Json)} (h : Reordered v w)
      (hs : ReorderedMembers ms ns) : ReorderedMembers ((k, v) :: ms) ((k, w) :: ns)

end

mutual

theorem reordered_refl : ∀ v : Json, v.Reordered v
  | .null => .null
  | .bool b => .bool b
  | .number n => .number n
  | .text s => .text s
  | .list vs => .list (reorderedItems_refl vs)
  | .fields ms => .fields (.refl ms) (reorderedMembers_refl ms)

theorem reorderedItems_refl : ∀ vs : List Json, ReorderedItems vs vs
  | [] => .nil
  | v :: vs => .cons (reordered_refl v) (reorderedItems_refl vs)

theorem reorderedMembers_refl : ∀ ms : List (String × Json), ReorderedMembers ms ms
  | [] => .nil
  | (_, v) :: ms => .cons (reordered_refl v) (reorderedMembers_refl ms)

end

namespace ReorderedMembers

/-- A member has its name from one of the others, and its value but for the order. -/
theorem exists_of_mem : ∀ {ms ns : List (String × Json)}, ReorderedMembers ms ns →
    ∀ m ∈ ms, ∃ n ∈ ns, m.1 = n.1 ∧ m.2.Reordered n.2
  | [], [], .nil => List.forall_mem_nil _
  | _ :: _, _ :: _, .cons h hs => by
    refine List.forall_mem_cons.mpr ⟨⟨_, List.mem_cons_self, rfl, h⟩, fun m hm => ?_⟩
    obtain ⟨n, hn, hname, hvalue⟩ := hs.exists_of_mem m hm
    exact ⟨n, List.mem_cons_of_mem _ hn, hname, hvalue⟩

/-- Members in another order are those of the others in another order. -/
theorem exists_perm {ms ms' ns : List (String × Json)} (hp : ms.Perm ms')
    (h : ReorderedMembers ms' ns) : ∃ ps, ReorderedMembers ms ps ∧ ps.Perm ns := by
  induction hp generalizing ns with
  | nil => exact ⟨ns, h, .refl ns⟩
  | cons m hp ih =>
    cases h with
    | cons hv hs =>
      obtain ⟨ps, hps, hperm⟩ := ih hs
      exact ⟨_, .cons hv hps, hperm.cons _⟩
  | swap m m' ms =>
    cases h with
    | cons hv hs =>
      cases hs with
      | cons hw hs => exact ⟨_, .cons hw (.cons hv hs), .swap _ _ _⟩
  | trans _ _ ih₁ ih₂ =>
    obtain ⟨qs, hqs, hq⟩ := ih₂ h
    obtain ⟨ps, hps, hp⟩ := ih₁ hqs
    exact ⟨ps, hps, hp.trans hq⟩

/-- The members of two lists are those of the one and then those of the other. -/
theorem exists_append : ∀ {ms as bs : List (String × Json)}, ReorderedMembers ms (as ++ bs) →
    ∃ as' bs', ms = as' ++ bs' ∧ ReorderedMembers as' as ∧ ReorderedMembers bs' bs
  | ms, [], _, h => ⟨[], ms, rfl, .nil, h⟩
  | _ :: _, _ :: _, _, .cons h hs => by
    obtain ⟨as', bs', rfl, has, hbs⟩ := hs.exists_append
    exact ⟨_, bs', rfl, .cons h has, hbs⟩

end ReorderedMembers

namespace Reordered

variable {v x y : Json} {k l : String}

theorem eq_text {s : String} (h : v.Reordered (.text s)) : v = .text s := by
  cases h
  rfl

/-- An object lists the members in some order, their values so, too. -/
theorem exists_members {ns : List (String × Json)} (h : v.Reordered (.fields ns)) :
    ∃ ms ps, v = .fields ms ∧ ReorderedMembers ms ps ∧ ps.Perm ns := by
  cases h with
  | fields hp hs =>
    obtain ⟨ps, hps, hperm⟩ := hs.exists_perm hp
    exact ⟨_, ps, rfl, hps, hperm⟩

/-- Two members can come in two orders. -/
theorem exists_pair (h : v.Reordered (.fields [(k, x), (l, y)])) :
    ∃ x' y', x'.Reordered x ∧ y'.Reordered y ∧
      (v = .fields [(k, x'), (l, y')] ∨ v = .fields [(l, y'), (k, x')]) := by
  obtain ⟨ms, ps, rfl, hms, hp⟩ := h.exists_members
  rcases List.perm_pair.mp hp with rfl | rfl
  · obtain _ | ⟨hx, _ | ⟨hy, _ | _⟩⟩ := hms
    exact ⟨_, _, hx, hy, .inl rfl⟩
  · obtain _ | ⟨hy, _ | ⟨hx, _ | _⟩⟩ := hms
    exact ⟨_, _, hx, hy, .inr rfl⟩

end Reordered

mutual

/-- The order of members does not count for whether a value can be written and read back. -/
theorem Plain.reordered : ∀ {v w : Json} {n : Nat}, w.Plain n → v.Reordered w → v.Plain n
  | _, .null, _, h, .null => h
  | _, .bool _, _, h, .bool _ => h
  | _, .number _, _, h, .number _ => h
  | _, .text _, _, h, .text _ => h
  | .list _, .list _, 0, h, _ => absurd h.shallow (Nat.not_succ_le_zero _)
  | .list _, .list _, _ + 1, h, .list hs =>
    plain_list.mpr (plain_items_reordered (plain_list.mp h) hs)
  | .fields _, .fields _, 0, h, _ => absurd h.shallow (Nat.not_succ_le_zero _)
  | .fields _, .fields _, _ + 1, h, .fields hp hs =>
    plain_fields.mpr fun m hm => plain_members_reordered (plain_fields.mp h) hs m (hp.mem_iff.mp hm)

theorem plain_items_reordered : ∀ {vs ws : List Json} {n : Nat}, (∀ w ∈ ws, w.Plain n) →
    ReorderedItems vs ws → ∀ v ∈ vs, v.Plain n
  | [], [], _, _, .nil => List.forall_mem_nil _
  | _ :: _, _ :: _, _, h, .cons hv hs =>
    List.forall_mem_cons.mpr ⟨(h _ List.mem_cons_self).reordered hv,
      plain_items_reordered (fun w hw => h w (List.mem_cons_of_mem _ hw)) hs⟩

theorem plain_members_reordered : ∀ {ms ns : List (String × Json)} {n : Nat},
    (∀ m ∈ ns, m.2.Plain n) → ReorderedMembers ms ns → ∀ m ∈ ms, m.2.Plain n
  | [], [], _, _, .nil => List.forall_mem_nil _
  | _ :: _, _ :: _, _, h, .cons hv hs =>
    List.forall_mem_cons.mpr ⟨(h _ List.mem_cons_self).reordered hv,
      plain_members_reordered (fun m hm => h m (List.mem_cons_of_mem _ hm)) hs⟩

end

/-! ### Values that are there -/

theorem text_ne_null (s : String) : Json.text s ≠ .null := by
  simp

theorem bool_ne_null (b : Bool) : Json.bool b ≠ .null := by
  simp

theorem number_ne_null (n : Number) : Json.number n ≠ .null := by
  simp

theorem list_ne_null (vs : List Json) : Json.list vs ≠ .null := by
  simp

theorem fields_ne_null (ms : List (String × Json)) : Json.fields ms ≠ .null := by
  simp

namespace Reader

/-! ### Readers that recover -/

/-- The reader reads `a` from the value, in whatever order its objects list their members. -/
def Recovers (r : Reader α) (w : Json) (a : α) : Prop :=
  ∀ v : Json, v.Reordered w → r v.toDraft = .ok a

/-- What is recovered from a value is read from its text. -/
theorem Recovers.ofText {r : Reader α} {w : Json} {a : α} (h : r.Recovers w a)
    (hw : w.Plain Document.maxDepth) {v : Json} (hv : v.Reordered w) :
    r.ofText v.render = .ok a := by
  rw [ofText_render r (hw.reordered hv), h v hv]

theorem recovers_text (s : String) : text.Recovers (.text s) s
  | _, .text _ => rfl

theorem recovers_whole {lo hi n : Int} (hlo : lo ≤ n) (hhi : n ≤ hi) :
    (whole lo hi).Recovers (.ofInt n) n
  | _, .number _ => if_pos ⟨hlo, hhi⟩

theorem recovers_unsigned {bits n : Nat} (h : n < 2 ^ bits) :
    (unsigned bits).Recovers (.ofNat n) n := by
  intro v hv
  have hn : whole 0 (2 ^ bits - 1) v.toDraft = .ok (n : Int) :=
    recovers_whole (Int.natCast_nonneg n) (Int.le_sub_one_of_lt (by exact_mod_cast h)) v hv
  rw [unsigned, hn]
  rfl

theorem recovers_signed {bits : Nat} {n : Int} (hlo : -(2 ^ (bits - 1)) ≤ n)
    (hhi : n < 2 ^ (bits - 1)) : (signed bits).Recovers (.ofInt n) n :=
  recovers_whole hlo (Int.le_sub_one_of_lt hhi)

/-- An optional part that is there. -/
theorem Recovers.optional {r : Reader α} {w : Json} {a : α} (h : r.Recovers w a)
    (hw : w ≠ .null) : (Reader.optional r).Recovers w (some a) := by
  intro v hv
  have hread := h v hv
  have hsome : Reader.optional r v.toDraft = (do let a ← r v.toDraft; return some a) := by
    cases hv with
    | null => exact absurd rfl hw
    | _ => rfl
  rw [hsome, hread]
  rfl

theorem Recovers.items {r : Reader α} {f : α → Json} {as : List α}
    (h : ∀ a ∈ as, r.Recovers (f a) a) : (Reader.items r).Recovers (.list (as.map f)) as := by
  have hitems : ∀ (vs : List Json), ReorderedItems vs (as.map f) →
      itemsOf r none (toDrafts vs) = .ok as := by
    induction as with
    | nil =>
      intro vs hvs
      cases hvs
      rfl
    | cons a as ih =>
      intro vs hvs
      cases hvs with
      | @cons v _ vs _ hv hvs =>
        have hfirst := h a List.mem_cons_self v hv
        have hrest := ih (fun b hb => h b (List.mem_cons_of_mem _ hb)) vs hvs
        simp [toDrafts, itemsOf, hfirst, hrest]
  intro v hv
  cases hv with
  | list hvs => exact hitems _ hvs

/-! ### Records -/

section

variable {fields : List Field} {read : String → Draft → σ → Except ReadError σ}

/-- Members that are no fields are passed over. -/
theorem foldlM_takeField_filter (ms : List (String × Json)) : ∀ s : σ × List String,
    ms.foldlM (fun s m => takeField fields read s m.1 m.2.toDraft) s =
      (ms.filter fun m => fields.any (·.name == m.1)).foldlM
        (fun s m => takeField fields read s m.1 m.2.toDraft) s := by
  induction ms with
  | nil => exact fun _ => rfl
  | cons m ms ih =>
    intro s
    cases hm : fields.any (·.name == m.1) with
    | true =>
      rw [List.filter_cons, if_pos hm, List.foldlM_cons, List.foldlM_cons]
      simp only [ih]
    | false =>
      have hpass : takeField fields read s m.1 m.2.toDraft = .ok s := by
        unfold takeField
        rw [hm, if_neg Bool.false_ne_true, skip_toDraft]
        rfl
      rw [List.filter_cons, if_neg (Bool.eq_false_iff.mp hm), List.foldlM_cons, hpass, ok_bind, ih]

theorem record_toDraft (init : σ) (finish : σ → Except ReadError α) (ms : List (String × Json)) :
    record fields read init finish (toDraft (.fields ms)) = (do
      let s ← ms.foldlM (fun s m => takeField fields read s m.1 m.2.toDraft) (init, [])
      finish s.1) := by
  simp only [record, toDraft, foldMembers_toMembers]
  rw [if_neg Bool.false_ne_true]

/-- A record is read from those members of an object that are fields. -/
theorem record_filter (init : σ) (finish : σ → Except ReadError α) (ms : List (String × Json)) :
    record fields read init finish (toDraft (.fields ms)) =
      record fields read init finish
        (toDraft (.fields (ms.filter fun m => fields.any (·.name == m.1)))) := by
  rw [record_toDraft, record_toDraft, foldlM_takeField_filter]

/-- Members that are all fields, each once, are taken one after the other. -/
theorem foldlM_takeField (put : String → σ → σ) : ∀ {ms ns : List (String × Json)},
    ReorderedMembers ms ns → (ns.map Prod.fst).Nodup →
    (∀ n ∈ ns, fields.any (·.name == n.1) = true) →
    (∀ n ∈ ns, ∀ s, Recovers (fun d => read n.1 d s) n.2 (put n.1 s)) →
    ∀ (s : σ) (seen : List String), (∀ n ∈ ns, n.1 ∉ seen) → ∃ seen',
      ms.foldlM (fun s m => takeField fields read s m.1 m.2.toDraft) (s, seen) =
        .ok (ns.foldl (fun s n => put n.1 s) s, seen')
  | [], [], .nil, _, _, _, _, seen, _ => ⟨seen, rfl⟩
  | (k, v) :: ms, (_, w) :: ns, .cons hv hs, hnames, hfields, hread, s, seen, hseen => by
    obtain ⟨hnew, hnames⟩ := List.nodup_cons.mp hnames
    obtain ⟨hfield, hfields⟩ := List.forall_mem_cons.mp hfields
    obtain ⟨hfirst, hread⟩ := List.forall_mem_cons.mp hread
    have hunseen : k ∉ seen := hseen _ List.mem_cons_self
    have hvalue : read k v.toDraft s = .ok (put k s) := hfirst s v hv
    have htake : takeField fields read (s, seen) k v.toDraft = .ok (put k s, k :: seen) := by
      simp [takeField, hfield, hunseen, hvalue]
    have hseen' : ∀ n ∈ ns, n.1 ∉ k :: seen := by
      intro n hn hmem
      rcases List.mem_cons.mp hmem with heq | hmem
      · have hname : n.1 ∈ ns.map Prod.fst := List.mem_map_of_mem hn
        exact hnew (heq ▸ hname)
      · exact hseen n (List.mem_cons_of_mem _ hn) hmem
    rw [List.foldlM_cons, htake, ok_bind, List.foldl_cons]
    exact foldlM_takeField put hs hnames hfields hread (put k s) (k :: seen) hseen'

/-- A record is recovered from its members if each is read for what it does to the record, and
if this does not depend on when it comes. -/
theorem Recovers.record (put : String → σ → σ) {init : σ} {finish : σ → Except ReadError α}
    {ns : List (String × Json)} {a : α} (hfields : (fields.map (·.name)).Nodup)
    (hnames : (ns.map Prod.fst).Subperm (fields.map (·.name)))
    (hread : ∀ n ∈ ns, ∀ s, Recovers (fun d => read n.1 d s) n.2 (put n.1 s))
    (hput : ∀ k l s, put k (put l s) = put l (put k s))
    (hfinish : finish (ns.foldl (fun s n => put n.1 s) init) = .ok a) :
    (Reader.record fields read init finish).Recovers (.fields ns) a := by
  intro v hv
  obtain ⟨ms, ps, rfl, hms, hp⟩ := hv.exists_members
  have hfold : ps.foldl (fun s p => put p.1 s) init = ns.foldl (fun s n => put n.1 s) init :=
    hp.foldl_eq' (fun m _ n _ s => hput n.1 m.1 s) init
  have hknown : ∀ p ∈ ps, fields.any (·.name == p.1) = true := by
    intro p hmem
    have hname := hnames.subset (List.mem_map_of_mem (hp.mem_iff.mp hmem))
    obtain ⟨f, hf, hname⟩ := List.mem_map.mp hname
    exact List.any_eq_true.mpr ⟨f, hf, by simp [hname]⟩
  have honce : (ps.map Prod.fst).Nodup := by
    obtain ⟨names, hperm, hsub⟩ := hnames
    exact ((hp.map Prod.fst).trans hperm.symm).nodup_iff.mpr (hfields.sublist hsub)
  obtain ⟨seen, htaken⟩ := foldlM_takeField put hms honce hknown
    (fun p hmem => hread p (hp.mem_iff.mp hmem)) init [] (fun _ _ => List.not_mem_nil)
  rw [record_toDraft, htaken, ok_bind, hfold, hfinish]

end

end Reader

end Json
end ClusterKit
