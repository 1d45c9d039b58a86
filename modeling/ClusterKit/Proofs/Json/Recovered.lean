/-
# What is read in any order

Values, flags, whole numbers and tables are read back from what is written of them,
however the objects inside list their members. So is what a reader makes of an object
by taking its members one by one, if what a member does to it does not depend on when
it comes.

Key definition: `pick`.
Key theorems: `Json.Reader.recovers_value`, `Json.Reader.Recovers.members`,
`Json.Reader.Recovers.table`, `foldl_pick`.
-/
import ClusterKit.Proofs.Json.Reordered

namespace ClusterKit

/-! ### Parts of records -/

/-- What stands at a part of a record when the part `k` is taken from another one: that of the
other one if it is this part. -/
def pick (part k : String) (other own : α) : α :=
  if k = part then other else own

theorem pick_comm (part k l : String) (other own : α) :
    pick part k other (pick part l other own) = pick part l other (pick part k other own) := by
  unfold pick
  split_ifs <;> rfl

/-- A part that is there has been taken once its name has come. -/
theorem foldl_pick {part : String} {v : Option α} {ks : List String}
    (h : v.isSome = true → part ∈ ks) :
    ks.foldl (fun own k => pick part k v own) none = v := by
  have hkeep : ∀ ks : List String, ks.foldl (fun own k => pick part k v own) v = v := by
    intro ks
    induction ks with
    | nil => rfl
    | cons k ks ih => rwa [List.foldl_cons, pick, ite_self]
  cases v with
  | none => exact hkeep ks
  | some a =>
    obtain ⟨before, behind, rfl⟩ := List.append_of_mem (h rfl)
    rw [List.foldl_append, List.foldl_cons, pick, if_pos rfl]
    exact hkeep behind

namespace Json
namespace Reader

/-! ### Values -/

mutual

theorem value_of_reordered : ∀ (v : Json) {w : Json}, w.Canonical → v.Reordered w →
    value (toDraft v) = .ok w
  | .null, _, _, .null => rfl
  | .bool _, _, _, .bool _ => rfl
  | .number _, _, _, .number _ => rfl
  | .text _, _, _, .text _ => rfl
  | .list vs, .list _, h, .list hs => by
    have hvs := valueItems_of_reordered vs h hs
    simp [toDraft, value, hvs]
  | .fields ms, .fields ns, h, .fields hp hs => by
    obtain ⟨ps, hps, hperm⟩ := hs.exists_perm hp
    have hcanonical : CanonicalMembers ps := (canonicalMembers_iff ps).mpr fun p hmem =>
      (canonicalMembers_iff ns).mp h.2 p (hperm.mem_iff.mp hmem)
    have hms := valueMembers_of_reordered ms hcanonical hps
    have hobject : object ps = .fields ns := congrArg _ (Entries.ofList_of_perm hperm h.1)
    simp [toDraft, value, hms, hobject]

theorem valueItems_of_reordered : ∀ (vs : List Json) {ws : List Json}, CanonicalItems ws →
    ReorderedItems vs ws → valueItems none (toDrafts vs) = .ok ws
  | [], [], _, .nil => rfl
  | v :: vs, _ :: _, h, .cons hv hs => by
    have hfirst := value_of_reordered v h.1 hv
    have hrest := valueItems_of_reordered vs h.2 hs
    simp [toDrafts, valueItems, hfirst, hrest]

theorem valueMembers_of_reordered : ∀ (ms : List (String × Json)) {ns : List (String × Json)},
    CanonicalMembers ns → ReorderedMembers ms ns → valueMembers none (toMembers ms) = .ok ns
  | [], [], _, .nil => rfl
  | (_, v) :: ms, _ :: _, h, .cons hv hs => by
    have hfirst := value_of_reordered v h.1 hv
    have hrest := valueMembers_of_reordered ms h.2 hs
    simp [toMembers, valueMembers, Name.read, hfirst, hrest]

end

/-- A value is read back. -/
theorem recovers_value {w : Json} (h : w.Canonical) : Recovers value w w :=
  fun v hv => value_of_reordered v h hv

theorem recovers_canonical {w : Json} (h : w.Canonical) : Recovers canonical w ⟨w, h⟩ := by
  intro v hv
  have hread : value v.toDraft = .ok w := recovers_value h v hv
  unfold canonical
  split
  · rename_i hv'
    rw [hread] at hv'
    cases hv'
    rfl
  · rename_i hv'
    rw [hread] at hv'
    cases hv'

/-! ### Parts -/

theorem Recovers.toDraft {r : Reader α} {w : Json} {a : α} (h : r.Recovers w a) :
    r w.toDraft = .ok a :=
  h w (reordered_refl w)

theorem Recovers.map {r : Reader α} {w : Json} {a : α} (h : r.Recovers w a) (f : α → β) :
    Recovers (fun d => do let a ← r d; return f a) w (f a) := by
  intro v hv
  simp only [h v hv, ok_bind, pure_eq_ok]

theorem recovers_flag (b : Bool) : flag.Recovers (.bool b) b
  | _, .bool _ => rfl

theorem recovers_int64 (n : Int64) : int64.Recovers (.ofInt64 n) n := by
  have hlo : -2 ^ 63 ≤ n.toInt := Int64.le_toInt n
  have hhi : n.toInt < 2 ^ 63 := Int64.toInt_lt n
  have hread : (signed 64).Recovers (.ofInt64 n) n.toInt := recovers_signed (by omega) (by omega)
  have hnumber := hread.map Int64.ofInt
  rwa [Int64.ofInt_toInt] at hnumber

theorem recovers_ofStrings (ss : List String) : (items text).Recovers (.ofStrings ss) ss :=
  Recovers.items fun s _ => recovers_text s

/-! ### Objects -/

/-- Members are taken one after the other, each for what it does. -/
theorem foldlM_of_reordered {take : σ → String → Draft → Except ReadError σ}
    (put : String → σ → σ) : ∀ {ms ns : List (String × Json)}, ReorderedMembers ms ns →
    (∀ n ∈ ns, ∀ s, Recovers (take s n.1) n.2 (put n.1 s)) → ∀ s : σ,
      ms.foldlM (fun s m => take s m.1 m.2.toDraft) s = .ok (ns.foldl (fun s n => put n.1 s) s)
  | [], [], .nil, _, _ => rfl
  | (k, v) :: ms, (_, w) :: ns, .cons hv hs, htake, s => by
    obtain ⟨hfirst, hrest⟩ := List.forall_mem_cons.mp htake
    have htaken : take s k v.toDraft = .ok (put k s) := hfirst s v hv
    rw [List.foldlM_cons, htaken, ok_bind, foldlM_of_reordered put hs hrest, List.foldl_cons]

/-- What is made of an object by its members is recovered from them if it does not depend on when
each of them comes. -/
theorem Recovers.members {take : σ → String → Draft → Except ReadError σ} (put : String → σ → σ)
    {init a : σ} {ns : List (String × Json)}
    (htake : ∀ n ∈ ns, ∀ s, Recovers (take s n.1) n.2 (put n.1 s))
    (hput : ∀ k l s, put k (put l s) = put l (put k s))
    (hall : ns.foldl (fun s n => put n.1 s) init = a) :
    (Reader.members take init).Recovers (.fields ns) a := by
  intro v hv
  obtain ⟨ms, ps, rfl, hms, hperm⟩ := hv.exists_members
  have htaken := foldlM_of_reordered put hms (fun p hp => htake p (hperm.mem_iff.mp hp)) init
  have hfold : ps.foldl (fun s p => put p.1 s) init = ns.foldl (fun s n => put n.1 s) init :=
    hperm.foldl_eq' (fun m _ n _ s => hput n.1 m.1 s) init
  rw [members_toDraft, htaken, hfold, hall]

/-- A table is read back if its values are. -/
theorem Recovers.table {r : Reader α} {f : α → Json} (h : ∀ a, r.Recovers (f a) a)
    (t : Table String α) :
    (Reader.table r).Recovers (.fields (t.toList.map fun e => (e.1, f e.2))) t := by
  let put (k : String) (s : Table String α) : Table String α := (t.get? k).elim s (s.insert k)
  have hput : ∀ {e : String × α}, e ∈ t.toList → ∀ s, put e.1 s = s.insert e.1 e.2 :=
    fun he s => by simp only [put, Table.mem_toList_iff.mp he, Option.elim_some]
  refine Recovers.members put (fun n hn s v hv => ?_) (fun k l s => ?_) ?_
  · obtain ⟨e, he, rfl⟩ := List.mem_map.mp hn
    simp only [h e.2 v hv, ok_bind, pure_eq_ok, hput he]
  · refine Table.ext_get? fun j => ?_
    simp only [put]
    cases hk : t.get? k with
    | none => rfl
    | some a =>
      cases hl : t.get? l with
      | none => rfl
      | some b =>
        simp only [Option.elim_some, Table.get?_insert]
        split_ifs with hjk hjl
        · rw [← hjk, hjl, hl] at hk
          exact hk.symm
        all_goals rfl
  · rw [List.foldl_map, List.foldl_ext _ _ _ fun s e he => hput he s]
    exact t.ofList_toList

theorem recovers_ofTexts (t : Table String String) : (table text).Recovers (.ofTexts t) t :=
  Recovers.table recovers_text t

/-! ### Objects with a member of their own -/

section

variable {take : σ → String → Draft → Except ReadError σ} {name : String} {r : Reader β}

/-- The members but the one called `name` are kept as they come, the last in front. -/
theorem foldlM_others (state : Option β → List (String × Json) → σ)
    (hother : ∀ b os k d, k ≠ name → take (state b os) k d = do
      let v ← value d
      return state b ((k, v) :: os)) (b : Option β) :
    ∀ {ms ns : List (String × Json)}, ReorderedMembers ms ns → (∀ n ∈ ns, n.1 ≠ name) →
      (∀ n ∈ ns, n.2.Canonical) → ∀ os,
        ms.foldlM (fun s m => take s m.1 m.2.toDraft) (state b os) =
          .ok (state b (ns.reverse ++ os))
  | [], [], .nil, _, _, _ => rfl
  | (k, v) :: ms, (_, w) :: ns, .cons hv hs, hnames, hc, os => by
    obtain ⟨hname, hnames⟩ := List.forall_mem_cons.mp hnames
    obtain ⟨hcw, hc⟩ := List.forall_mem_cons.mp hc
    have hread : value v.toDraft = .ok w := recovers_value hcw v hv
    rw [List.foldlM_cons, hother b os k _ hname, hread, ok_bind, pure_eq_ok, ok_bind,
      foldlM_others state hother b hs hnames hc, List.reverse_cons, List.append_assoc,
      List.singleton_append]

/-- An object is recovered from the member called `name`, which is read on its own, and the
values of all others in their order. -/
theorem members_apart (state : Option β → List (String × Json) → σ)
    (hown : ∀ os d, take (state none os) name d = do
      let b ← r d
      return state (some b) os)
    (hother : ∀ b os k d, k ≠ name → take (state b os) k d = do
      let v ← value d
      return state b ((k, v) :: os))
    {ms as bs : List (String × Json)} {w : Json} {b : β}
    (hms : ReorderedMembers ms (as ++ (name, w) :: bs)) (hw : r.Recovers w b)
    (hnames : ∀ n ∈ as ++ bs, n.1 ≠ name) (hc : ∀ n ∈ as ++ bs, n.2.Canonical) :
    Reader.members take (state none []) (toDraft (.fields ms)) =
      .ok (state (some b) (as ++ bs).reverse) := by
  obtain ⟨as', ms', rfl, has, hms'⟩ := hms.exists_append
  obtain ⟨hnas, hnbs⟩ := List.forall_mem_append.mp hnames
  obtain ⟨hcas, hcbs⟩ := List.forall_mem_append.mp hc
  cases hms' with
  | cons hv hbs =>
    rw [members_toDraft, List.foldlM_append, foldlM_others state hother none has hnas hcas, ok_bind,
      List.foldlM_cons, hown, hw _ hv, ok_bind, pure_eq_ok, ok_bind,
      foldlM_others state hother (some b) hbs hnbs hcbs, List.append_nil, List.reverse_append]

end

end Reader
end Json
end ClusterKit
