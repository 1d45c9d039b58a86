/-
# Parameters in queries

A call writes the parameters that are set into the query of its request, as form pairs
and in a fixed order. As long as no mark is in the path that it is written behind, the
query is exactly these pairs: what is read of it are the parameters again, whatever characters
are in their values, and the rest of the address is what the path alone
makes (`Uri.parse?_joined`). So requests with one address have the same parameters.

Key definitions: `Builder`, `Builder.request`, `Builder.parameters`, `Builder.effective`.
Key theorems: `Uri.parse?_joined`, `Builder.read_query`, `Builder.effective_of_assignments`,
`Builder.queries_carry_their_parameters`.
-/
import ClusterKit.Proofs.Call.FormPairs
import ClusterKit.Proofs.Call.Item
import ClusterKit.Proofs.Text.Numeral
import Mathlib.Data.List.Basic

namespace ClusterKit

open Uri (Unmarked joined)

/-! ### Addresses with a query -/

namespace Uri

variable {cs rest : List Char} {q? : Option (List Char)} {u : Uri}

/-- The address without its query. -/
def withoutQuery (u : Uri) : Uri :=
  { u with query := none }

theorem takeWhile_joined {p : Char → Bool} (hp : p '?' = false) (cs : List Char)
    (q? : Option (List Char)) : (joined cs q?).takeWhile p = cs.takeWhile p := by
  cases q? with
  | none => rfl
  | some q =>
    induction cs with
    | nil => simp [joined, hp]
    | cons c cs ih =>
      rw [joined] at ih ⊢
      rw [List.cons_append, List.takeWhile_cons, List.takeWhile_cons, ih]

theorem dropWhile_joined {p : Char → Bool} (hp : p '?' = false) (cs : List Char)
    (q? : Option (List Char)) : (joined cs q?).dropWhile p = joined (cs.dropWhile p) q? := by
  cases q? with
  | none => rfl
  | some q =>
    induction cs with
    | nil => simp [joined, hp]
    | cons c cs ih =>
      simp only [joined] at ih ⊢
      rw [List.cons_append, List.dropWhile_cons, List.dropWhile_cons, ih]
      split <;> rfl

theorem unmarked_of_suffix (h : rest <:+ cs) (hcs : Unmarked cs) : Unmarked rest :=
  fun c hc => hcs c (h.subset hc)

theorem splitScheme_suffix (cs : List Char) : (splitScheme cs).2 <:+ cs := by
  unfold splitScheme
  split
  · rename_i rest hrest
    have hdrop : ':' :: '/' :: '/' :: rest <:+ cs := hrest ▸ List.dropWhile_suffix _
    exact (List.suffix_append [':', '/', '/'] rest).trans hdrop
  · exact List.suffix_refl cs

/-- A query is not taken for the mark of a scheme. -/
theorem splitScheme_joined (cs : List Char) (q? : Option (List Char)) :
    splitScheme (joined cs q?) = ((splitScheme cs).1, joined (splitScheme cs).2 q?) := by
  have hdrop := dropWhile_joined (p := isSchemeChar) (by decide) cs q?
  have htake := takeWhile_joined (p := isSchemeChar) (by decide) cs q?
  unfold splitScheme
  rw [hdrop, htake]
  cases q? with
  | none => rfl
  | some q =>
    rcases cs.dropWhile isSchemeChar with _ | ⟨a, _ | ⟨b, _ | ⟨c, rest⟩⟩⟩
    · rfl
    · by_cases ha : a = ':' <;> simp [joined, ha]
    · by_cases ha : a = ':' <;> by_cases hb : b = '/' <;> simp [joined, ha, hb]
    · by_cases ha : a = ':' <;> by_cases hb : b = '/' <;> by_cases hc : c = '/' <;>
        simp [joined, ha, hb, hc]

theorem withPath?_joined {scheme : Option (List Char)} {authority : List Char}
    (hcs : Unmarked cs) (hq : ∀ query ∈ q?, ∀ c ∈ query, isQueryChar c = true)
    (h : withPath? scheme authority (joined cs q?) = some u) :
    withPath? scheme authority cs = some u.withoutQuery ∧ u.query = q? := by
  have hhash : ∀ query ∈ q?, '#' ∉ query := fun query hquery hmem =>
    absurd (hq query hquery '#' hmem) (by decide)
  have hnothing : behind? cs = none :=
    show behind? (joined cs none) = none from behind?_joined hcs nofun
  obtain ⟨hpath, -, rfl⟩ := withPath?_eq_some_iff.mp h
  rw [front_joined] at hpath
  refine ⟨withPath?_eq_some_iff.mpr ⟨hpath, ?_, ?_⟩, behind?_joined hcs hhash⟩
  · rw [hnothing]
    exact nofun
  · rw [hnothing, front_joined]
    rfl

/-- A lone authority has no query. -/
theorem withAuthority?_none_joined (cs query : List Char) :
    withAuthority? none (joined cs (some query)) = none := by
  have hrest : (joined cs (some query)).dropWhile Authority.goesOn ≠ [] := by
    rw [dropWhile_joined (by decide), joined]
    exact List.append_ne_nil_of_right_ne_nil _ (List.cons_ne_nil _ _)
  unfold withAuthority?
  dsimp only
  split
  · rfl
  · exact if_neg fun hempty => hrest (List.isEmpty_iff.mp hempty)

theorem withAuthority?_joined {scheme : Option (List Char)} (hcs : Unmarked cs)
    (hq : ∀ query ∈ q?, ∀ c ∈ query, isQueryChar c = true)
    (h : withAuthority? scheme (joined cs q?) = some u) :
    withAuthority? scheme cs = some u.withoutQuery ∧ u.query = q? := by
  have hrest : Unmarked (cs.dropWhile Authority.goesOn) :=
    unmarked_of_suffix (List.dropWhile_suffix _) hcs
  cases scheme with
  | none =>
    cases q? with
    | some query => cases (withAuthority?_none_joined cs query).symm.trans h
    | none =>
      rw [joined] at h
      have hquery : u.query = none := by
        unfold withAuthority? at h
        dsimp only at h
        split at h
        · cases h
        · split at h
          · obtain rfl := Option.some.inj h
            rfl
          · cases h
      refine ⟨?_, hquery⟩
      rw [h, withoutQuery, ← hquery]
  | some name =>
    unfold withAuthority? at h ⊢
    dsimp only at h ⊢
    rw [takeWhile_joined (by decide), dropWhile_joined (by decide)] at h
    split at h
    · cases h
    · rename_i hvalid
      rw [if_neg hvalid]
      split at h
      · cases h
      · rename_i hsize
        rw [if_neg hsize]
        exact withPath?_joined hrest hq h

theorem size_le_joined (cs : List Char) (q? : Option (List Char)) :
    Utf8.size cs ≤ Utf8.size (joined cs q?) := by
  cases q? with
  | none => exact Nat.le_refl _
  | some query =>
    rw [joined, Utf8.size, Utf8.size, List.map_append, List.sum_append]
    exact Nat.le_add_right _ _

/-- Behind a text without marks a query is read as it stands, and the rest of the address is that
of the text alone. -/
theorem parse?_joined (hcs : Unmarked cs)
    (hq : ∀ query ∈ q?, ∀ c ∈ query, isQueryChar c = true)
    (h : parse? (joined cs q?) = some u) :
    parse? cs = some u.withoutQuery ∧ u.query = q? := by
  have hsize := size_le_joined cs q?
  have hscheme : Unmarked (splitScheme cs).2 := unmarked_of_suffix (splitScheme_suffix cs) hcs
  unfold parse? at h ⊢
  split at h
  · cases h
  · rename_i hle
    rw [if_neg (by omega)]
    split at h
    · -- only an asterisk without a query is one
      rename_i hstar
      cases q? with
      | none =>
        rw [joined] at hstar
        obtain rfl := Option.some.inj h
        exact ⟨if_pos hstar, rfl⟩
      | some query =>
        rcases cs with _ | ⟨a, cs⟩ <;> simp [joined] at hstar
    · rename_i hnostar
      have hhead : (joined cs q?).head? = some '/' ↔ cs.head? = some '/' := by
        cases q? with
        | none => exact Iff.rfl
        | some query => rcases cs with _ | ⟨a, cs⟩ <;> simp [joined]
      split at h
      · rename_i hslash
        have hslash := hhead.mp hslash
        have hstar : cs ≠ ['*'] := by rintro rfl; simp at hslash
        rw [if_neg hstar, if_pos hslash]
        exact withPath?_joined hcs hq h
      · rename_i hslash
        rw [splitScheme_joined] at h
        obtain ⟨hparse, hquery⟩ := withAuthority?_joined hscheme hq h
        have hstar : cs ≠ ['*'] := by
          rintro rfl
          cases q? with
          | none => exact hnostar rfl
          | some query => cases (withAuthority?_none_joined ['*'] query).symm.trans h
        rw [if_neg hstar, if_neg fun hs => hslash (hhead.mpr hs)]
        exact ⟨hparse, hquery⟩

end Uri

/-! ### Builders -/

/-- The builders of requests that have their parameters in the query. -/
inductive Builder
  | list
  | watch
  | get
  | create
  | replace
  | logs

namespace Builder

/-- The type of the parameters. -/
@[reducible] def Params : Builder → Type
  | list => ListParams
  | watch => ListParams
  | get => GetParams
  | create => PostParams
  | replace => PostParams
  | logs => LogParams

/-- The request on the collection at `path`, or on its item `name`; only a create and a
replacement have a body. -/
def request (path name : String) (body : List UInt8) :
    (b : Builder) → b.Params → Except RequestError Request
  | list, p => Request.list path p
  | watch, p => Request.watch path p
  | get, p => Request.get path name p
  | create, p => Request.create path p body
  | replace, p => Request.replace path name p body
  | logs, p => Request.logs path name p

/-- The path of what the request is about. -/
def target (path name : String) : Builder → List Char
  | list => path.toList
  | watch => path.toList
  | get => Request.itemPath path name
  | create => path.toList
  | replace => Request.itemPath path name
  | logs => Request.itemPath path name ++ "/log".toList

/-- The parameters by their names, in their order, each with its value if it is set. A timeout of
zero is not set. -/
def parameters : (b : Builder) → b.Params → List (String × Option String)
  | list, (p : ListParams) =>
    [("fieldSelector", p.fieldSelector), ("labelSelector", p.labelSelector),
      ("timeoutSeconds", (p.timeout.filter (0 < ·)).map toString),
      ("limit", p.limit.map toString), ("continue", p.continueToken),
      ("resourceVersion", p.resourceVersion)]
  | watch, (p : ListParams) =>
    [("watch", some "true"), ("resourceVersion", p.resourceVersion),
      ("fieldSelector", p.fieldSelector), ("labelSelector", p.labelSelector),
      ("timeoutSeconds", (p.timeout.filter (0 < ·)).map toString)]
  | get, (p : GetParams) => [("resourceVersion", p.resourceVersion)]
  | create, (p : PostParams) =>
    [("dryRun", if p.dryRun then some "All" else none), ("fieldManager", p.fieldManager)]
  | replace, (p : PostParams) =>
    [("dryRun", if p.dryRun then some "All" else none), ("fieldManager", p.fieldManager)]
  | logs, (p : LogParams) =>
    [("container", p.container), ("previous", if p.previous then some "true" else none),
      ("tailLines", p.tailLines.map toString)]

/-- The parameters, with no timeout in place of one of zero. -/
def effective : (b : Builder) → b.Params → b.Params
  | list, (p : ListParams) => { p with timeout := p.timeout.filter (0 < ·) }
  | watch, (p : ListParams) => { p with timeout := p.timeout.filter (0 < ·) }
  | get, p => p
  | create, p => p
  | replace, p => p
  | logs, p => p

/-- The parameters that are set, with their values. -/
def assignments (b : Builder) (p : b.Params) : List (String × String) :=
  (b.parameters p).filterMap fun x => x.2.map (x.1, ·)

/-! ### Values of parameters -/

theorem lookup_assigned {ps : List (String × Option String)} (hnodup : (ps.map (·.1)).Nodup)
    {x : String × Option String} (hx : x ∈ ps) :
    (ps.filterMap fun x => x.2.map (x.1, ·)).lookup x.1 = x.2 := by
  induction ps with
  | nil => cases hx
  | cons y ps ih =>
    obtain ⟨name, value⟩ := y
    rw [List.map_cons, List.nodup_cons] at hnodup
    obtain ⟨hname, hnodup⟩ := hnodup
    have hother : ∀ z ∈ ps, z.1 ≠ name := fun z hz heq =>
      hname (heq ▸ List.mem_map_of_mem (f := (·.1)) hz)
    rcases List.mem_cons.mp hx with rfl | htail
    · cases value with
      | some v => simp
      | none =>
        rw [List.filterMap_cons_none rfl, List.lookup_eq_none_iff]
        intro y hy
        obtain ⟨z, hz, hzy⟩ := List.mem_filterMap.mp hy
        obtain ⟨v, -, rfl⟩ := Option.map_eq_some_iff.mp hzy
        exact bne_iff_ne.mpr (hother z hz).symm
    · have hne : (x.1 == name) = false := beq_eq_false_iff_ne.mpr (hother x htail)
      cases value with
      | none => exact ih hnodup htail
      | some v =>
        simp only [List.filterMap_cons, Option.map_some, List.lookup_cons, hne]
        exact ih hnodup htail

theorem names_nodup (b : Builder) (p : b.Params) : ((b.parameters p).map (·.1)).Nodup := by
  cases b <;> simp [parameters]

theorem names_eq (b : Builder) (p p' : b.Params) :
    (b.parameters p).map (·.1) = (b.parameters p').map (·.1) := by
  cases b <;> rfl

/-- Each parameter is found by its name. -/
theorem lookup_assignments {b : Builder} {p : b.Params} {x : String × Option String}
    (hx : x ∈ b.parameters p) : (b.assignments p).lookup x.1 = x.2 :=
  lookup_assigned (names_nodup b p) hx

/-- The parameters that are set determine which are set. -/
theorem parameters_of_assignments {b : Builder} {p p' : b.Params}
    (h : b.assignments p = b.assignments p') : b.parameters p = b.parameters p' := by
  have hfound : ∀ p : b.Params, ((b.parameters p).map (·.1)).map
      (fun name => (name, (b.assignments p).lookup name)) = b.parameters p := by
    intro p
    rw [List.map_map]
    refine (List.map_congr_left fun x hx => ?_).trans (List.map_id _)
    rw [Function.comp, lookup_assignments hx]
    rfl
  rw [← hfound p, ← hfound p', names_eq b p p', h]

theorem some_if_inj {a b : Bool} {s : String}
    (h : (if a then some s else none) = if b then some s else none) : a = b := by
  cases a <;> cases b <;> simp at h ⊢

/-- A watch has neither a limit nor a token. -/
theorem unpaged_of_watch {path : String} {p : ListParams} {q : Request}
    (h : Request.watch path p = .ok q) : p.limit = none ∧ p.continueToken = none := by
  unfold Request.watch at h
  split at h
  · cases h
  · rename_i hlimit
    split at h
    · cases h
    · rename_i htoken
      exact ⟨by simpa using hlimit, by simpa using htoken⟩

theorem post_inj {p p' : PostParams} (h : create.parameters p = create.parameters p') : p = p' := by
  obtain ⟨dryRun, manager⟩ := p
  obtain ⟨dryRun', manager'⟩ := p'
  simp only [parameters, List.cons.injEq, Prod.mk.injEq, true_and, and_true] at h
  obtain ⟨hdry, rfl⟩ := h
  rw [some_if_inj hdry]

/-- And so their values, up to timeouts of zero. -/
theorem effective_of_assignments {path name path' name' : String} {body body' : List UInt8}
    {b : Builder} {p p' : b.Params} {q q' : Request}
    (hq : b.request path name body p = .ok q) (hq' : b.request path' name' body' p' = .ok q')
    (h : b.assignments p = b.assignments p') : b.effective p = b.effective p' := by
  have hparams := parameters_of_assignments h
  cases b with
  | list =>
    simp only [parameters, List.cons.injEq, Prod.mk.injEq, true_and, and_true] at hparams
    obtain ⟨hfields, hlabels, htimeout, hlimit, htoken, hversion⟩ := hparams
    have htimeout := Option.map_injective Numeral.nat_injective htimeout
    have hlimit := Option.map_injective Numeral.nat_injective hlimit
    simp only [effective, hfields, hlabels, htimeout, hlimit, htoken, hversion]
  | watch =>
    simp only [parameters, List.cons.injEq, Prod.mk.injEq, true_and, and_true] at hparams
    obtain ⟨hversion, hfields, hlabels, htimeout⟩ := hparams
    have htimeout := Option.map_injective Numeral.nat_injective htimeout
    obtain ⟨hlimit, htoken⟩ := unpaged_of_watch hq
    obtain ⟨hlimit', htoken'⟩ := unpaged_of_watch hq'
    simp only [effective, hfields, hlabels, htimeout, hlimit, htoken, hlimit', htoken', hversion]
  | get =>
    obtain ⟨version⟩ := p
    obtain ⟨version'⟩ := p'
    simp only [parameters, List.cons.injEq, Prod.mk.injEq, true_and, and_true] at hparams
    rw [hparams]
  | create => exact post_inj hparams
  | replace => exact post_inj hparams
  | logs =>
    obtain ⟨container, previous, lines⟩ := p
    obtain ⟨container', previous', lines'⟩ := p'
    simp only [parameters, List.cons.injEq, Prod.mk.injEq, true_and, and_true] at hparams
    obtain ⟨rfl, hprevious, hlines⟩ := hparams
    rw [some_if_inj hprevious, Option.map_injective Numeral.int_injective hlines]

/-! ### Requests -/

variable {path name : String} {body : List UInt8} {b : Builder} {p : b.Params} {q : Request}

theorem assignments_eq (b : Builder) (p : b.Params) :
    b.assignments p = (b.parameters p).flatMap fun x => setPair x.1 x.2 := by
  rw [assignments, List.filterMap_eq_flatMap_toList]
  rfl

theorem assignments_list (p : ListParams) : assignments list p = p.listPairs := by
  rw [assignments_eq]
  simp [parameters, ListParams.listPairs, ListParams.selectorPairs, ListParams.timeoutSeconds]

theorem assignments_watch (p : ListParams) : assignments watch p = p.watchPairs := by
  rw [assignments_eq]
  simp [parameters, ListParams.watchPairs, ListParams.selectorPairs, ListParams.timeoutSeconds,
    setPair]

theorem assignments_create (p : PostParams) : assignments create p = p.pairs := by
  rw [assignments_eq]
  cases hdry : p.dryRun <;> simp [parameters, PostParams.pairs, setPair, hdry]

theorem assignments_logs (p : LogParams) : assignments logs p = p.pairs := by
  rw [assignments_eq]
  cases hprevious : p.previous <;> simp [parameters, LogParams.pairs, setPair, hprevious]

/-- The address of a request on an item, as it is written before it is read. -/
theorem written_of_item {c : ItemCall} (h : c.request path name = .ok q) :
    Uri.parse? (joined (c.target path name) c.query?) = some q.uri :=
  (ItemCall.exists_request_iff.mp ⟨q, h, rfl⟩).2.2

/-- The address of a request is written with the parameters that are set behind its path, and
without a query at most if none is. -/
theorem written_of_request (h : b.request path name body p = .ok q) :
    ∃ q?, Uri.parse? (joined (b.target path name) q?) = some q.uri ∧
      (q? = some (Form.pairs (b.assignments p)) ∨ q? = none ∧ b.assignments p = []) := by
  cases b with
  | list =>
    refine ⟨some (Form.pairs p.listPairs), ?_, .inl (by rw [assignments_list])⟩
    simp only [request, Request.list] at h
    split at h
    · cases h
    · exact ItemCall.exists_plain_iff.mp ⟨q, h, rfl⟩
  | watch =>
    refine ⟨some (Form.pairs p.watchPairs), ?_, .inl (by rw [assignments_watch])⟩
    simp only [request, Request.watch] at h
    split at h
    · cases h
    · split at h
      · cases h
      · exact ItemCall.exists_plain_iff.mp ⟨q, h, rfl⟩
  | get =>
    have hwritten := written_of_item (c := .get p) h
    have htarget : (ItemCall.get p).target path name = get.target path name := List.append_nil _
    rw [htarget] at hwritten
    refine ⟨_, hwritten, ?_⟩
    cases hversion : p.resourceVersion with
    | none => exact .inr ⟨by simp [ItemCall.query?, ItemCall.pairs?, hversion],
        by simp [assignments, parameters, hversion]⟩
    | some v => exact .inl (by simp [ItemCall.query?, ItemCall.pairs?, assignments, parameters,
        hversion])
  | create =>
    refine ⟨some (Form.pairs p.pairs), ?_, .inl (by rw [assignments_create])⟩
    obtain ⟨-, hbody⟩ :=
      (ItemCall.exists_checked_iff (p := fun x => x.uri = q.uri)).mp ⟨q, h, rfl⟩
    exact ItemCall.exists_withBody_iff.mp hbody
  | replace =>
    have hwritten := written_of_item (c := .replace p body) h
    have htarget : (ItemCall.replace p body).target path name = replace.target path name :=
      List.append_nil _
    rw [htarget] at hwritten
    exact ⟨_, hwritten, .inl (congrArg (some ∘ Form.pairs) (assignments_create p).symm)⟩
  | logs =>
    have hwritten := written_of_item (c := .logs p) h
    exact ⟨_, hwritten, .inl (congrArg (some ∘ Form.pairs) (assignments_logs p).symm)⟩

theorem unmarked_target (b : Builder) (hpath : Unmarked path.toList)
    (hname : Unmarked name.toList) : Unmarked (b.target path name) := by
  have hitem : Unmarked (Request.itemPath path name) :=
    Uri.unmarked_append.mpr ⟨hpath, Uri.unmarked_slash.mpr hname⟩
  cases b with
  | list => exact hpath
  | watch => exact hpath
  | get => exact hitem
  | create => exact hpath
  | replace => exact hitem
  | logs => exact Uri.unmarked_append.mpr ⟨hitem, by decide⟩

/-- What is read of the query of a request are the parameters that are set, and the rest of its
address is what the path alone makes. -/
theorem read_query (hpath : Unmarked path.toList) (hname : Unmarked name.toList)
    (h : b.request path name body p = .ok q) :
    Form.read (q.uri.query.getD []) = b.assignments p ∧
      Uri.parse? (b.target path name) = some q.uri.withoutQuery := by
  obtain ⟨q?, hwritten, hq⟩ := written_of_request h
  have hchars : ∀ query ∈ q?, ∀ c ∈ query, Uri.isQueryChar c = true := by
    intro query hquery c hc
    rcases hq with rfl | ⟨rfl, -⟩
    · obtain rfl := Option.some.inj hquery
      exact Form.isQueryChar_of_mem_pairs hc
    · cases hquery
  obtain ⟨hrest, hquery⟩ := Uri.parse?_joined (unmarked_target b hpath hname) hchars hwritten
  refine ⟨?_, hrest⟩
  rw [hquery]
  rcases hq with rfl | ⟨rfl, hnone⟩
  · exact Form.read_pairs _
  · exact hnone.symm

/-- Where the path begins with a slash, so does the address, and it has no other parts. -/
theorem withoutQuery_of_slash (hpath : Unmarked path.toList) (hname : Unmarked name.toList)
    (hslash : path.toList.head? = some '/') (h : b.request path name body p = .ok q) :
    q.uri.withoutQuery = ⟨none, [], b.target path name, none⟩ := by
  obtain ⟨cs, hcs⟩ := List.head?_eq_some_iff.mp hslash
  have htarget : ∃ ds, b.target path name = '/' :: ds := by
    cases b <;> simp [target, Request.itemPath, hcs]
  obtain ⟨ds, hds⟩ := htarget
  have hunmarked := unmarked_target b hpath hname
  have hparse := (read_query hpath hname h).2
  rw [hds] at hunmarked hparse ⊢
  have hjoined : Uri.parse? (Uri.joined ('/' :: ds) none) = some q.uri.withoutQuery := hparse
  have hnone : ∀ query ∈ (none : Option (List Char)), ∀ c ∈ query, Uri.isQueryChar c = true := by
    simp
  exact ((Uri.parse?_joined_eq_some_iff hunmarked hnone).mp hjoined).2.2

/-- Requests with one address have the same parameters. -/
theorem assignments_of_uri {path' name' : String} {body' : List UInt8} {b' : Builder}
    {p' : b'.Params} {q' : Request} (hpath : Unmarked path.toList) (hname : Unmarked name.toList)
    (hpath' : Unmarked path'.toList) (hname' : Unmarked name'.toList)
    (h : b.request path name body p = .ok q) (h' : b'.request path' name' body' p' = .ok q')
    (huri : q.uri = q'.uri) : b.assignments p = b'.assignments p' :=
  calc b.assignments p = Form.read (q.uri.query.getD []) := (read_query hpath hname h).1.symm
    _ = Form.read (q'.uri.query.getD []) := by rw [huri]
    _ = b'.assignments p' := (read_query hpath' hname' h').1

/-- The names of the parameters that lists and watches share. -/
def shared : List String :=
  ["fieldSelector", "labelSelector", "timeoutSeconds", "resourceVersion"]

theorem lookup_shared (p : ListParams) : ∀ parameter ∈ shared,
    (assignments list p).lookup parameter = (assignments watch p).lookup parameter := by
  intro parameter hmem
  have hfound : ∃ value, (parameter, value) ∈ parameters list p ∧
      (parameter, value) ∈ parameters watch p := by
    simp only [shared, List.mem_cons, List.not_mem_nil, or_false] at hmem
    rcases hmem with rfl | rfl | rfl | rfl
    · exact ⟨p.fieldSelector, by simp [parameters]⟩
    · exact ⟨p.labelSelector, by simp [parameters]⟩
    · exact ⟨(p.timeout.filter (0 < ·)).map toString, by simp [parameters]⟩
    · exact ⟨p.resourceVersion, by simp [parameters]⟩
  obtain ⟨value, hlist, hwatch⟩ := hfound
  exact (lookup_assignments hlist).trans (lookup_assignments hwatch).symm

/-- **Parameters survive in queries.** Wherever no mark is in the path or the name: what is read of
the query of a request, as form pairs, are the parameters that are set, with their values, in their
order and nothing else, whatever characters the values have; and the rest of its address is
what the path alone makes, or the path itself where it begins with a slash. So requests with
different parameters have different addresses, on whatever paths, if they differ in more than
timeouts of zero. A list and a watch with the same parameters agree in those that they
share. -/
theorem queries_carry_their_parameters (path name : String) (hpath : Unmarked path.toList)
    (hname : Unmarked name.toList) (body : List UInt8) :
    (∀ (b : Builder) (p : b.Params) (q : Request), b.request path name body p = .ok q →
      Form.read (q.uri.query.getD []) = b.assignments p ∧
      Uri.parse? (b.target path name) = some q.uri.withoutQuery ∧
      (path.toList.head? = some '/' →
        q.uri.withoutQuery = ⟨none, [], b.target path name, none⟩)) ∧
    ∀ (path' name' : String) (body' : List UInt8), Unmarked path'.toList → Unmarked name'.toList →
      (∀ (b : Builder) (p p' : b.Params) (q q' : Request), b.request path name body p = .ok q →
        b.request path' name' body' p' = .ok q' → b.effective p ≠ b.effective p' →
          q.uri ≠ q'.uri) ∧
      (∀ (b b' : Builder) (p : b.Params) (p' : b'.Params) (q q' : Request),
        b.request path name body p = .ok q → b'.request path' name' body' p' = .ok q' →
          b.assignments p ≠ b'.assignments p' → q.uri ≠ q'.uri) ∧
      ∀ (p : ListParams) (q q' : Request), Request.list path p = .ok q →
        Request.watch path' p = .ok q' → ∀ parameter ∈ shared,
          (Form.read (q.uri.query.getD [])).lookup parameter =
            (Form.read (q'.uri.query.getD [])).lookup parameter := by
  refine ⟨?_, fun path' name' body' hpath' hname' => ⟨?_, ?_, ?_⟩⟩
  · intro b p q h
    obtain ⟨hread, hrest⟩ := read_query hpath hname h
    exact ⟨hread, hrest, fun hslash => withoutQuery_of_slash hpath hname hslash h⟩
  · intro b p p' q q' h h' hne huri
    exact hne (effective_of_assignments h h'
      (assignments_of_uri hpath hname hpath' hname' h h' huri))
  · intro b b' p p' q q' h h' hne huri
    exact hne (assignments_of_uri hpath hname hpath' hname' h h' huri)
  · intro p q q' h h'
    have hlist := (read_query hpath hname (show list.request path name body p = .ok q from h)).1
    have hwatch :=
      (read_query hpath' hname' (show watch.request path' name' body' p = .ok q' from h')).1
    rw [hlist, hwatch]
    exact lookup_shared p

/-- A list of pods whose selectors and token are full of separators, and whose timeout is zero:
they are read as they were set, and the path is that of the pods. -/
theorem separators_survive_in_a_list :
    let p : ListParams := { ListParams.none with
      fieldSelector := some "a&b=c#d", labelSelector := some "é+%26 ?", timeout := some 0,
      continueToken := some "" }
    ∃ q, Request.list "/api/v1/pods" p = .ok q ∧
      Form.read (q.uri.query.getD []) =
        [("fieldSelector", "a&b=c#d"), ("labelSelector", "é+%26 ?"), ("continue", "")] ∧
      q.uri.path = "/api/v1/pods".toList := by
  intro p
  have hpath : Unmarked "/api/v1/pods".toList := by decide
  have hname : Unmarked "".toList := by decide
  obtain ⟨q, hq⟩ : ∃ q, Request.list "/api/v1/pods" p = .ok q := by
    have hgood : (Request.list "/api/v1/pods" p).toOption.isSome = true := by decide +kernel
    cases h : Request.list "/api/v1/pods" p with
    | ok q => exact ⟨q, rfl⟩
    | error e => simp [h, Except.toOption] at hgood
  obtain ⟨hparams, -⟩ := queries_carry_their_parameters "/api/v1/pods" "" hpath hname []
  obtain ⟨hread, -, hslash⟩ := hparams list p q hq
  have hrest := hslash (by decide)
  exact ⟨q, hq, hread, congrArg Uri.path hrest⟩

end Builder
end ClusterKit
