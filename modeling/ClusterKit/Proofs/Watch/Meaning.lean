/-
# The meaning of a watch

Read on its own, a sequence of raw items says what a watch of it comes to. The events about
objects are read one by one, bookmarks are passed over, and the first item that
breaks the watch off says why it ends; without one it ends with its source. `Told`
is this reading, with a rule for each class of items. Every sequence has
exactly one, and it is what a consumer gets that nobody stops, however the source, the
pump and the consumer take turns (`Watcher.reads_what_is_told`).

Key definitions: `Concerns`, `ReadAs`, `BreaksOff`, `Told`.
Key theorems: `told_iff`, `Watcher.reads_what_is_told`.
-/
import ClusterKit.Proofs.Watch.Reading

namespace ClusterKit

/-! ### Items -/

/-- The item is an event about the object `o`, of the type that `change` is. -/
inductive Concerns {α : Type u} : RawItem → Erased → (α → Change α) → Prop
  | added (o : Erased) : Concerns (.ok (.added o)) o .added
  | modified (o : Erased) : Concerns (.ok (.modified o)) o .modified
  | deleted (o : Erased) : Concerns (.ok (.deleted o)) o .deleted

/-- The item is read as a change: it is an event of this type, about an object that is not
foreign and that stands for the object of the change. -/
inductive ReadAs (K : Kind α) (r : ApiResource) : RawItem → Change α → Prop
  | narrowed {item : RawItem} {o : Erased} {change : α → Change α} {a : α}
      (hitem : Concerns item o change) (hakin : o.IsAkin r) (hrestore : K.restore o = .ok a) :
      ReadAs K r item (change a)

/-- The item breaks a watch off: it is an error of the server, as an event or as a failure,
any other failure, or an event about an object that is foreign, or else does not fit. -/
inductive BreaksOff (K : Kind α) (r : ApiResource) : RawItem → Termination → Prop
  | errorEvent (s : Status) : BreaksOff K r (.ok (.error s)) (.api s)
  | refusal (s : Status) : BreaksOff K r (.error (.api s)) (.api s)
  | failure {e : ClientError} (he : ∀ s, e ≠ .api s) :
      BreaksOff K r (.error e) (.stream e.message)
  | foreign {item : RawItem} {o : Erased} {change : α → Change α} {t : TypeMeta}
      (hitem : Concerns item o change) (ht : o.types = some t) (hforeign : t.IsForeign r) :
      BreaksOff K r item (.mismatch t.kind)
  | misfit {item : RawItem} {o : Erased} {change : α → Change α} {e : Json.ReadError}
      (hitem : Concerns item o change) (hakin : o.IsAkin r) (hrestore : K.restore o = .error e) :
      BreaksOff K r item (.narrowing e)

/-! ### Sequences -/

/-- What a watch of the items, and then of the end of their source, tells: the changes, and
why it ends. Nothing behind an item that breaks it off matters. -/
inductive Told (K : Kind α) (r : ApiResource) :
    List RawItem → List (Change α) → Termination → Prop
  | closed : Told K r [] [] .closed
  | change {item : RawItem} {c : Change α} {items : List RawItem} {cs : List (Change α)}
      {t : Termination} (h : ReadAs K r item c) (hrest : Told K r items cs t) :
      Told K r (item :: items) (c :: cs) t
  | bookmark {b : Bookmark} {items : List RawItem} {cs : List (Change α)} {t : Termination}
      (hrest : Told K r items cs t) : Told K r (.ok (.bookmark b) :: items) cs t
  | broken {item : RawItem} {t : Termination} (items : List RawItem) (h : BreaksOff K r item t) :
      Told K r (item :: items) [] t

variable {K : Kind α} {r : ApiResource} {item : RawItem} {o : Erased} {change : α → Change α}

/-! ### What becomes of an item -/

theorem Concerns.ofItem_eq (h : Concerns item o change) :
    Forwarded.ofItem K r item = Forwarded.ofNarrowed change (narrow K r o) := by
  cases h <;> rfl

theorem ReadAs.ofItem_eq {c : Change α} (h : ReadAs K r item c) :
    Forwarded.ofItem K r item = .pass c := by
  obtain ⟨hitem, hakin, hrestore⟩ := h
  rw [hitem.ofItem_eq, narrow_of_akin hakin, narrow.restored, hrestore]
  rfl

theorem BreaksOff.ofItem_eq {t : Termination} (h : BreaksOff K r item t) :
    Forwarded.ofItem K r item = .finish t := by
  cases h with
  | errorEvent s => rfl
  | refusal s => rfl
  | @failure e he =>
    cases e with
    | api s => exact absurd rfl (he s)
    | _ => rfl
  | foreign hitem ht hforeign =>
    rw [hitem.ofItem_eq, narrow_of_foreign ht hforeign]
    rfl
  | misfit hitem hakin hrestore =>
    rw [hitem.ofItem_eq, narrow_of_akin hakin, narrow.restored, hrestore]
    rfl

/-- An event about an object is read as a change, or breaks the watch off. -/
theorem Concerns.readAs_or_breaksOff (K : Kind α) (r : ApiResource) (h : Concerns item o change) :
    (∃ c, ReadAs K r item c) ∨ ∃ t, BreaksOff K r item t := by
  by_cases hforeign : ∃ t, o.types = some t ∧ t.IsForeign r
  · obtain ⟨t, ht, hf⟩ := hforeign
    exact .inr ⟨_, .foreign h ht hf⟩
  · have hakin : o.IsAkin r := fun t ht hf => hforeign ⟨t, ht, hf⟩
    cases hrestore : K.restore o with
    | ok a => exact .inl ⟨_, .narrowed h hakin hrestore⟩
    | error e => exact .inr ⟨_, .misfit h hakin hrestore⟩

/-- Each item is of one of the classes. -/
theorem item_cases (K : Kind α) (r : ApiResource) (item : RawItem) :
    (∃ c, ReadAs K r item c) ∨ (∃ b, item = .ok (.bookmark b)) ∨ ∃ t, BreaksOff K r item t := by
  have hevent : ∀ {o : Erased} {change : α → Change α}, Concerns item o change → _ :=
    fun h => (h.readAs_or_breaksOff K r).imp_right
      (Or.inr (a := ∃ b, item = .ok (.bookmark b)))
  match item with
  | .ok (.added o) => exact hevent (.added o)
  | .ok (.modified o) => exact hevent (.modified o)
  | .ok (.deleted o) => exact hevent (.deleted o)
  | .ok (.bookmark b) => exact .inr (.inl ⟨b, rfl⟩)
  | .ok (.error s) => exact .inr (.inr ⟨_, .errorEvent s⟩)
  | .error e =>
    by_cases he : ∃ s, e = .api s
    · obtain ⟨s, rfl⟩ := he
      exact .inr (.inr ⟨_, .refusal s⟩)
    · exact .inr (.inr ⟨_, .failure fun s hs => he ⟨s, hs⟩⟩)

/-! ### What is told of a sequence -/

/-- Something is told of every sequence. -/
theorem exists_told (K : Kind α) (r : ApiResource) (items : List RawItem) :
    ∃ cs t, Told K r items cs t := by
  induction items with
  | nil => exact ⟨[], .closed, .closed⟩
  | cons item items ih =>
    obtain ⟨cs, t, hrest⟩ := ih
    rcases item_cases K r item with ⟨c, hc⟩ | ⟨b, rfl⟩ | ⟨s, hs⟩
    · exact ⟨c :: cs, t, .change hc hrest⟩
    · exact ⟨cs, t, .bookmark hrest⟩
    · exact ⟨[], s, .broken items hs⟩

namespace Told

variable {items : List RawItem} {cs cs' : List (Change α)} {t t' : Termination}

/-- What is told is what the watch passes on, with the cause that it concludes for. -/
theorem forwarded (h : Told K r items cs t) :
    cs = Forwarded.changes K r items ∧ Forwarded.Concludes K r items true t := by
  induction h with
  | closed => exact ⟨rfl, .inr ⟨rfl, rfl, rfl⟩⟩
  | change hc _ ih =>
    obtain ⟨rfl, hconcludes⟩ := ih
    simpa [Forwarded.changes, Forwarded.Concludes, Forwarded.cause?, hc.ofItem_eq] using hconcludes
  | bookmark _ ih => exact ih
  | broken items hs =>
    simp [Forwarded.changes, Forwarded.Concludes, Forwarded.cause?, hs.ofItem_eq]

/-- Only one thing is told of a sequence. -/
theorem unique (h : Told K r items cs t) (h' : Told K r items cs' t') : cs = cs' ∧ t = t' := by
  obtain ⟨rfl, hconcludes⟩ := h.forwarded
  obtain ⟨rfl, hconcludes'⟩ := h'.forwarded
  exact ⟨rfl, hconcludes.unique hconcludes'⟩

end Told

theorem told_iff {items : List RawItem} {cs : List (Change α)} {t : Termination} :
    Told K r items cs t ↔
      cs = Forwarded.changes K r items ∧ Forwarded.Concludes K r items true t := by
  refine ⟨Told.forwarded, ?_⟩
  rintro ⟨rfl, hconcludes⟩
  obtain ⟨cs', t', h⟩ := exists_told K r items
  obtain ⟨rfl, hconcludes'⟩ := h.forwarded
  exact hconcludes.unique hconcludes' ▸ h

/-- Items behind the first that breaks a watch off, or none behind the end of a source, do not
change what is told. -/
theorem told_append_of_concludes {items later : List RawItem} {ended : Bool} {t : Termination}
    (h : Forwarded.Concludes K r items ended t) (hlater : ended = true → later = []) :
    Told K r (items ++ later) (Forwarded.changes K r items) t := by
  rcases h with h | ⟨h, hended, rfl⟩
  · refine told_iff.mpr ⟨(Forwarded.changes_append_of_some later h).symm, .inl ?_⟩
    rw [Forwarded.cause?_append, h]
    rfl
  · rw [hlater hended, List.append_nil]
    exact told_iff.mpr ⟨rfl, .inr ⟨h, rfl, rfl⟩⟩

namespace Watcher

/-! ### Consumers -/

/-- Nobody has stopped a watcher if no stop has begun. -/
theorem not_stopped_of_no_beginStop (K : Kind α) (r : ApiResource) (items : List RawItem)
    (ended : Bool) {as : List Act} (has : .beginStop ∉ as) :
    let w := (ofItems r items ended : Watcher α).run K as
    w.termination ≠ some .stopped ∧ ¬ (w.stops ≠ 0 ∨ w.stopped = true) := by
  have hnever : ∀ m ∈ (ofItems r items ended : Watcher α).history K as, m.act ≠ .beginStop := by
    intro m hm ha
    have hmem := List.mem_map_of_mem (f := Moment.act) hm
    rw [map_act_history, ha] at hmem
    exact has hmem
  constructor
  · intro ht
    obtain ⟨m, hm, ha, -⟩ := (stopped_iff_begun_first (.ofItems r items ended) rfl as).mp ht
    exact hnever m hm ha
  · intro hstop
    obtain ⟨m, hm, ha⟩ := exists_beginStop ⟨rfl, rfl⟩ hstop
    exact hnever m hm ha

/-- A consumer that reads on to the end reads what is told. -/
theorem readAll_of_told {items : List RawItem} {cs : List (Change α)} {t : Termination}
    (h : Told K r items cs t) :
    ∃ w', (ofItems r items true).readAll K = (cs, true, w') ∧ w'.termination = some t := by
  obtain ⟨rfl, hconcludes⟩ := h.forwarded
  obtain ⟨found, w', hread, hend⟩ := readAll_changes K r items true
  obtain ⟨rfl, ht⟩ := hend t hconcludes
  exact ⟨w', hread, ht⟩

/-- So does one that finds the end after any moves but stops. -/
theorem told_of_read_end {items : List RawItem} {ended : Bool} {as : List Act} {a : Act}
    {w' : Watcher α} (has : .beginStop ∉ as)
    (hread : ((ofItems r items ended).run K as).act? K a = some (w', some none)) :
    ∃ t, w'.termination = some t ∧ ∀ later, (w'.ended = true → later = []) →
      let w : Watcher α := ofItems r items ended
      Told K r (items ++ w.sent K as ++ later) (w.changesRead K as) t := by
  have hsound : Sound ((ofItems r items ended : Watcher α).run K as) :=
    (Sound.ofItems r items ended).run as
  have hmove := move_of_act? hread
  obtain ⟨hcause, hstop⟩ := not_stopped_of_no_beginStop K r items ended has
  obtain ⟨t, hrecorded⟩ := Option.isSome_iff_exists.mp (hsound.read_end hmove)
  have hne : t ≠ .stopped := fun he => hcause (he ▸ hrecorded)
  have ht := hmove.termination_eq hrecorded
  obtain ⟨-, hconcludes, lost, hlost, -, hlate⟩ :=
    (flow_run K r items ended as).read_end hsound hmove ht hne
  -- only a stop makes a consumer give up changes
  have hnone : lost = [] := by
    by_contra hsome
    exact hstop (hlate hsome)
  rw [resource_run] at hconcludes hlost
  rw [hnone, List.append_nil] at hlost
  refine ⟨t, ht, fun later hlater => ?_⟩
  dsimp only
  rw [← hlost]
  exact told_append_of_concludes hconcludes hlater

/-- **The meaning of a watch.** One thing and no other is told of a sequence of items with the
end of their source behind it. A consumer that reads on to the end gets it, the changes and
the cause. And so it is however the source, the pump and the consumer take turns, if nobody
stops: when the end is read, the changes read before and the cause recorded are what is
told of all that was sent, with whatever the source may send behind it. -/
theorem reads_what_is_told (K : Kind α) (r : ApiResource) (items : List RawItem) :
    (∃ cs t, Told K r items cs t ∧ ∀ cs' t', Told K r items cs' t' → cs' = cs ∧ t' = t) ∧
    (∀ cs t, Told K r items cs t ↔ ∃ w', (ofItems r items true).readAll K = (cs, true, w') ∧
      w'.termination = some t) ∧
    ∀ ended as a w', .beginStop ∉ as →
      ((ofItems r items ended).run K as).act? K a = some (w', some none) →
      ∃ t, w'.termination = some t ∧ ∀ later, (w'.ended = true → later = []) →
        let w : Watcher α := ofItems r items ended
        Told K r (items ++ w.sent K as ++ later) (w.changesRead K as) t := by
  obtain ⟨cs, t, htold⟩ := exists_told K r items
  refine ⟨⟨cs, t, htold, fun cs' t' h => h.unique htold⟩, fun cs' t' => ⟨readAll_of_told, ?_⟩,
    fun _ _ _ _ => told_of_read_end⟩
  rintro ⟨w', hread, ht'⟩
  obtain ⟨v, hreadTold, ht⟩ := readAll_of_told htold
  obtain ⟨rfl, -, rfl⟩ : cs = cs' ∧ true = true ∧ v = w' := by
    simpa using hreadTold.symm.trans hread
  obtain rfl := Option.some.inj (ht.symm.trans ht')
  exact htold

/-- A watch of knives that meets a bookmark, and then a config map: the knife in front of them is
read, and the one behind them is not. -/
theorem knives_are_told_up_to_a_config_map :
    let r : ApiResource := ⟨"test.kubegen.dev", "v1", "Knife", "knives"⟩
    let items : List RawItem := [.ok (.added ⟨none, .named "a", .null⟩),
      .ok (.bookmark ⟨⟨"test.kubegen.dev/v1", "Knife"⟩, "7"⟩),
      .ok (.modified ⟨some ⟨"v1", "ConfigMap"⟩, .named "b", .null⟩),
      .ok (.deleted ⟨none, .named "a", .null⟩)]
    let as : List Act := [.take, .hand, .take, .beginRead, .take, .receive, .record, .endRead,
      .leave, .beginRead, .receive]
    ∃ w', .beginStop ∉ as ∧
      ((ofItems r items false).run Knife.asKind as).act? Knife.asKind .endRead =
        some (w', some none) ∧
      w'.termination = some (.mismatch "ConfigMap") ∧
      Told Knife.asKind r items [.added ⟨.named "a", []⟩] (.mismatch "ConfigMap") := by
  intro r items as
  obtain ⟨⟨w', out⟩, hread, heq⟩ := Option.map_eq_some_iff.mp (show
    (((ofItems r items false).run Knife.asKind as).act? Knife.asKind .endRead).map
      (fun p => (p.2, p.1.termination)) = some (some none, some (.mismatch "ConfigMap")) by
    decide +kernel)
  obtain ⟨rfl, hcause⟩ := Prod.mk.inj heq
  have has : Act.beginStop ∉ as := by simp [as]
  obtain ⟨t, ht, htold⟩ :=
    (reads_what_is_told Knife.asKind r items).2.2 false as .endRead w' has hread
  obtain rfl := Option.some.inj (ht.symm.trans hcause)
  have hsent : (ofItems r items false).sent Knife.asKind as = [] := by decide +kernel
  have hchanges : (ofItems r items false).changesRead Knife.asKind as =
      [.added ⟨.named "a", []⟩] := by decide +kernel
  have htold := htold [] fun _ => rfl
  dsimp only at htold
  rw [hsent, hchanges, List.append_nil, List.append_nil] at htold
  exact ⟨w', has, hread, hcause, htold⟩

end Watcher
end ClusterKit
