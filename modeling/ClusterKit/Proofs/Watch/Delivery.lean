/-
# What a watch delivers

Whatever the schedule, a consumer reads what the watch is to pass on, in order
and from its beginning, and the changes in the watcher come next. A pump that has
found a cause of its own has handed over all of them, so from then on a change is
missing only if a stop, begun after the cause was recorded, has made the
consumer give up what was buffered.

Key definitions: `Watcher.buffered`, `Watcher.HasFound`, `Watcher.Flow`.
Key theorems: `Watcher.Flow.move`, `Watcher.Flow.run`.
-/
import ClusterKit.Catalog.Custom
import ClusterKit.Proofs.Watch.Cause
import ClusterKit.Proofs.Watch.Forwarded
import ClusterKit.Proofs.Watch.Pending

namespace ClusterKit
namespace Watcher

/-- The changes that the pump has handed over and the consumer has not read yet. -/
def buffered (w : Watcher α) : List (Change α) :=
  w.consumer.held ++ w.place.toList

theorem length_buffered_le (w : Watcher α) : w.buffered.length ≤ 2 := by
  have hheld : w.consumer.held.length ≤ 1 := by
    unfold Consumer.held
    split <;> simp
  have hplace : w.place.toList.length ≤ 1 := by cases w.place <;> simp
  unfold buffered
  rw [List.length_append]
  omega

/-- The pump has found the cause `t` of its own, and nothing else has been recorded before. -/
def HasFound (w : Watcher α) (t : Termination) : Prop :=
  t ≠ .stopped ∧ (w.termination = some t ∨ (w.pump = .ending t ∧ w.termination = none))

/-- What a watcher has made of the items that its source has sent, when its consumer has read
the changes `seen`: it has passed on a beginning of what is to be passed on; while its pump
works, just what the items taken so far make; and when the pump has found a cause of its
own, all, of which what is lost was given up by the consumer. -/
structure Flow (K : Kind α) (items : List RawItem) (seen : List (Change α)) (w : Watcher α) :
    Prop where
  delivered : seen ++ w.buffered <+: Forwarded.changes K w.resource items
  working : w.isPumping = true → ∃ taken, items = taken ++ w.backlog ∧
    Forwarded.cause? K w.resource taken = none ∧ (w.receiving = true →
      seen ++ w.buffered ++ w.pump.offered = Forwarded.changes K w.resource taken)
  concluded : ∀ t, w.HasFound t → Forwarded.Concludes K w.resource items w.ended t ∧
    ∃ lost, Forwarded.changes K w.resource items = seen ++ w.buffered ++ lost ∧
      lost.length ≤ 2 ∧ (w.receiving = true → lost = [])

variable {K : Kind α} {w w' : Watcher α} {a : Act} {out : Option (Option (Change α))}

/-- While the pump works, it has found nothing. -/
theorem Sound.not_hasFound (h : Sound w) (hp : w.isPumping = true) (t : Termination) :
    ¬ w.HasFound t := by
  rintro ⟨hne, ht | ⟨he, -⟩⟩
  · rcases h.undecided (hasRecorded_of_isPumping hp) with hn | hn
    · cases ht.symm.trans hn
    · exact hne (Option.some.inj (ht.symm.trans hn))
  · simp [isPumping, he] at hp

theorem Sound.receiving_of_termination (h : Sound w) (hn : w.termination = none) :
    w.receiving = true := by
  cases hr : w.receiving with
  | true => rfl
  | false =>
    have hsome := h.stop (.inr (h.refused hr).1)
    rw [hn] at hsome
    cases hsome

/-- Nothing is buffered any more when the end is read. -/
theorem Sound.buffered_of_read_end (h : Sound w) (hm : Move K w a w' (some none)) :
    w'.buffered = [] := by
  cases hm with
  | refuseRead hc hs => simp [buffered, Watcher.discard, hc, Consumer.held]
  | refuseResult hc hs => rfl
  | endRead hc hs => simp [buffered, (h.ended hc).1, Consumer.held]

namespace Flow

variable {items : List RawItem} {seen seen' : List (Change α)}

theorem ofItems (K : Kind α) (r : ApiResource) (items : List RawItem) (ended : Bool) :
    Flow K items [] (Watcher.ofItems r items ended) where
  delivered := List.nil_prefix
  working := fun _ => ⟨[], rfl, rfl, fun _ => rfl⟩
  concluded := by
    rintro t ⟨-, ht | ⟨hp, -⟩⟩
    · cases ht
    · cases hp

/-- Nothing is handed over, taken or given up. -/
theorem of_same (h : Flow K items seen w) (hresource : w'.resource = w.resource)
    (hended : w'.ended = w.ended) (hbuffered : seen' ++ w'.buffered = seen ++ w.buffered)
    (hreceiving : w'.receiving = w.receiving) (hfound : ∀ t, w'.HasFound t → w.HasFound t)
    (hpump : w'.isPumping = true →
      w.isPumping = true ∧ w'.backlog = w.backlog ∧ w'.pump.offered = w.pump.offered) :
    Flow K items seen' w' where
  delivered := by
    rw [hbuffered, hresource]
    exact h.delivered
  working := by
    intro hp
    obtain ⟨hp, hbacklog, hoffered⟩ := hpump hp
    rw [hbacklog, hbuffered, hoffered, hresource, hreceiving]
    exact h.working hp
  concluded := by
    intro t ht
    rw [hresource, hended, hbuffered, hreceiving]
    exact h.concluded t (hfound t ht)

/-- What is buffered moves on to the consumer, or is read. -/
theorem moveOn (h : Flow K items seen w) {consumer : Consumer α} {place : Option (Change α)}
    (hbuffered : seen' ++ (consumer.held ++ place.toList) = seen ++ w.buffered) :
    Flow K items seen' { w with consumer := consumer, place := place } :=
  h.of_same rfl rfl hbuffered rfl (fun _ => id) fun hp => ⟨hp, rfl, rfl⟩

/-- The pump lets go of the source because nothing is to be delivered any more. -/
theorem giveUp (h : Flow K items seen w) : Flow K items seen (w.finish .stopped) := by
  refine h.of_same rfl rfl rfl rfl ?_ ?_
  · rintro t ⟨hne, ht | ⟨hp, -⟩⟩
    · exact ⟨hne, .inl ht⟩
    · exact absurd (Pump.ending.inj hp).symm hne
  · intro hp
    cases hp

/-- The pump lets go of the source for a cause `t` of its own. -/
theorem conclude {t : Termination} {items' : List RawItem} (hs : Sound w)
    (hp : w.isPumping = true) (hconcludes : Forwarded.Concludes K w.resource items' w.ended t)
    (hdelivered : seen ++ w.buffered <+: Forwarded.changes K w.resource items')
    (hall : w.receiving = true →
      seen ++ w.buffered = Forwarded.changes K w.resource items') :
    Flow K items' seen (w.finish t) where
  delivered := hdelivered
  working := nofun
  concluded := by
    rintro t' ⟨hne, ht | ⟨he, hn⟩⟩
    · exact absurd ⟨hne, .inl ht⟩ (hs.not_hasFound hp t')
    · obtain rfl := Pump.ending.inj he
      have hr := hs.receiving_of_termination hn
      exact ⟨hconcludes, [], by rw [List.append_nil]; exact (hall hr).symm, by simp, fun _ => rfl⟩

/-- The consumer gives up what is buffered. -/
theorem discard (h : Flow K items seen w) (hs : Sound w) :
    Flow K items seen (Watcher.discard { w with consumer := .idle }) where
  delivered := by
    show seen ++ [] <+: _
    rw [List.append_nil]
    exact (List.prefix_append _ _).trans h.delivered
  working := by
    intro hp
    obtain ⟨taken, htaken, hcause, -⟩ := h.working hp
    exact ⟨taken, htaken, hcause, nofun⟩
  concluded := by
    intro t ht
    obtain ⟨hconcludes, lost, hlost, hlength, hnone⟩ := h.concluded t ht
    refine ⟨hconcludes, w.buffered ++ lost, ?_, ?_, nofun⟩
    · show Forwarded.changes K w.resource items = seen ++ [] ++ (w.buffered ++ lost)
      rw [hlost, List.append_nil, List.append_assoc]
    · cases hr : w.receiving with
      | true =>
        rw [hnone hr, List.append_nil]
        exact w.length_buffered_le
      | false =>
        obtain ⟨-, hplace, hconsumer⟩ := hs.refused hr
        simpa [buffered, hplace, hconsumer, Consumer.held] using hlength

/-- The source sends an item. -/
theorem send (h : Flow K items seen w) (he : w.ended = false) (item : RawItem) :
    Flow K (items ++ [item]) seen { w with backlog := w.backlog ++ [item] } where
  delivered := h.delivered.trans (Forwarded.changes_prefix _ _ _ _)
  working := by
    intro hp
    obtain ⟨taken, rfl, hcause, hall⟩ := h.working hp
    exact ⟨taken, List.append_assoc _ _ _, hcause, hall⟩
  concluded := by
    intro t ht
    obtain ⟨hconcludes, hlost⟩ := h.concluded t ht
    rw [he] at hconcludes
    obtain ⟨hconcludes', hsame⟩ := hconcludes.send item
    refine ⟨he.symm ▸ hconcludes', ?_⟩
    show ∃ lost, Forwarded.changes K w.resource (items ++ [item]) = seen ++ w.buffered ++ lost ∧ _
    rw [hsame]
    exact hlost

/-- The source ends. -/
theorem close (h : Flow K items seen w) : Flow K items seen { w with ended := true } where
  delivered := h.delivered
  working := h.working
  concluded := fun t ht => ⟨(h.concluded t ht).1.close, (h.concluded t ht).2⟩

/-- The pump goes on with what it has taken, or has handed over. -/
theorem goOn (h : Flow K items seen w) (hs : Sound w') (hp : w'.isPumping = true)
    (hresource : w'.resource = w.resource) (taken : List RawItem)
    (htaken : items = taken ++ w'.backlog) (hcause : Forwarded.cause? K w.resource taken = none)
    (hall : w'.receiving = true →
      seen ++ w'.buffered ++ w'.pump.offered = Forwarded.changes K w.resource taken)
    (hbuffered : w'.receiving = false → w'.buffered = []) :
    Flow K items seen w' where
  delivered := by
    cases hr : w'.receiving with
    | true =>
      rw [hresource, htaken]
      refine .trans ?_ (Forwarded.changes_prefix _ _ _ _)
      rw [← hall hr]
      exact List.prefix_append _ _
    | false =>
      rw [hbuffered hr, List.append_nil, hresource]
      exact (List.prefix_append _ _).trans h.delivered
  working := fun _ => ⟨taken, htaken, hresource ▸ hcause, hresource ▸ hall⟩
  concluded := fun t ht => absurd ht (hs.not_hasFound hp t)

/-- The pump takes an item that does not end the watch. -/
theorem takeOn (h : Flow K items seen w) {item : RawItem} {rest : List RawItem} {pump : Pump α}
    (hs : Sound { w with backlog := rest, pulled := w.pulled + 1, pump := pump })
    (hp : w.pump = .taking) (hb : w.backlog = item :: rest)
    (hpump : ({ w with pump := pump } : Watcher α).isPumping = true)
    (hitem : ∀ taken, Forwarded.cause? K w.resource taken = none →
      Forwarded.cause? K w.resource (taken ++ [item]) = none ∧
      Forwarded.changes K w.resource (taken ++ [item]) =
        Forwarded.changes K w.resource taken ++ pump.offered) :
    Flow K items seen { w with backlog := rest, pulled := w.pulled + 1, pump := pump } := by
  have hworks : w.isPumping = true := by simp [isPumping, hp]
  obtain ⟨taken, htaken, hcause, hall⟩ := h.working hworks
  obtain ⟨hcause', hchanges⟩ := hitem taken hcause
  have hnone : w.pump.offered = [] := by rw [hp]; rfl
  refine h.goOn hs hpump rfl (taken ++ [item]) ?_ hcause' ?_ ?_
  · rw [htaken, hb, List.append_assoc]
    rfl
  · intro hr
    rw [hchanges, ← hall hr, hnone, List.append_nil]
    rfl
  · intro hr
    obtain ⟨-, hplace, hconsumer⟩ := hs.refused hr
    show w.consumer.held ++ w.place.toList = []
    rw [show w.place = none from hplace, show w.consumer = .idle from hconsumer]
    rfl

/-- The pump takes the item that ends the watch. -/
theorem takeLast (h : Flow K items seen w) (hs : Sound w) {item : RawItem} {rest : List RawItem}
    {t : Termination} (hp : w.pump = .taking) (hb : w.backlog = item :: rest)
    (hf : Forwarded.ofItem K w.resource item = .finish t) :
    Flow K items seen (finish t { w with backlog := rest, pulled := w.pulled + 1 }) := by
  have hworks : w.isPumping = true := by simp [isPumping, hp]
  obtain ⟨taken, htaken, hcause, hall⟩ := h.working hworks
  have hends := Forwarded.cause?_append_finish taken rest hf
  have hchanges := Forwarded.changes_append_finish taken rest hf
  rw [hcause, Option.getD_none, ← hb, ← htaken] at hends
  rw [← hb, ← htaken] at hchanges
  refine conclude (w := { w with backlog := rest, pulled := w.pulled + 1 }) { hs with } hworks
    (.inl hends) h.delivered ?_
  intro hr
  rw [hchanges, ← hall hr]
  simp [buffered, Pump.offered, hp]

/-- What is read, and what the items sent so far have come to, follows each move. -/
theorem move (hm : Move K w a w' out) (hs : Sound w) (h : Flow K items seen w) :
    Flow K (items ++ a.item?.toList) (seen ++ out.join.toList) w' := by
  have hs' := hs.move hm
  have unread : ∀ {v}, Flow K items seen v → Flow K (items ++ []) (seen ++ []) v := by
    intro v hv
    simpa using hv
  cases hm with
  | send he => simpa [Act.item?] using h.send he _
  | close => exact unread h.close
  | notice hn hp => exact unread h.giveUp
  | refused hp hr => exact unread h.giveUp
  | pass hp hb hf =>
    exact unread (h.takeOn hs' hp hb rfl fun _ hcause => Forwarded.snoc_pass hcause hf)
  | skip hp hb hf =>
    refine unread (h.takeOn hs' hp hb (by simp [isPumping, hp]) fun taken hcause => ?_)
    obtain ⟨hcause', hchanges⟩ := Forwarded.snoc_skip hcause hf
    exact ⟨hcause', by rw [hchanges, hp]; exact (List.append_nil _).symm⟩
  | meet hp hb hf => exact unread (h.takeLast hs hp hb hf)
  | runOut hp hb he =>
    obtain ⟨taken, htaken, hcause, hall⟩ := h.working (by simp [isPumping, hp])
    rw [hb, List.append_nil] at htaken
    subst htaken
    refine unread (conclude hs (by simp [isPumping, hp]) (.inr ⟨hcause, he, rfl⟩) h.delivered
      ?_)
    intro hr
    rw [← hall hr]
    simp [Pump.offered, hp]
  | @hand c hp hr hc =>
    obtain ⟨taken, htaken, hcause, hall⟩ := h.working (by simp [isPumping, hp])
    refine unread (h.goOn hs' rfl rfl taken htaken hcause ?_ ?_)
    · intro _
      rw [← hall hr, hp]
      simp [buffered, Pump.offered, hc]
    · intro hn
      cases hr.symm.trans hn
  | @record t hp =>
    refine unread (h.of_same rfl rfl rfl rfl ?_ fun hw => absurd hw Bool.false_ne_true)
    rintro t' ⟨hne, ht | ⟨he, -⟩⟩
    · rcases termination_of_record ht with ht | ⟨hn, rfl⟩
      · exact ⟨hne, .inl ht⟩
      · exact ⟨hne, .inr ⟨hp, hn⟩⟩
    · cases he
  | leave hp =>
    refine unread (h.of_same rfl rfl rfl rfl ?_ fun hw => absurd hw Bool.false_ne_true)
    rintro t ⟨hne, ht | ⟨he, -⟩⟩
    · exact ⟨hne, .inl ht⟩
    · cases he
  | beginStop =>
    refine unread (h.of_same rfl rfl rfl rfl ?_ fun hp => ⟨hp, rfl, rfl⟩)
    rintro t ⟨hne, ht | ⟨-, hn⟩⟩
    · rcases termination_of_record ht with ht | ⟨-, rfl⟩
      · exact ⟨hne, .inl ht⟩
      · exact absurd rfl hne
    · simp [record] at hn
  | endStop hn => exact unread (h.of_same rfl rfl rfl rfl (fun _ => id) fun hp => ⟨hp, rfl, rfl⟩)
  | refuseRead hc hn =>
    have hidle : { w with consumer := .idle } = w := by rw [← hc]
    exact unread (hidle ▸ h.discard hs)
  | beginRead hc hn => exact unread (h.moveOn (by simp [buffered, hc, Consumer.held]))
  | receive hc hp => exact unread (h.moveOn (by simp [buffered, hc, hp, Consumer.held]))
  | receiveEnd hc hp ho => exact unread (h.moveOn (by simp [buffered, hc, Consumer.held]))
  | refuseResult hc hn => exact unread (h.discard hs)
  | @endRead x hc hn =>
    rw [show items ++ (Act.endRead).item?.toList = items from List.append_nil _]
    exact h.moveOn (by cases x <;> simp [buffered, hc, Consumer.held])
  | abandonRead hc => exact unread (h.moveOn (by simp [buffered, hc, Consumer.held]))
  | discard hc hn =>
    have hidle : { w with consumer := .idle } = w := by rw [← hc]
    exact unread (hidle ▸ h.discard hs)

/-- A consumer that reads the end, with a cause that the pump has found, has read all but
what was given up after a stop. -/
theorem read_end (h : Flow K items seen w) (hs : Sound w) (hm : Move K w a w' (some none))
    {t : Termination} (ht : w'.termination = some t) (hne : t ≠ .stopped) :
    w.termination = some t ∧ Forwarded.Concludes K w.resource items w'.ended t ∧
      ∃ lost, Forwarded.changes K w.resource items = seen ++ lost ∧ lost.length ≤ 2 ∧
        (lost ≠ [] → w.stops ≠ 0 ∨ w.stopped = true) := by
  have hcause : w.termination = some t := by
    obtain ⟨s, hcause⟩ := Option.isSome_iff_exists.mp (hs.read_end hm)
    exact hcause.trans ((hm.termination_eq hcause).symm.trans ht)
  have hact : a.item? = none ∧ a ≠ .beginStop := by
    rcases hm.act_of_read with rfl | rfl <;> exact ⟨rfl, nofun⟩
  obtain ⟨hconcludes, lost, hlost, hlength, hnone⟩ := (h.move hm hs).concluded t ⟨hne, .inl ht⟩
  rw [hact.1, Option.toList_none, List.append_nil, hm.resource_eq] at hconcludes hlost
  rw [hs.buffered_of_read_end hm, List.append_nil] at hlost
  refine ⟨hcause, hconcludes, lost, by simpa using hlost, hlength, ?_⟩
  intro hsome
  have hrefused : w'.receiving = false := by
    cases hr : w'.receiving with
    | false => rfl
    | true => exact absurd (hnone hr) hsome
  exact (hm.stop_cases (.inr ((hs.move hm).refused hrefused).1)).resolve_right hact.2

theorem run (as : List Act) : ∀ {items : List RawItem} {seen : List (Change α)} {w : Watcher α},
    Sound w → Flow K items seen w →
      Flow K (items ++ w.sent K as) (seen ++ w.changesRead K as) (w.run K as) := by
  induction as with
  | nil =>
    intro items seen w _ h
    simpa [sent, changesRead] using h
  | cons a as ih =>
    intro items seen w hs h
    rw [← List.singleton_append, sent_append, changesRead_append, run_append,
      ← List.append_assoc, ← List.append_assoc]
    refine ih (hs.run [a]) ?_
    rw [sent_singleton, changesRead_singleton]
    unfold Moment.item?
    rcases Moment.still_or_moves K ⟨w, a⟩ with ⟨hmade, hstill, hread⟩ | ⟨hmade, hmove⟩
    · have hsame : w.run K [a] = w := hstill
      simpa [hmade, hread, hsame] using h
    · rw [if_pos hmade]
      exact h.move hmove hs

end Flow

/-- Whatever has happened since a watcher was made, this is what it has made of what its
source has sent. -/
theorem flow_run (K : Kind α) (r : ApiResource) (items : List RawItem) (ended : Bool)
    (as : List Act) :
    let w : Watcher α := ofItems r items ended
    Flow K (items ++ w.sent K as) (w.changesRead K as) (w.run K as) :=
  (Flow.ofItems K r items ended).run as (.ofItems r items ended)

/-! ### Any schedule -/

/-- **Safety of a watch.** Whatever the source, the pump, the consumer and any number of
stops do, in whatever order: the consumer reads a beginning of the changes before the first item
that ends the watch; once a stop has returned no change is read, and a read that starts then
finds the end at once; the cause of the end is written once at most and stays; whoever reads the
end finds a cause; and the cause is that of a stop just if a stop began while there was none. -/
theorem safe_under_every_schedule (K : Kind α) (r : ApiResource) (items : List RawItem)
    (ended : Bool) (as : List Act) :
    let w : Watcher α := ofItems r items ended
    w.changesRead K as <+: Forwarded.changes K r (items ++ w.sent K as) ∧
    (∀ h₁ m h₂, w.history K as = h₁ ++ m :: h₂ → m.act = .endStop → m.isMade K = true →
      ∀ e ∈ h₂, (∀ c, e.read? K ≠ some (some c)) ∧
        (e.act = .beginRead → e.isMade K = true → e.read? K = some none)) ∧
    ((w.history K as).countP (·.isWrite K) ≤ 1 ∧
      ∀ m ∈ w.history K as, ∀ t, m.before.termination = some t →
        (w.run K as).termination = some t) ∧
    (∀ m ∈ w.history K as, m.read? K = some none → m.before.termination.isSome = true) ∧
    ((w.run K as).termination = some .stopped ↔
      ∃ m ∈ w.history K as, m.act = .beginStop ∧ m.before.termination = none) := by
  intro w
  have hs : Sound w := .ofItems r items ended
  refine ⟨?_, ?_, ⟨countP_isWrite_le as w, ?_⟩, ?_, stopped_iff_begun_first hs rfl as⟩
  · have hflow : w.changesRead K as ++ (w.run K as).buffered <+:
        Forwarded.changes K (w.run K as).resource (items ++ w.sent K as) :=
      (flow_run K r items ended as).delivered
    rw [resource_run] at hflow
    exact (List.prefix_append _ _).trans hflow
  · intro h₁ m h₂ hh ha hmade e he
    obtain ⟨as₁, as₂, -, -, -, rfl⟩ := history_split hh
    have hstopped : e.before.stopped = true :=
      history_induction (P := fun w => w.stopped = true) Move.stopped_eq (m.stopped_after ha hmade) he
    rcases e.still_or_moves K with ⟨hstill, -, hn⟩ | ⟨-, hmove⟩
    · exact ⟨fun c => by simp [hn], fun _ hm => nomatch hstill.symm.trans hm⟩
    · refine ⟨hmove.read_of_stopped hstopped, fun hbegin _ => ?_⟩
      rw [hbegin] at hmove
      exact hmove.beginRead_of_stopped hstopped
  · intro m hm t ht
    obtain ⟨h₁, h₂, hh⟩ := List.append_of_mem hm
    obtain ⟨as₁, as₂, rfl, -, hb, -⟩ := history_split hh
    rw [run_append, ← hb]
    exact termination_run ht _
  · intro m hm hread
    have hsm : Sound m.before := history_induction Sound.move hs hm
    rcases m.still_or_moves K with ⟨-, -, hn⟩ | ⟨-, hmove⟩
    · cases hread.symm.trans hn
    · exact hsm.read_end (hread ▸ hmove)

/-- **What an end tells.** A consumer that reads the end of a watch with another cause
than a stop has read all changes before the item that ended the watch, or the end of its source,
but for two at most, which were buffered and are lost only if a stop began when that cause was
recorded already. -/
theorem lost_only_to_a_stop_behind_the_cause (K : Kind α) (r : ApiResource)
    (items : List RawItem) (ended : Bool) (as : List Act) (a : Act) (w' : Watcher α)
    (t : Termination)
    (hread : ((ofItems r items ended).run K as).act? K a = some (w', some none))
    (ht : w'.termination = some t) (hne : t ≠ .stopped) :
    let w : Watcher α := ofItems r items ended
    Forwarded.Concludes K r (items ++ w.sent K as) w'.ended t ∧
    ∃ lost, Forwarded.changes K r (items ++ w.sent K as) = w.changesRead K as ++ lost ∧
      lost.length ≤ 2 ∧
      (lost ≠ [] → ∃ m ∈ w.history K as, m.act = .beginStop ∧ m.before.termination = some t) := by
  intro w
  have hs : Sound w := .ofItems r items ended
  have hresource : (w.run K as).resource = r := resource_run w as
  have hflow := flow_run K r items ended as
  obtain ⟨hcause, hconcludes, lost, hlost, hlength, hstopped⟩ :=
    hflow.read_end (hs.run as) (move_of_act? hread) ht hne
  rw [hresource] at hconcludes hlost
  exact ⟨hconcludes, lost, hlost, hlength, fun hsome =>
    exists_later_stop hs ⟨rfl, rfl, rfl⟩ (hstopped hsome) hcause hne⟩

/-! ### A knife on its way -/

/-- A stop that lands on a buffered change: the change is not read, the end is. -/
theorem stopped_knives_are_not_read :
    let r : ApiResource := ⟨"test.kubegen.dev", "v1", "Knife", "knives"⟩
    let w : Watcher Knife := ofItems r [.ok (.added ⟨none, .named "a", .null⟩)] false
    let as : List Act := [.take, .hand, .beginStop, .endStop, .beginRead]
    ∃ h₁ m e, w.history Knife.asKind as = h₁ ++ m :: [e] ∧ m.act = .endStop ∧
      m.isMade Knife.asKind = true ∧ e.before.place.isSome = true ∧ e.act = .beginRead ∧
      e.isMade Knife.asKind = true ∧ e.read? Knife.asKind = some none ∧
      e.before.termination.isSome = true ∧
      (w.run Knife.asKind as).termination = some .stopped := by
  intro r w as
  obtain ⟨-, hafter, -, hend, hcause⟩ := safe_under_every_schedule Knife.asKind r
    [.ok (.added ⟨none, .named "a", .null⟩)] false as
  obtain ⟨a, b, c, m, e, hh, hc, hfirst, hm, hmade, hplace, he, hbegun⟩ :
      ∃ a b c m e, w.history Knife.asKind as = [a, b, c, m, e] ∧ c.act = .beginStop ∧
        c.before.termination = none ∧ m.act = .endStop ∧ m.isMade Knife.asKind = true ∧
        e.before.place.isSome = true ∧ e.act = .beginRead ∧ e.isMade Knife.asKind = true :=
    ⟨_, _, _, _, _, rfl, rfl, by decide +kernel, rfl, by decide +kernel, by decide +kernel, rfl,
      by decide +kernel⟩
  have hread := (hafter [a, b, c] m [e] hh hm hmade e List.mem_cons_self).2 he hbegun
  exact ⟨[a, b, c], m, e, hh, hm, hmade, hplace, he, hbegun, hread,
    hend e (by rw [hh]; simp) hread, hcause.mpr ⟨c, by rw [hh]; simp, hc, hfirst⟩⟩

/-- A watch that nobody stops: the knife is read, and then the end for what it is. -/
theorem closed_knives_are_all_read :
    let r : ApiResource := ⟨"test.kubegen.dev", "v1", "Knife", "knives"⟩
    let w : Watcher Knife := ofItems r [.ok (.added ⟨none, .named "a", .null⟩)] true
    let as : List Act := [.take, .hand, .beginRead, .receive, .endRead, .take, .record, .leave,
      .beginRead, .receive]
    ∃ w', (w.run Knife.asKind as).act? Knife.asKind .endRead = some (w', some none) ∧
      w'.termination = some .closed ∧ Termination.closed ≠ .stopped ∧
      w.changesRead Knife.asKind as =
        Forwarded.changes Knife.asKind r [.ok (.added ⟨none, .named "a", .null⟩)] := by
  intro r w as
  obtain ⟨⟨w', out⟩, hread, heq⟩ := Option.map_eq_some_iff.mp (show
    ((w.run Knife.asKind as).act? Knife.asKind .endRead).map (fun p => (p.2, p.1.termination)) =
      some (some none, some .closed) by decide +kernel)
  obtain ⟨rfl, hcause⟩ := Prod.mk.inj heq
  obtain ⟨-, lost, hlost, -, hstop⟩ := lost_only_to_a_stop_behind_the_cause Knife.asKind r
    [.ok (.added ⟨none, .named "a", .null⟩)] true as .endRead w' .closed hread hcause nofun
  have hall : lost = [] := by
    by_contra hne
    obtain ⟨m, hm, ha, -⟩ := hstop hne
    have hmem : Act.beginStop ∈ as := by
      rw [← map_act_history (K := Knife.asKind) as w]
      exact ha ▸ List.mem_map_of_mem hm
    simp [as] at hmem
  have hsent : w.sent Knife.asKind as = [] := by decide +kernel
  rw [hall, List.append_nil] at hlost
  exact ⟨w', hread, hcause, nofun, hlost.symm.trans (by rw [hsent]; rfl)⟩

/-- A stop behind the end of the source: the knife that was buffered is lost, and the cause is
still that of a complete watch. -/
theorem buffered_knife_is_lost_behind_the_end :
    let r : ApiResource := ⟨"test.kubegen.dev", "v1", "Knife", "knives"⟩
    let w : Watcher Knife := ofItems r [.ok (.added ⟨none, .named "a", .null⟩)] true
    let as : List Act := [.take, .hand, .take, .record, .leave, .beginStop, .endStop]
    ∃ w', (w.run Knife.asKind as).act? Knife.asKind .beginRead = some (w', some none) ∧
      w'.termination = some .closed ∧ w.changesRead Knife.asKind as = [] ∧
      Forwarded.changes Knife.asKind r [.ok (.added ⟨none, .named "a", .null⟩)] =
        [.added ⟨.named "a", []⟩] := by
  intro r w as
  obtain ⟨⟨w', out⟩, hread, heq⟩ := Option.map_eq_some_iff.mp (show
    ((w.run Knife.asKind as).act? Knife.asKind .beginRead).map (fun p => (p.2, p.1.termination)) =
      some (some none, some .closed) by decide +kernel)
  obtain ⟨rfl, hcause⟩ := Prod.mk.inj heq
  exact ⟨w', hread, hcause, by decide +kernel, by decide +kernel⟩

end Watcher
end ClusterKit
