/-
# Reading on

Each move of a pump brings it nearer to where it waits, so that a watcher which
has settled waits for its consumer or for its source (`Watcher.settle_rests`). A
consumer that reads on therefore gets all changes that the watch passes on, and
then finds its end for what it is, if the watch has one
(`Watcher.readAll_changes`).

Key definitions: `Watcher.IsCalm`, `Watcher.EndsFor`.
Key theorems: `Watcher.settle_rests`, `Watcher.readAll_changes`, `Watcher.endsFor_of_cause?`.
-/
import ClusterKit.Proofs.Watch.Delivery

namespace ClusterKit
namespace Watcher

variable {K : Kind α} {w w' : Watcher α}

/-! ### Settling -/

theorem pumpBound_lt (h : w.pumpStep? K = some w') : w'.pumpBound < w.pumpBound := by
  obtain ⟨a, ha, hm⟩ := move_of_pumpStep? h
  unfold pumpBound
  cases hm with
  | notice hs hp =>
    unfold isPumping at hp
    cases hpump : w.pump <;> simp [hpump, finish] at hp ⊢
  | pass hp hb hf =>
    simp only [hp, hb, List.length_cons]
    omega
  | skip hp hb hf => simp [hp, hb]
  | meet hp hb hf =>
    simp only [hp, hb, finish, List.length_cons]
    omega
  | runOut hp hb he => simp [hp, finish]
  | refused hp hr => simp [hp, finish]
  | hand hp hr hc => simp [hp]
  | record hp => simp [hp, Watcher.record]
  | leave hp => simp [hp]
  | _ => cases ha

/-- A watcher that has settled waits. -/
theorem settle_rests (K : Kind α) (w : Watcher α) : (w.settle K).pumpStep? K = none := by
  have hpump : ∀ n (w : Watcher α), w.pumpBound ≤ n → (pumpFor K n w).pumpStep? K = none := by
    intro n
    induction n with
    | zero =>
      intro w hn
      cases h : w.pumpStep? K with
      | none => exact h
      | some v =>
        have := pumpBound_lt h
        omega
    | succ n ih =>
      intro w hn
      unfold pumpFor
      split
      · rename_i v hv
        have := pumpBound_lt hv
        exact ih v (by omega)
      · rename_i hnone
        exact hnone
  exact hpump _ w (Nat.le_refl _)

/-- A pump that waits, and not for the consumer, waits for its source. -/
theorem waits_for_source (h : w.pumpStep? K = none) (hr : w.receiving = true)
    (hc : w.place = none) (ho : w.isOpen = true) :
    w.pump = .taking ∧ w.backlog = [] ∧ w.ended = false := by
  unfold pumpStep? at h
  split at h
  · cases h
  · simp only [Option.or_eq_none_iff] at h
    obtain ⟨htake, hhand, hrecord, hleave⟩ := h
    cases hp : w.pump with
    | taking =>
      cases hb : w.backlog with
      | nil => simpa [take?, hp, hb] using htake
      | cons item rest =>
        simp only [take?, hp, hb] at htake
        split at htake <;> cases htake
    | offering c => simp [hand?, hp, hr, hc] at hhand
    | ending t => simp [recordEnd?, hp] at hrecord
    | leaving => simp [leave?, hp] at hleave
    | finished => simp [isOpen, hp] at ho

/-! ### Reading without a stop -/

/-- Nobody stops the watcher, and its consumer is between two reads. -/
structure IsCalm (w : Watcher α) : Prop where
  sound : Sound w
  consumer : w.consumer = .idle
  receiving : w.receiving = true
  stopped : w.stopped = false
  termination : w.termination ≠ some .stopped

namespace IsCalm

theorem ofItems (r : ApiResource) (items : List RawItem) (ended : Bool) :
    IsCalm (Watcher.ofItems r items ended : Watcher α) :=
  ⟨.ofItems r items ended, rfl, rfl, rfl, nofun⟩

theorem pumpStep (h : w.pumpStep? K = some w') (hw : IsCalm w) : IsCalm w' := by
  obtain ⟨a, ha, hm⟩ := move_of_pumpStep? h
  have hsound := hw.sound.move hm
  cases hm with
  | notice hs hp => cases hs.symm.trans hw.stopped
  | refused hp hr => cases hr.symm.trans hw.receiving
  | record hp =>
    refine { hw with sound := hsound, termination := ?_ }
    intro ht
    rcases termination_of_record ht with ht | ⟨hn, rfl⟩
    · exact hw.termination ht
    · exact hw.sound.record_ne_stopped hn hp rfl
  | pass hp hb hf => exact { hw with sound := hsound }
  | skip hp hb hf => exact { hw with sound := hsound }
  | meet hp hb hf => exact { hw with sound := hsound }
  | runOut hp hb he => exact { hw with sound := hsound }
  | hand hp hr hc => exact { hw with sound := hsound }
  | leave hp => exact { hw with sound := hsound }
  | _ => cases ha

/-- The consumer has read the change in the channel. -/
theorem emptied (hw : IsCalm w) : IsCalm { w with place := none } :=
  { hw with
    sound := { hw.sound with
      refused := fun hr => nomatch hw.receiving.symm.trans hr
      ended := fun hc => nomatch hw.consumer.symm.trans hc } }

theorem read_of_place (hw : IsCalm w) {c : Change α} (hc : w.place = some c) :
    w.read K = (.change c, { w with place := none }) := by
  simp [read, act?, receive?, hw.consumer, hw.stopped, hc]

theorem read_of_end (hw : IsCalm w) (hc : w.place = none) (ho : w.isOpen = false) :
    w.read K = (.ended, w) := by
  have hp := pump_of_isOpen ho
  have hconsumer := hw.consumer
  have hstopped := hw.stopped
  cases w
  subst hp hconsumer hstopped hc
  simp [read, act?, receive?, isOpen]

theorem read_of_open (hw : IsCalm w) (hc : w.place = none) (ho : w.isOpen = true) :
    ∃ v, w.read K = (.pending, v) := by
  have hbegin : w.act? K .beginRead = some ({ w with consumer := .waiting }, none) := by
    simp [act?, hw.consumer, hw.stopped]
  have hnone : ({ w with consumer := .waiting } : Watcher α).receive? = none := by
    unfold receive?
    dsimp only
    rw [hc]
    exact if_pos (Bool.and_eq_true_iff.mpr ⟨ho, hw.receiving⟩)
  unfold read
  rw [hbegin]
  dsimp only
  rw [hnone]
  exact ⟨_, rfl⟩

end IsCalm

namespace Flow

variable {items : List RawItem} {seen : List (Change α)}

theorem pumpStep (h : w.pumpStep? K = some w') (hs : Sound w) (hw : Flow K items seen w) :
    Flow K items seen w' := by
  obtain ⟨a, ha, hm⟩ := move_of_pumpStep? h
  have hitem : a.item? = none := by cases a <;> first | rfl | cases ha
  simpa [hitem] using hw.move hm hs

/-- A watcher that settles keeps to what it has taken. -/
theorem settle (h : Flow K items seen w) (hw : IsCalm w) : IsCalm (w.settle K) ∧
    Flow K items seen (w.settle K) ∧ (w.settle K).resource = w.resource ∧
      (w.settle K).ended = w.ended := by
  refine settle_induction (P := fun v => IsCalm v ∧ Flow K items seen v ∧
    v.resource = w.resource ∧ v.ended = w.ended) ?_ ⟨hw, h, rfl, rfl⟩
  rintro v v' hstep ⟨hv, hflow, hresource, hended⟩
  obtain ⟨a, ha, hm⟩ := move_of_pumpStep? hstep
  refine ⟨hv.pumpStep hstep, hflow.pumpStep hstep hv.sound, hm.resource_eq.trans hresource, ?_⟩
  rw [← hended]
  cases hm with
  | close => cases ha
  | _ => rfl

/-- The consumer has read the change in the channel. -/
theorem emptied (h : Flow K items seen w) (hw : IsCalm w) {c : Change α} (hc : w.place = some c) :
    Flow K items (seen ++ [c]) { w with place := none } :=
  h.moveOn (by simp [buffered, hw.consumer, hc, Consumer.held])

/-- A watcher that nobody has stopped and whose pump has let go of the channel has handed over
all, with the cause it has found. -/
theorem complete (h : Flow K items seen w) (hw : IsCalm w) (hc : w.place = none)
    (ho : w.isOpen = false) : seen = Forwarded.changes K w.resource items ∧
      ∃ t, w.termination = some t ∧ Forwarded.Concludes K w.resource items w.ended t := by
  obtain ⟨t, ht⟩ := Option.isSome_iff_exists.mp (hw.sound.recorded (hasRecorded_of_isOpen ho))
  have hne : t ≠ .stopped := fun he => hw.termination (he ▸ ht)
  obtain ⟨hconcludes, lost, hlost, -, hnone⟩ := h.concluded t ⟨hne, .inl ht⟩
  have hempty : w.buffered = [] := by simp [buffered, hw.consumer, hc, Consumer.held]
  rw [hnone hw.receiving, hempty, List.append_nil, List.append_nil] at hlost
  exact ⟨hlost.symm, t, ht, hconcludes⟩

/-- A watcher that waits for its source has handed over all, and has found no end. -/
theorem awaiting (h : Flow K items seen w) (hw : IsCalm w) (hc : w.place = none)
    (hp : w.pump = .taking) (hb : w.backlog = []) :
    seen = Forwarded.changes K w.resource items ∧ Forwarded.cause? K w.resource items = none := by
  obtain ⟨taken, htaken, hcause, hall⟩ := h.working (by simp [isPumping, hp])
  rw [hb, List.append_nil] at htaken
  subst htaken
  have hempty : w.buffered = [] := by simp [buffered, hw.consumer, hc, Consumer.held]
  have hseen := hall hw.receiving
  rw [hempty, hp] at hseen
  simp only [Pump.offered, List.append_nil] at hseen
  exact ⟨hseen, hcause⟩

end Flow

theorem readFor_changes {items : List RawItem} (n : Nat) :
    ∀ {seen : List (Change α)} {w : Watcher α}, IsCalm w → Flow K items seen w →
      items.length < seen.length + n →
      ∃ cs found w', w.readFor K n = (cs, found, w') ∧
        seen ++ cs = Forwarded.changes K w.resource items ∧
        ∀ t, Forwarded.Concludes K w.resource items w.ended t →
          found = true ∧ w'.termination = some t := by
  induction n with
  | zero =>
    intro seen w hw hflow hn
    have hseen : seen.length ≤ (Forwarded.changes K w.resource items).length :=
      ((List.prefix_append _ _).trans hflow.delivered).length_le
    have := Forwarded.length_changes_le K w.resource items
    omega
  | succ n ih =>
    intro seen w hw hflow hn
    obtain ⟨hv, hflow', hresource, hended⟩ := hflow.settle hw
    have hrests := settle_rests K w
    rw [← hresource, ← hended]
    unfold readFor
    cases hc : (w.settle K).place with
    | some c =>
      rw [hv.read_of_place hc]
      obtain ⟨cs, found, w', hrest, hall, hcause⟩ := ih hv.emptied (hflow'.emptied hv hc)
        (by rw [List.length_append, List.length_singleton]; omega)
      dsimp only
      rw [hrest]
      exact ⟨c :: cs, found, w', rfl, (List.append_cons seen c cs).trans hall, hcause⟩
    | none =>
      cases ho : (w.settle K).isOpen with
      | true =>
        obtain ⟨hp, hb, he⟩ := waits_for_source hrests hv.receiving hc ho
        obtain ⟨hall, hnone⟩ := hflow'.awaiting hv hc hp hb
        obtain ⟨v, hread⟩ := hv.read_of_open hc ho
        rw [hread]
        refine ⟨[], false, v, rfl, (List.append_nil seen).trans hall, ?_⟩
        rintro t (ht | ⟨-, he', -⟩)
        · cases hnone.symm.trans ht
        · cases he.symm.trans he'
      | false =>
        rw [hv.read_of_end hc ho]
        obtain ⟨hall, s, hs, hconcludes⟩ := hflow'.complete hv hc ho
        exact ⟨[], true, w.settle K, rfl, (List.append_nil seen).trans hall,
          fun t ht => ⟨rfl, ht.unique hconcludes ▸ hs⟩⟩

/-- A consumer that reads on gets all that a watch passes on, and then finds the end for what
it is, if there is one. -/
theorem readAll_changes (K : Kind α) (r : ApiResource) (items : List RawItem) (ended : Bool) :
    ∃ found w', (ofItems r items ended).readAll K =
        (Forwarded.changes K r items, found, w') ∧
      ∀ t, Forwarded.Concludes K r items ended t → found = true ∧ w'.termination = some t := by
  obtain ⟨cs, found, w', hread, hall, hcause⟩ := readFor_changes (items.length + 3)
    (.ofItems r items ended) (.ofItems K r items ended) (by simp)
  exact ⟨found, w', hall ▸ hread, hcause⟩

/-! ### Watches that end -/

/-- The watch passes on `cs` and ends for `t`, or for a stop: whatever happens, the consumer
reads no other changes and finds no other cause, and one that reads on gets them all and then
this end. -/
structure EndsFor (K : Kind α) (w : Watcher α) (cs : List (Change α)) (t : Termination) :
    Prop where
  delivered : ∀ as, w.changesRead K as <+: cs
  termination : ∀ as s, (w.run K as).termination = some s →
    s = t ∨ s = .stopped ∧ .beginStop ∈ as
  found : ∃ w', w.readAll K = (cs, true, w') ∧ w'.termination = some t

/-- An item that ends a watch does so whatever happens. -/
theorem endsFor_of_cause? {r : ApiResource} {items : List RawItem} {t : Termination}
    (h : Forwarded.cause? K r items = some t) (ended : Bool) :
    EndsFor K (ofItems r items ended) (Forwarded.changes K r items) t := by
  refine ⟨?_, ?_, ?_⟩
  · intro as
    have hflow := (flow_run K r items ended as).delivered
    rw [resource_run] at hflow
    change _ <+: Forwarded.changes K r _ at hflow
    rw [Forwarded.changes_append_of_some _ h] at hflow
    exact (List.prefix_append _ _).trans hflow
  · intro as s hs
    by_cases hstopped : s = .stopped
    · subst hstopped
      obtain ⟨m, hm, ha, -⟩ :=
        (stopped_iff_begun_first (Sound.ofItems r items ended) rfl as).mp hs
      rw [← map_act_history (K := K) as (ofItems r items ended)]
      exact .inr ⟨rfl, ha ▸ List.mem_map_of_mem hm⟩
    · obtain ⟨hconcludes, -⟩ := (flow_run K r items ended as).concluded s ⟨hstopped, .inl hs⟩
      rw [resource_run] at hconcludes
      have hsent := Forwarded.cause?_append K r ((ofItems r items ended).sent K as) items
      rw [h] at hsent
      exact .inl (hconcludes.unique (.inl hsent))
  · obtain ⟨found, w', hread, hend⟩ := readAll_changes K r items ended
    obtain ⟨rfl, ht⟩ := hend t (.inl h)
    exact ⟨w', hread, ht⟩

end Watcher
end ClusterKit
