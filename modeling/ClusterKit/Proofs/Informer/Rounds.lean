/-
# What a cache tells of the rounds

An informer makes round after round on a backend that answers as it likes: calls
fail, watches end at once or with a cause, lists differ each time. Whatever has
been met so far, the cache is the last list that went well with the changes read
behind it in that round, and it is empty before the first. A round that fails
before its list leaves all as it was, and no list is made without a watch.

Key definitions: `Running.Progress`, `Running.Course`.
Key theorems: `Running.Course.progress`, `Running.cache_is_the_last_list_with_its_changes`.
-/
import ClusterKit.Catalog.Custom
import ClusterKit.Informer.Script
import ClusterKit.Proofs.Cache.Replay
import ClusterKit.Proofs.Informer.Steps

namespace ClusterKit

variable {σ α ω : Type}

namespace Met

/-- The list that went well. -/
def list? : Met α ω → Option (ObjectList α)
  | .listed (.done (.ok l)) => some l
  | _ => none

/-- The change that was read. -/
def change? : Met α ω → Option (Change α)
  | .read c => some c
  | _ => none

theorem eq_of_list? {m : Met α ω} {l : ObjectList α} (h : m.list? = some l) :
    m = .listed (.done (.ok l)) := by
  unfold list? at h
  split at h
  · cases h
    rfl
  · cases h

theorem eq_of_change? {m : Met α ω} {c : Change α} (h : m.change? = some c) : m = .read c := by
  unfold change? at h
  split at h
  · cases h
    rfl
  · cases h

end Met

namespace Running

/-! ### What a step does -/

/-- What a step does to the informer, and what is met by it: nothing, an end or a new
beginning that nobody answers for, or one meeting that fits where the informer stands. -/
inductive Progress (K : Kind α) (i : Informer α) (log : List (Met α ω)) :
    Informer α → List (Met α ω) → Prop
  | still : Progress K i log i log
  | cancel : Progress K i log (i.act K .cancel) log
  | retry : Progress K i log (i.act K .rested) log
  | meets (m : Met α ω) (hp : i.phase = m.phase) : Progress K i log (i.act K m.act) (log ++ [m])

section

variable {K : Kind α} {L : ListWatch σ α ω} {cfg : Config} {others : σ → σ → Prop}
  {i i' : Informer α} {log log' : List (Met α ω)}

/-- What may be met, and is if there is something, makes progress. -/
theorem Progress.ofOption {m? : Option (Met α ω)} (h : ∀ m, m? = some m → i.phase = m.phase) :
    Progress K i log ((m?.map (i.act K ·.act)).getD i) (log ++ m?.toList) := by
  cases m? with
  | none =>
    rw [Option.toList_none, List.append_nil]
    exact .still
  | some m => exact .meets m (h m rfl)

variable (L cfg) (r : Running α ω) (s : σ) in
theorem phase_of_met {m : Met α ω}
    (h : r.watched? L cfg s = some m ∨ r.listed? L cfg s = some m ∨ r.heard? L s = some m) :
    r.informer.phase = m.phase := by
  rcases h with h | h | h
  · unfold watched? at h
    split at h
    · rename_i hp
      cases h
      exact hp
    · cases h
  · unfold listed? at h
    split at h
    · rename_i hp
      cases h
      exact hp
    · cases h
  · unfold heard? at h
    split at h
    · rename_i w hp hw
      split at h <;> cases h <;> exact hp
    · cases h

theorem Step.progress {x y : Running α ω × σ × List (Met α ω)}
    (h : Step K L.noted cfg (Met.Beside others) x y) :
    Progress K x.1.informer x.2.2 y.1.informer y.2.2 := by
  cases h with
  | others h => exact h.2 ▸ .still
  | pass t => exact .still
  | callOff => exact .still
  | @cancel r s =>
    rw [informer_act, act_noted]
    exact .cancel
  | @openWatch r s =>
    rw [openWatch_noted, informer_openWatch]
    exact .ofOption fun m hm => phase_of_met L cfg r s.1 (.inl hm)
  | @makeList r s =>
    rw [makeList_noted, informer_makeList]
    exact .ofOption fun m hm => phase_of_met L cfg r s.1 (.inr (.inl hm))
  | @pump r s =>
    rw [pump_noted, informer_pump]
    exact .still
  | @receive _ r s h =>
    rw [receive?_noted] at h
    obtain ⟨z, hz, rfl⟩ := Option.map_eq_some_iff.mp h
    rw [informer_receive? K L cfg r s.1 hz]
    exact .ofOption fun m hm => phase_of_met L cfg r s.1 (.inr (.inr hm))
  | @retry r s h =>
    rw [informer_act, act_noted]
    exact .retry

end

/-! ### The course of the rounds -/

/-- What has been met so far accounts for the informer: before any list has gone well the cache
is empty, and since the last one it is that list with the changes read behind it. Behind these
come only meetings that say nothing of objects, of which the first is the end of the watch. -/
inductive Course (K : Kind α) : List (Met α ω) → Informer α → Prop
  | before (hlists : ∀ m ∈ log, m.list? = none) (hcache : i.cache = .empty)
      (hsynced : i.synced = false) (hphase : i.phase ≠ .following) : Course K log i
  | since (a : List (Met α ω)) (l : ObjectList α) (cs : List (Change α)) (rest : List (Met α ω))
      (hquiet : ∀ m ∈ rest, m.list? = none ∧ m.change? = none)
      (hend : ∀ m ∈ rest.head?, ∃ t, m = .ended t)
      (hcache : i.cache = Cache.replay K cs (.replace K l.items)) (hsynced : i.synced = true)
      (hopen : i.phase = .following → rest = [])
      (hclosed : rest = [] → i.phase = .following ∨ i.phase = .finished) :
      Course K (a ++ .listed (.done (.ok l)) :: (cs.map .read ++ rest)) i

/-- What is said to the informer without an answer does not concern the cache. -/
theorem act_unanswered (K : Kind α) (i : Informer α) {a : Informer.Act α}
    (ha : a = .cancel ∨ a = .rested) :
    (i.act K a).cache = i.cache ∧ (i.act K a).synced = i.synced ∧
      ((i.act K a).phase = .following → i.phase = .following) ∧
      (i.phase = .following ∨ i.phase = .finished →
        (i.act K a).phase = .following ∨ (i.act K a).phase = .finished) := by
  obtain ⟨cache, synced, phase⟩ := i
  rcases ha with rfl | rfl <;> cases phase <;>
    simp [Informer.act, Informer.act?, Informer.enter]

/-- A meeting that says nothing of objects does not concern the cache. Nothing is followed
behind it, and a list is made only behind a watch that was opened. -/
theorem act_quiet (K : Kind α) {i : Informer α} {m : Met α ω} (hp : i.phase = m.phase)
    (hl : m.list? = none) (hc : m.change? = none) :
    (i.act K m.act).cache = i.cache ∧ (i.act K m.act).synced = i.synced ∧
      (i.act K m.act).phase ≠ .following ∧
      ((i.act K m.act).phase = .listing → ∃ w, m = .watched (.done (.ok w))) := by
  obtain ⟨cache, synced, phase⟩ := i
  obtain rfl : phase = m.phase := hp
  cases m with
  | watched x =>
    cases x with
    | done x => cases x <;> simp [Informer.act, Informer.act?, Informer.enter, Met.act, Met.phase]
    | never => simp [Informer.act, Informer.act?, Informer.enter, Met.act, Met.phase]
    | panic => simp [Informer.act, Informer.act?, Informer.enter, Met.act, Met.phase]
  | listed x =>
    cases x with
    | done x =>
      cases x with
      | error e => simp [Informer.act, Informer.act?, Informer.enter, Met.act, Met.phase]
      | ok l => cases hl
    | never => simp [Informer.act, Informer.act?, Informer.enter, Met.act, Met.phase]
    | panic => simp [Informer.act, Informer.act?, Informer.enter, Met.act, Met.phase]
  | read c => cases hc
  | ended t => simp [Informer.act, Informer.act?, Informer.enter, Met.act, Met.phase]

/-- A list that goes well is what the cache begins again with. -/
theorem act_list (K : Kind α) {i : Informer α} (hp : i.phase = .listing) (l : ObjectList α) :
    i.act K (.listed (.ok l)) = ⟨.replace K l.items, true, .following⟩ := by
  simp [Informer.act, Informer.act?, hp]

/-- A change that is read is applied. -/
theorem act_change (K : Kind α) {i : Informer α} (hp : i.phase = .following) (c : Change α) :
    i.act K (.received c) = { i with cache := i.cache.apply K c } := by
  simp [Informer.act, Informer.act?, hp]

namespace Course

variable {K : Kind α} {i i' : Informer α} {log log' : List (Met α ω)}

theorem fresh (K : Kind α) : Course K ([] : List (Met α ω)) .fresh :=
  .before (fun _ hm => (nomatch hm)) rfl rfl nofun

theorem unanswered (h : Course K log i) {a : Informer.Act α} (ha : a = .cancel ∨ a = .rested) :
    Course K log (i.act K a) := by
  obtain ⟨hcache', hsynced', hopen', hclosed'⟩ := act_unanswered K i ha
  cases h with
  | before hlists hcache hsynced hphase =>
    exact .before hlists (hcache'.trans hcache) (hsynced'.trans hsynced) (mt hopen' hphase)
  | since a l cs rest hquiet hend hcache hsynced hopen hclosed =>
    exact .since a l cs rest hquiet hend (hcache'.trans hcache) (hsynced'.trans hsynced)
      (fun h => hopen (hopen' h)) fun h => hclosed' (hclosed h)

/-- A meeting that says nothing of objects comes behind the changes of a round. -/
theorem quiet (h : Course K log i) {m : Met α ω} (hp : i.phase = m.phase) (hl : m.list? = none)
    (hc : m.change? = none) : Course K (log ++ [m]) (i.act K m.act) := by
  obtain ⟨hcache', hsynced', hphase', -⟩ := act_quiet K hp hl hc
  cases h with
  | before hlists hcache hsynced hphase =>
    refine .before ?_ (hcache'.trans hcache) (hsynced'.trans hsynced) hphase'
    intro n hn
    rcases List.mem_append.mp hn with hn | hn
    · exact hlists n hn
    · exact List.mem_singleton.mp hn ▸ hl
  | since a l cs rest hquiet hend hcache hsynced hopen hclosed =>
    rw [List.append_assoc, List.cons_append, List.append_assoc]
    refine .since a l cs (rest ++ [m]) ?_ ?_ (hcache'.trans hcache) (hsynced'.trans hsynced)
      (fun h => absurd h hphase') (by simp)
    · intro n hn
      rcases List.mem_append.mp hn with hn | hn
      · exact hquiet n hn
      · exact List.mem_singleton.mp hn ▸ ⟨hl, hc⟩
    · cases rest with
      | cons n rest => exact hend
      | nil =>
        -- nothing has come behind the changes yet, so that the watch was still followed
        intro n hn
        obtain rfl : m = n := Option.some.inj hn
        have hfollowing : m.phase = .following := by
          rcases hclosed rfl with h | h
          · exact hp.symm.trans h
          · cases m <;> cases hp.symm.trans h
        cases m with
        | ended t => exact ⟨t, rfl⟩
        | read c => cases hc
        | watched x => cases hfollowing
        | listed x => cases hfollowing

theorem progress (h : Course K log i) (hs : Progress K i log i' log') : Course K log' i' := by
  cases hs with
  | still => exact h
  | cancel => exact h.unanswered (.inl rfl)
  | retry => exact h.unanswered (.inr rfl)
  | meets m hp =>
    cases hl : m.list? with
    | some l =>
      obtain rfl := Met.eq_of_list? hl
      have hact : i.act K (Met.listed (.done (.ok l)) : Met α ω).act = _ := act_list K hp l
      rw [hact]
      exact .since log l [] [] (by simp) (by simp) rfl rfl (fun _ => rfl) fun _ => .inl rfl
    | none =>
      cases hc : m.change? with
      | none => exact h.quiet hp hl hc
      | some c =>
        obtain rfl := Met.eq_of_change? hc
        have hact : i.act K (Met.read c : Met α ω).act = _ := act_change K hp c
        rw [hact]
        cases h with
        | before hlists hcache hsynced hphase => exact absurd hp hphase
        | since a l cs rest hquiet hend hcache hsynced hopen hclosed =>
          obtain rfl := hopen hp
          have hlog : a ++ .listed (.done (.ok l)) :: (cs.map .read ++ []) ++ [.read c] =
              a ++ .listed (.done (.ok l)) :: ((cs ++ [c]).map Met.read ++ ([] : List (Met α ω))) := by
            simp
          rw [hlog]
          refine .since a l (cs ++ [c]) [] hquiet hend ?_ hsynced (fun _ => rfl) fun _ => .inl hp
          rw [Cache.replay_append, ← hcache]
          rfl

/-- Before the first list the cache is empty; since then it is the last list with the changes
read behind it. -/
theorem cache_eq (h : Course K log i) :
    (∀ m ∈ log, m.list? = none) ∧ i.cache = .empty ∨
    ∃ a l cs rest, log = a ++ .listed (.done (.ok l)) :: (cs.map .read ++ rest) ∧
      (∀ m ∈ rest, m.list? = none ∧ m.change? = none) ∧
      (∀ m ∈ rest.head?, ∃ t, m = .ended t) ∧
      i.cache = Cache.replay K cs (.replace K l.items) := by
  cases h with
  | before hlists hcache _ _ => exact .inl ⟨hlists, hcache⟩
  | since a l cs rest hquiet hend hcache _ _ _ =>
    exact .inr ⟨a, l, cs, rest, rfl, hquiet, hend, hcache⟩

theorem synced_iff (h : Course K log i) :
    i.synced = true ↔ ∃ m ∈ log, m.list? ≠ none := by
  cases h with
  | before hlists _ hsynced _ =>
    rw [hsynced]
    refine iff_of_false Bool.false_ne_true ?_
    rintro ⟨m, hm, hl⟩
    exact hl (hlists m hm)
  | since a l cs rest _ _ _ hsynced _ _ =>
    exact iff_of_true hsynced ⟨.listed (.done (.ok l)), by simp, nofun⟩

end Course

/-! ### No list without a watch -/

/-- Each call to list comes right behind a watch that was opened. -/
structure Paired (log : List (Met α ω)) (i : Informer α) : Prop where
  listing : i.phase = .listing → ∃ a w, log = a ++ [.watched (.done (.ok w))]
  listed : ∀ a z b, log = a ++ .listed z :: b → ∃ a' w, a = a' ++ [.watched (.done (.ok w))]

section

variable {K : Kind α} {i i' : Informer α} {log log' : List (Met α ω)}

/-- Only a watch that was opened is followed by a list. -/
theorem eq_of_act_listing {m : Met α ω} (hp : i.phase = m.phase)
    (h : (i.act K m.act).phase = .listing) : ∃ w, m = .watched (.done (.ok w)) := by
  cases hl : m.list? with
  | some l =>
    obtain rfl := Met.eq_of_list? hl
    have hact : i.act K (Met.listed (.done (.ok l)) : Met α ω).act = _ := act_list K hp l
    rw [hact] at h
    cases h
  | none =>
    cases hc : m.change? with
    | none => exact (act_quiet K hp hl hc).2.2.2 h
    | some c =>
      obtain rfl := Met.eq_of_change? hc
      have hact : i.act K (Met.read c : Met α ω).act = _ := act_change K hp c
      rw [hact] at h
      cases hp.symm.trans h

theorem listing_of_unanswered {a : Informer.Act α} (ha : a = .cancel ∨ a = .rested)
    (h : (i.act K a).phase = .listing) : i.phase = .listing := by
  obtain ⟨cache, synced, phase⟩ := i
  rcases ha with rfl | rfl <;> cases phase <;>
    simp [Informer.act, Informer.act?, Informer.enter] at h ⊢

theorem Paired.progress (h : Paired log i) (hs : Progress K i log i' log') : Paired log' i' := by
  cases hs with
  | still => exact h
  | cancel => exact ⟨fun hp => h.listing (listing_of_unanswered (.inl rfl) hp), h.listed⟩
  | retry => exact ⟨fun hp => h.listing (listing_of_unanswered (.inr rfl) hp), h.listed⟩
  | meets m hp =>
    refine ⟨?_, ?_⟩
    · intro hlisting
      obtain ⟨w, rfl⟩ := eq_of_act_listing hp hlisting
      exact ⟨log, w, rfl⟩
    · intro a z b hlog
      rcases List.eq_nil_or_concat b with rfl | ⟨b', n, rfl⟩
      · -- the list is what has just been met
        obtain ⟨rfl, hm⟩ := List.append_inj' hlog rfl
        obtain rfl : m = .listed z := List.singleton_inj.mp hm
        exact h.listing hp
      · rw [List.concat_eq_append, ← List.cons_append, ← List.append_assoc] at hlog
        exact h.listed a z b' (List.append_inj' hlog rfl).1

/-! ### Steps one after the other -/

/-- What has been met stays so, and so does that a list has got to the cache. -/
theorem Progress.grows (h : Progress K i log i' log') :
    log <+: log' ∧ (i.synced = true → i'.synced = true) := by
  cases h with
  | still => exact ⟨List.prefix_rfl, id⟩
  | cancel => exact ⟨List.prefix_rfl, fun hs => (act_unanswered K i (.inl rfl)).2.1.trans hs⟩
  | retry => exact ⟨List.prefix_rfl, fun hs => (act_unanswered K i (.inr rfl)).2.1.trans hs⟩
  | meets m hp =>
    refine ⟨List.prefix_append _ _, fun hs => ?_⟩
    cases hl : m.list? with
    | some l =>
      obtain rfl := Met.eq_of_list? hl
      have hact : i.act K (Met.listed (.done (.ok l)) : Met α ω).act = _ := act_list K hp l
      rw [hact]
    | none =>
      cases hc : m.change? with
      | none => exact (act_quiet K hp hl hc).2.1.trans hs
      | some c =>
        obtain rfl := Met.eq_of_change? hc
        have hact : i.act K (Met.read c : Met α ω).act = _ := act_change K hp c
        rw [hact]
        exact hs

/-- A meeting that says nothing of objects leaves the cache as it is. -/
theorem Progress.cache_of_quiet {m : Met α ω} (h : Progress K i log i' log')
    (hlog : log' = log ++ [m]) (hl : m.list? = none) (hc : m.change? = none) :
    i'.cache = i.cache ∧ i'.synced = i.synced := by
  cases h with
  | still => simp at hlog
  | cancel => simp at hlog
  | retry => simp at hlog
  | meets n hp =>
    obtain rfl : n = m := List.singleton_inj.mp (List.append_cancel_left hlog)
    exact ⟨(act_quiet K hp hl hc).1, (act_quiet K hp hl hc).2.1⟩

end

section

variable {K : Kind α} {L : ListWatch σ α ω} {cfg : Config} {others : σ → σ → Prop}
  {x y : Running α ω × σ × List (Met α ω)}

theorem course_of_steps (h : Steps K L.noted cfg (Met.Beside others) x y)
    (hx : Course K x.2.2 x.1.informer ∧ Paired x.2.2 x.1.informer) :
    Course K y.2.2 y.1.informer ∧ Paired y.2.2 y.1.informer := by
  induction h with
  | refl => exact hx
  | tail _ hs ih => exact ⟨ih.1.progress hs.progress, ih.2.progress hs.progress⟩

theorem grows_of_steps (h : Steps K L.noted cfg (Met.Beside others) x y) :
    x.2.2 <+: y.2.2 ∧ (x.1.informer.synced = true → y.1.informer.synced = true) := by
  induction h with
  | refl => exact ⟨List.prefix_rfl, id⟩
  | tail _ hs ih =>
    obtain ⟨hlog, hsynced⟩ := hs.progress.grows
    exact ⟨ih.1.trans hlog, hsynced ∘ ih.2⟩

end

/-- **A cache is the last list with its changes.** However the calls of an informer are
answered and its watches end, after any number of steps: the cache is empty before the first list
that goes well, and from then on it is the last such list, of whose objects with one reference
the last counts, with the changes read behind it in that round; calls that fail, watches that end
and rounds that are stopped leave it alone; no list is made but right behind a watch that was
opened; and the informer has synced just if a list has gone well, which it does not forget. -/
theorem cache_is_the_last_list_with_its_changes (K : Kind α) (L : ListWatch σ α ω) (cfg : Config)
    (others : σ → σ → Prop) (clock : Span) (s : σ) (x : Running α ω × σ × List (Met α ω))
    (h : Steps K L.noted cfg (Met.Beside others) (.start clock, s, []) x) :
    ((∀ m ∈ x.2.2, m.list? = none) ∧ x.1.informer.cache = .empty ∨
      ∃ a l cs rest, x.2.2 = a ++ .listed (.done (.ok l)) :: (cs.map .read ++ rest) ∧
        (∀ m ∈ rest, m.list? = none ∧ m.change? = none) ∧
        (∀ m ∈ rest.head?, ∃ t, m = .ended t) ∧
        x.1.informer.cache = Cache.replay K cs (.replace K l.items)) ∧
    (∀ objs ref, (Cache.replace K objs).entries.get? ref =
      (objs.filter fun o => Cache.refOf K o = ref).getLast?) ∧
    (∀ y m, Step K L.noted cfg (Met.Beside others) x y → y.2.2 = x.2.2 ++ [m] →
      m.list? = none → m.change? = none →
      y.1.informer.cache = x.1.informer.cache ∧ y.1.informer.synced = x.1.informer.synced) ∧
    (∀ a z b, x.2.2 = a ++ .listed z :: b → ∃ a' w, a = a' ++ [.watched (.done (.ok w))]) ∧
    (x.1.informer.synced = true ↔ ∃ m ∈ x.2.2, m.list? ≠ none) ∧
    (∀ y, Steps K L.noted cfg (Met.Beside others) x y →
      x.2.2 <+: y.2.2 ∧ (x.1.informer.synced = true → y.1.informer.synced = true)) := by
  obtain ⟨hcourse, hpaired⟩ := course_of_steps h ⟨.fresh K, ⟨nofun, by simp⟩⟩
  exact ⟨hcourse.cache_eq, Cache.get?_replace_eq_getLast? K,
    fun y m hs hlog hl hc => hs.progress.cache_of_quiet hlog hl hc, hpaired.listed,
    hcourse.synced_iff, fun y hy => grows_of_steps hy⟩

/-- An informer whose first watch fails rests for a second, and then lists one knife and reads
of another: no list is made in the first round, and both knives are cached after the second. -/
theorem knives_of_the_second_round :
    let r : ApiResource := ⟨"test.kubegen.dev", "v1", "Knife", "knives"⟩
    let L : ListWatch (Script Knife) Knife Nat := .ofScript Knife.asKind
    let script : Script Knife := ⟨r, [.items [⟨.named "a", []⟩]],
      [.error (.unhandled "watch" "knives"),
        .stream [.ok (.added ⟨none, .named "b", .fields [("edges", .list [])]⟩)] false], [], []⟩
    let x := (start ⟨0⟩).advance Knife.asKind L.noted .standard ⟨1000⟩ (script, [])
    Steps Knife.asKind L.noted .standard (Met.Beside fun _ _ => False) (start ⟨0⟩, script, []) x ∧
    x.1.informer.synced = true ∧ (∃ m ∈ x.2.2, m.list? ≠ none) ∧
    x.1.informer.cache.toList.map (·.metadata.name) = [some "a", some "b"] ∧
    (∀ a z b, x.2.2 = a ++ .listed z :: b → ∃ a' w, a = a' ++ [.watched (.done (.ok w))]) := by
  intro r L script x
  have hsteps : Steps Knife.asKind L.noted .standard (Met.Beside fun _ _ => False)
      (start ⟨0⟩, script, []) x := Steps.advance .refl _
  obtain ⟨-, -, -, hpaired, hsynced, -⟩ := cache_is_the_last_list_with_its_changes Knife.asKind L
    .standard (fun _ _ => False) ⟨0⟩ script x hsteps
  have hdone : x.1.informer.synced = true := by decide +kernel
  exact ⟨hsteps, hdone, hsynced.mp hdone, by decide +kernel, hpaired⟩

end Running
end ClusterKit
