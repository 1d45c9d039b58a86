/-
# Tokens of a beginning

The tokens of a text are those of its beginning, less what the end of the beginning
cuts, and then those of the rest from where the machine stands. Where the beginning
ends inside of a token, its end cuts one token in place of the one that the whole
text has there. A text that is not given up for lost has no fatal token, and then the
two are alike: both a text, a word or a number, the first one broken off, or a number
that is shorter.

Key definitions: `Token.Mode.run`, `Token.Fatal`, `Token.splitsNumber`, `Token.Cut`.
Key theorems: `Token.scanFrom_append`, `Token.cut_of_inside`.
-/
import ClusterKit.Proofs.Json.Number

namespace ClusterKit
namespace Json

/-- Whether a character may stand between tokens without being one. -/
def IsBlank (c : Char) : Prop :=
  c = ' ' ∨ c = '\n' ∨ c = '\t' ∨ c = '\r'

instance (c : Char) : Decidable (IsBlank c) :=
  inferInstanceAs (Decidable (_ ∨ _))

namespace Token

/-! ### The tokens of a beginning -/

/-- The tokens that characters cut, and the mode behind them. -/
def Mode.run (m : Mode) : List Char → List Token × Mode
  | [] => ([], m)
  | c :: cs => ((m.step c).1 ++ (run (m.step c).2 cs).1, (run (m.step c).2 cs).2)

theorem scanFrom_append (m : Mode) (p q : List Char) :
    scanFrom m (p ++ q) = (m.run p).1 ++ scanFrom (m.run p).2 q := by
  induction p generalizing m with
  | nil => rfl
  | cons c p ih => rw [List.cons_append, scanFrom, ih, Mode.run, List.append_assoc]

theorem scanFrom_eq (m : Mode) (p : List Char) :
    scanFrom m p = (m.run p).1 ++ (m.run p).2.finish := by
  have h := scanFrom_append m p []
  rwa [List.append_nil] at h

/-- No reader gets past the token. -/
def Fatal : Token → Prop
  | .broken _ _ (some _) => True
  | _ => False

/-- Whether the text `p` ends in a part of a number that goes on in `q` and has no value so far:
in a sign, a point or an exponent without its digits, or beyond all doubles. -/
def splitsNumber (p q : List Char) : Bool :=
  match (Mode.between.run p).2, q.head? with
  | .number n, some c => (n.push? c).isSome && !(n.complete && n.value?.isSome)
  | _, _ => false

/-! ### Modes that are reached -/

namespace Mode

/-- Inside of a token, as far as one gets. -/
inductive Inside : Mode → Prop
  | text (t : TextState) : Inside (.text t)
  | number {n : NumberState} (h : n.Sound) : Inside (.number n)
  | word {v : Scalar} (d : Char) (ds : List Char) (hv : v = .null ∨ ∃ b, v = .bool b) :
      Inside (.word (d :: ds) v)

/-- Tokens and the mode behind them as they come: nothing is cut behind a fatal token only. -/
def Sound (r : List Token × Mode) : Prop :=
  r.2 = .between ∨ r.2.Inside ∨ r.2 = .stopped ∧ ∃ t ∈ r.1, t.Fatal

/-- What a character between tokens can be: a blank, or else a mark, the beginning of a token,
or nothing that may stand there. -/
theorem start_cases (c : Char) :
    IsBlank c ∧ start c = ([], .between) ∨
      ¬ IsBlank c ∧ (start c = ([.mark c], .between) ∨
        (∃ m, start c = ([], m) ∧ m.Inside) ∨ start c = ([dead .malformed], .stopped)) := by
  by_cases hc : IsBlank c
  · exact .inl ⟨hc, if_pos hc⟩
  · refine .inr ⟨hc, ?_⟩
    unfold start
    split
    · exact absurd ‹_› hc
    split
    · exact .inl rfl
    · refine .inr ?_
      split
      · exact .inl ⟨_, rfl, .text _⟩
      split
      · exact .inl ⟨_, rfl, .number (NumberState.sound_init true)⟩
      split
      · exact .inl ⟨_, rfl, .word _ _ (.inl rfl)⟩
      split
      · exact .inl ⟨_, rfl, .word _ _ (.inr ⟨true, rfl⟩)⟩
      split
      · exact .inl ⟨_, rfl, .word _ _ (.inr ⟨false, rfl⟩)⟩
      split
      · rename_i hpush
        exact .inl ⟨_, rfl, .number ((NumberState.sound_init false).push hpush)⟩
      · exact .inr rfl

/-- What a character inside of a text can do. -/
theorem stepText_cases (t : TextState) (c : Char) :
    (∃ t', stepText t c = ([], .text t') ∧ (t.lone = true → t'.lone = true)) ∨
      stepText t c = ([t.token], .between) ∨
      stepText t c = ([t.refused .malformed], .stopped) := by
  have hpush : ∀ d, t.lone = true → (t.push d).lone = true := by
    intro d h
    simp [TextState.push, TextState.settle, h]
  have hunit : ∀ u, t.lone = true → (t.pushUnit u).lone = true := by
    intro u h
    unfold TextState.pushUnit
    grind
  unfold stepText
  grind

theorem sound_start (c : Char) : Sound (start c) := by
  rcases start_cases c with ⟨-, h⟩ | ⟨-, h | ⟨m, h, hm⟩ | h⟩
  · exact .inl (by rw [h])
  · exact .inl (by rw [h])
  · exact .inr (.inl (by rwa [h]))
  · exact .inr (.inr (by rw [h]; exact ⟨rfl, _, List.mem_singleton_self _, trivial⟩))

theorem Sound.append {r : List Token × Mode} (h : Sound r) (ts : List Token) :
    Sound (ts ++ r.1, r.2) := by
  rcases h with h | h | ⟨h, u, hu, hfatal⟩
  · exact .inl h
  · exact .inr (.inl h)
  · exact .inr (.inr ⟨h, u, List.mem_append_right _ hu, hfatal⟩)

theorem sound_stopped {t : Token} (h : t.Fatal) : Sound ([t], .stopped) :=
  .inr (.inr ⟨rfl, t, List.mem_singleton_self t, h⟩)

theorem Inside.sound_step {m : Mode} (h : m.Inside) (c : Char) : Sound (m.step c) := by
  cases h with
  | text t =>
    rcases stepText_cases t c with ⟨t', h, -⟩ | h | h
    · exact .inr (.inl (by rw [step, h]; exact .text t'))
    · exact .inl (by rw [step, h])
    · rw [step, h]
      exact sound_stopped trivial
  | number hn =>
    rw [step]
    split
    · exact .inr (.inl (.number (hn.push ‹_›)))
    · split
      · exact sound_stopped trivial
      · exact (sound_start c).append [_]
  | word d ds hv =>
    rw [step]
    split
    · exact sound_stopped trivial
    · split
      · exact .inl rfl
      · cases ds with
        | nil => exact absurd rfl ‹_›
        | cons d' ds => exact .inr (.inl (.word d' ds hv))

theorem run_stopped (p : List Char) : stopped.run p = ([], .stopped) := by
  induction p with
  | nil => rfl
  | cons c p ih => rw [run, step, ih]; rfl

theorem sound_run {m : Mode} (h : m = .between ∨ m.Inside) (p : List Char) : Sound (m.run p) := by
  induction p generalizing m with
  | nil => exact h.elim .inl fun hm => .inr (.inl hm)
  | cons c p ih =>
    have hstep : Sound (m.step c) := by
      rcases h with rfl | h
      · exact sound_start c
      · exact h.sound_step c
    rw [run]
    rcases hstep with hm | hm | ⟨hm, t, ht, hfatal⟩
    · exact (ih (.inl hm)).append _
    · exact (ih (.inr hm)).append _
    · rw [hm, run_stopped]
      exact .inr (.inr ⟨rfl, t, List.mem_append_left _ ht, hfatal⟩)

end Mode

/-! ### What the end of a beginning cuts -/

/-- What the end of a beginning cuts in place of a token. -/
inductive Cut : Token → Token → Prop
  | text (s : String) : Cut (.broken true .truncated (some .truncated)) (.scalar (.text s))
  | lone {e : ReadError} (he : e = .truncated ∨ e = .malformed) :
      Cut (.broken true e (some .truncated)) (.broken true .malformed none)
  | word {v : Scalar} (hv : v = .null ∨ ∃ b, v = .bool b) :
      Cut (.broken false .truncated (some .truncated)) (.scalar v)
  | number {m n : Number} (h : m.Before n) : Cut (.scalar (.number m)) (.scalar (.number n))
  | overflow (m : Number) : Cut (.scalar (.number m)) (.broken false .malformed none)
  | overflown : Cut (.broken false .malformed none) (.broken false .malformed none)

/-- No token is fatal. -/
def Alive (ts : List Token) : Prop :=
  ∀ t ∈ ts, ¬ t.Fatal

theorem not_alive_cons {b : Bool} {v e : ReadError} {ts : List Token} :
    ¬ Alive (.broken b v (some e) :: ts) :=
  fun h => h _ List.mem_cons_self trivial

theorem TextState.cut_token (t : TextState) : Cut (t.refused .truncated) t.token := by
  unfold refused token settle
  cases t.lone with
  | true => exact .lone (.inr rfl)
  | false =>
    cases t.high with
    | none => exact .text _
    | some h => exact .lone (.inl rfl)

/-- A text that has come further is cut in the same place. -/
theorem TextState.cut_of_lone {t t' : TextState} (h : t.lone = true → t'.lone = true) {y : Token}
    (hy : Cut (t'.refused .truncated) y) : Cut (t.refused .truncated) y := by
  unfold refused at hy ⊢
  cases ht' : t'.lone with
  | true =>
    rw [ht'] at hy
    cases hy with
    | lone he => exact .lone (by cases t.lone <;> simp)
  | false =>
    cases ht : t.lone with
    | true => exact absurd (h ht) (by rw [ht']; exact Bool.false_ne_true)
    | false => rwa [ht'] at hy

theorem scanFrom_text {q : List Char} : ∀ {t : TextState}, Alive (scanFrom (.text t) q) →
    ∃ y us, scanFrom (.text t) q = y :: us ∧ Cut (t.refused .truncated) y := by
  induction q with
  | nil => exact fun h => absurd h not_alive_cons
  | cons c q ih =>
    intro t h
    rw [scanFrom, Mode.step] at h ⊢
    rcases Mode.stepText_cases t c with ⟨t', hstep, hlone⟩ | hstep | hstep
    · rw [hstep] at h ⊢
      obtain ⟨y, us, hscan, hcut⟩ := ih h
      exact ⟨y, us, hscan, TextState.cut_of_lone hlone hcut⟩
    · rw [hstep]
      exact ⟨t.token, _, rfl, t.cut_token⟩
    · rw [hstep] at h
      exact absurd h not_alive_cons

theorem scanFrom_word {q : List Char} {v : Scalar} : ∀ {d : Char} {ds : List Char},
    Alive (scanFrom (.word (d :: ds) v) q) →
    ∃ us, scanFrom (.word (d :: ds) v) q = .scalar v :: us := by
  induction q with
  | nil => exact fun h => absurd h not_alive_cons
  | cons c q ih =>
    intro d ds h
    rw [scanFrom, Mode.step] at h ⊢
    split at h
    · exact absurd h not_alive_cons
    · rename_i hc
      rw [if_neg hc]
      cases ds with
      | nil => exact ⟨_, rfl⟩
      | cons d' ds => exact ih h

theorem scanFrom_number {q : List Char} : ∀ {n : NumberState},
    Alive (scanFrom (.number n) q) →
    ∃ n' us, scanFrom (.number n) q = n'.token :: us ∧ n.Leads n' ∧ n'.complete = true ∧
      (n' = n ∨ ∃ c, q.head? = some c ∧ (n.push? c).isSome = true) := by
  induction q with
  | nil =>
    intro n h
    rw [scanFrom, Mode.finish] at h ⊢
    split at h
    · rename_i hn
      rw [if_pos hn]
      exact ⟨n, [], rfl, .refl n, hn, .inl rfl⟩
    · exact absurd h not_alive_cons
  | cons c q ih =>
    intro n h
    rw [scanFrom, Mode.step] at h ⊢
    cases hpush : n.push? c with
    | some m =>
      rw [hpush] at h
      obtain ⟨n', us, hscan, hleads, hn', -⟩ := ih h
      exact ⟨n', us, hscan, .push hpush hleads, hn', .inr ⟨c, rfl, by rw [hpush]; rfl⟩⟩
    | none =>
      rw [hpush] at h
      dsimp only at h ⊢
      split at h
      · exact absurd h not_alive_cons
      · rename_i hn
        rw [if_neg hn]
        have hcomplete : n.complete = true := by
          by_contra hc
          exact hn (.inr (by rw [Bool.eq_false_iff.mpr hc]; rfl))
        exact ⟨n, _, rfl, .refl n, hcomplete, .inl rfl⟩

/-- Where a beginning ends inside of a token, its end cuts one that is like the whole one. -/
theorem cut_of_inside {m : Mode} (hm : m.Inside) {q : List Char} (h : Alive (scanFrom m q))
    (hq : ∀ n c, m = .number n → q.head? = some c → (n.push? c).isSome = true →
      n.complete = true ∧ n.value?.isSome = true) :
    ∃ x y us, m.finish = [x] ∧ scanFrom m q = y :: us ∧ Cut x y := by
  cases hm with
  | text t =>
    obtain ⟨y, us, hscan, hcut⟩ := scanFrom_text h
    exact ⟨_, y, us, rfl, hscan, hcut⟩
  | word d ds hv =>
    obtain ⟨us, hscan⟩ := scanFrom_word h
    exact ⟨_, _, us, rfl, hscan, .word hv⟩
  | @number n hn =>
    obtain ⟨n', us, hscan, hleads, hn', hsame⟩ := scanFrom_number h
    rcases hsame with rfl | ⟨c, hc, hpush⟩
    · refine ⟨n'.token, n'.token, us, if_pos hn', hscan, ?_⟩
      unfold NumberState.token
      cases n'.value? with
      | none => exact .overflown
      | some v => exact .number (Number.before_refl v)
    · obtain ⟨hcomplete, hvalue⟩ := hq n c rfl hc hpush
      obtain ⟨v, hv⟩ := Option.isSome_iff_exists.mp hvalue
      refine ⟨n.token, n'.token, us, if_pos hcomplete, hscan, ?_⟩
      unfold NumberState.token
      rw [hv]
      cases hv' : n'.value? with
      | none => exact .overflow v
      | some v' => exact .number (hleads.before hn hcomplete hv hv')

/-! ### Blanks -/

/-- Nothing but blanks. -/
def Blank (cs : List Char) : Prop :=
  ∀ c ∈ cs, IsBlank c

instance (cs : List Char) : Decidable (Blank cs) :=
  inferInstanceAs (Decidable (∀ c ∈ cs, IsBlank c))

/-- What has begun leaves a token. -/
theorem scanFrom_ne_nil {m : Mode} (hm : m.Inside) (q : List Char) : scanFrom m q ≠ [] := by
  intro hnil
  have hcons : ∃ y us, scanFrom m q = y :: us := by
    have halive : Alive (scanFrom m q) := by
      rw [hnil]
      exact List.forall_mem_nil _
    cases hm with
    | text t =>
      obtain ⟨y, us, hscan, -⟩ := scanFrom_text halive
      exact ⟨y, us, hscan⟩
    | number hn =>
      obtain ⟨_, us, hscan, -⟩ := scanFrom_number halive
      exact ⟨_, us, hscan⟩
    | word d ds hv => exact ⟨_, scanFrom_word halive⟩
  obtain ⟨y, us, hscan⟩ := hcons
  rw [hnil] at hscan
  cases hscan

/-- Only blanks are no tokens. -/
theorem blank_of_scan {q : List Char} (h : scan q = []) : Blank q := by
  induction q with
  | nil => exact List.forall_mem_nil _
  | cons c q ih =>
    obtain ⟨hstart, hrest⟩ := List.append_eq_nil_iff.mp (show (Mode.start c).1 ++ _ = [] from h)
    rcases Mode.start_cases c with ⟨hc, hmode⟩ | ⟨-, hmode | ⟨m, hmode, hm⟩ | hmode⟩
    · rw [show Mode.step .between c = Mode.start c from rfl, hmode] at hrest
      exact List.forall_mem_cons.mpr ⟨hc, ih hrest⟩
    · rw [hmode] at hstart
      cases hstart
    · rw [show Mode.step .between c = Mode.start c from rfl, hmode] at hrest
      exact absurd hrest (scanFrom_ne_nil hm q)
    · rw [hmode] at hstart
      cases hstart

theorem mark_not_mem_finish (m : Mode) (d : Char) : .mark d ∉ m.finish := by
  unfold Mode.finish TextState.refused NumberState.token Mode.dead
  grind

theorem mark_not_mem_step {c : Char} (hc : IsBlank c) (m : Mode) (d : Char) :
    .mark d ∉ (m.step c).1 := by
  have hstart : Mode.start c = ([], .between) := if_pos hc
  cases m with
  | between => simp [Mode.step, hstart]
  | text t =>
    unfold Mode.step
    rcases Mode.stepText_cases t c with ⟨t', h, -⟩ | h | h
    · simp [h]
    · simp only [h, TextState.token]
      grind
    · simp [h, TextState.refused]
  | number n =>
    simp only [Mode.step, hstart, NumberState.token, Mode.dead]
    grind
  | word ds v =>
    cases ds with
    | nil => simp [Mode.step, hstart]
    | cons e ds =>
      simp only [Mode.step, Mode.dead]
      grind
  | stopped => simp [Mode.step]

/-- Blanks cut no marks. -/
theorem mark_not_mem_of_blank {q : List Char} (hq : Blank q) (m : Mode) (d : Char) :
    .mark d ∉ scanFrom m q := by
  induction q generalizing m with
  | nil => exact mark_not_mem_finish m d
  | cons c q ih =>
    obtain ⟨hc, hq⟩ := List.forall_mem_cons.mp hq
    rw [scanFrom, List.mem_append, not_or]
    exact ⟨mark_not_mem_step hc m d, ih hq _⟩

end Token
end Json
end ClusterKit
