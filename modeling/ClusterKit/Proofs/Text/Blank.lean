/-
# Blanks around text

A text without blanks is what trimming leaves of it when it stands between
blanks, and it is the first word of any text that it begins, if a blank or the
end follows. Both ways of reading are undone by saying where the blanks are.

Key definitions: `Text.AllBlank`, `Text.Solid`, `Text.Padded`.
Key theorems: `Text.padded_trim`, `Text.Padded.trim_eq`, `Text.trim_append_cons`,
`Text.words_eq_pair_iff`.
-/
import ClusterKit.Text.Blank
import Mathlib.Data.List.Induction
import Mathlib.Data.List.TakeWhile

namespace ClusterKit
namespace Text

/-- Every character of `cs` is blank. -/
def AllBlank (cs : List Char) : Prop :=
  ∀ c ∈ cs, isBlank c = true

/-- No character of `cs` is blank. -/
def Solid (cs : List Char) : Prop :=
  ∀ c ∈ cs, isBlank c = false

/-- `p` is `cs` between blanks. -/
def Padded (p cs : List Char) : Prop :=
  ∃ before after, AllBlank before ∧ AllBlank after ∧ p = before ++ cs ++ after

variable {before after p q cs w rest : List Char} {c : Char} {ws : List (List Char)}

/-! ### Characters -/

/-- The codes of letters and digits. -/
theorem isAlphanum_iff_toNat : c.isAlphanum = true ↔
    (0x61 ≤ c.toNat ∧ c.toNat ≤ 0x7A) ∨ (0x41 ≤ c.toNat ∧ c.toNat ≤ 0x5A) ∨
      (0x30 ≤ c.toNat ∧ c.toNat ≤ 0x39) := by
  have hval : c.toNat = c.val.toNat := rfl
  delta Char.isAlphanum Char.isAlpha Char.isUpper Char.isLower Char.isDigit
  simp only [Bool.or_eq_true, Bool.and_eq_true, decide_eq_true_eq, ge_iff_le,
    UInt32.le_iff_toNat_le, Char.reduceVal, UInt32.reduceToNat]
  omega

/-- No visible character of ASCII is blank. -/
theorem isBlank_of_visible (hlow : 0x21 ≤ c.toNat) (hhigh : c.toNat ≤ 0x7E) :
    isBlank c = false := by
  have hranges : ∀ r ∈ blankRanges, r.2 < 0x21 ∨ 0x7E < r.1 := by decide
  rw [isBlank, List.any_eq_false]
  intro r hr
  have hapart := hranges r hr
  simp only [Bool.and_eq_true, decide_eq_true_eq]
  omega

theorem isBlank_of_isDigit (h : c.isDigit = true) : isBlank c = false := by
  obtain ⟨hlow, hhigh⟩ := Char.isDigit_iff_toNat.mp h
  exact isBlank_of_visible (Nat.le_trans (by decide) hlow) (Nat.le_trans hhigh (by decide))

theorem allBlank_nil : AllBlank [] := fun _ h => nomatch h

theorem AllBlank.append (hp : AllBlank p) (hq : AllBlank q) : AllBlank (p ++ q) := by
  intro c hc
  rcases List.mem_append.mp hc with hc | hc
  · exact hp c hc
  · exact hq c hc

/-! ### Trimming -/

theorem trimStart_append_of_blank (h : AllBlank before) (cs : List Char) :
    trimStart (before ++ cs) = trimStart cs :=
  List.dropWhile_append_of_pos h

theorem trimStart_cons (hc : isBlank c = false) (cs : List Char) :
    trimStart (c :: cs) = c :: cs :=
  List.dropWhile_cons_of_neg (by simp [hc])

theorem trimStart_of_solid (h : Solid cs) : trimStart cs = cs := by
  cases cs with
  | nil => rfl
  | cons c cs => exact trimStart_cons (h c List.mem_cons_self) cs

/-- What is dropped at the start is blank. -/
theorem exists_trimStart (cs : List Char) :
    ∃ before, AllBlank before ∧ cs = before ++ trimStart cs :=
  ⟨cs.takeWhile isBlank, fun _ hc => List.mem_takeWhile_imp hc,
    List.takeWhile_append_dropWhile.symm⟩

theorem trimEnd_eq (cs : List Char) : trimEnd cs = (trimStart cs.reverse).reverse := rfl

theorem trimEnd_append_of_blank (h : AllBlank after) (cs : List Char) :
    trimEnd (cs ++ after) = trimEnd cs := by
  have hreverse : AllBlank after.reverse := fun c hc => h c (List.mem_reverse.mp hc)
  rw [trimEnd_eq, List.reverse_append, trimStart_append_of_blank hreverse, ← trimEnd_eq]

/-- What is dropped at the end is blank. -/
theorem exists_trimEnd (cs : List Char) :
    ∃ after, AllBlank after ∧ cs = trimEnd cs ++ after := by
  obtain ⟨before, hblank, heq⟩ := exists_trimStart cs.reverse
  refine ⟨before.reverse, fun c hc => hblank c (List.mem_reverse.mp hc), ?_⟩
  rw [trimEnd_eq, ← List.reverse_append, ← heq, List.reverse_reverse]

/-- Trimming drops nothing but blanks. -/
theorem padded_trim (cs : List Char) : Padded cs (trim cs) := by
  obtain ⟨before, hbefore, hstart⟩ := exists_trimStart cs
  obtain ⟨after, hafter, hend⟩ := exists_trimEnd (trimStart cs)
  refine ⟨before, after, hbefore, hafter, ?_⟩
  rw [List.append_assoc, trim, ← hend, ← hstart]

/-- A character that is no blank stays, and so does what stands behind it. -/
theorem trimStart_append_cons (hc : isBlank c = false) (p q : List Char) :
    trimStart (p ++ c :: q) = trimStart p ++ c :: q := by
  unfold trimStart
  rw [List.dropWhile_append]
  cases h : p.dropWhile isBlank with
  | nil => exact trimStart_cons hc q
  | cons d ds => rfl

theorem trimEnd_append_cons (hc : isBlank c = false) (p q : List Char) :
    trimEnd (p ++ c :: q) = p ++ c :: trimEnd q := by
  have hreverse : (p ++ c :: q).reverse = q.reverse ++ c :: p.reverse := by simp
  rw [trimEnd_eq, hreverse, trimStart_append_cons hc, trimEnd_eq]
  simp

theorem trim_append_cons (hc : isBlank c = false) (p q : List Char) :
    trim (p ++ c :: q) = trimStart p ++ c :: trimEnd q := by
  rw [trim, trimStart_append_cons hc, trimEnd_append_cons hc]

theorem trim_eq_nil_iff : trim cs = [] ↔ AllBlank cs := by
  constructor
  · intro h
    obtain ⟨before, after, hbefore, hafter, heq⟩ := padded_trim cs
    rw [h, List.append_nil] at heq
    rw [heq]
    exact hbefore.append hafter
  · intro h
    have hstart := trimStart_append_of_blank h []
    rw [List.append_nil] at hstart
    rw [trim, hstart]
    rfl

namespace Padded

theorem refl (cs : List Char) : Padded cs cs :=
  ⟨[], [], allBlank_nil, allBlank_nil, (List.append_nil cs).symm⟩

theorem trans (h : Padded p q) (hq : Padded q cs) : Padded p cs := by
  obtain ⟨b, a, hb, ha, rfl⟩ := h
  obtain ⟨b', a', hb', ha', rfl⟩ := hq
  exact ⟨b ++ b', a' ++ a, hb.append hb', ha'.append ha, by simp [List.append_assoc]⟩

theorem append_left (h : Padded p cs) (hb : AllBlank before) : Padded (before ++ p) cs := by
  obtain ⟨b, a, hbefore, hafter, rfl⟩ := h
  exact ⟨before ++ b, a, hb.append hbefore, hafter, by simp [List.append_assoc]⟩

theorem append_right (h : Padded p cs) (ha : AllBlank after) : Padded (p ++ after) cs := by
  obtain ⟨b, a, hbefore, hafter, rfl⟩ := h
  exact ⟨b, a ++ after, hbefore, hafter.append ha, by simp [List.append_assoc]⟩

/-- What is dropped at the start belongs to the blanks. -/
theorem trimStart (h : Padded p cs) (hs : Solid cs) : Padded (trimStart p) cs := by
  obtain ⟨b, a, hb, ha, rfl⟩ := h
  rw [List.append_assoc, trimStart_append_of_blank hb]
  cases cs with
  | nil =>
    obtain ⟨b, hb, heq⟩ := exists_trimStart a
    refine ⟨[], Text.trimStart a, allBlank_nil, fun c hc => ha c ?_, rfl⟩
    rw [heq]
    exact List.mem_append_right _ hc
  | cons c cs =>
    rw [List.cons_append, trimStart_cons (hs c List.mem_cons_self)]
    exact ⟨[], a, allBlank_nil, ha, rfl⟩

theorem reverse (h : Padded p cs) : Padded p.reverse cs.reverse := by
  obtain ⟨b, a, hb, ha, rfl⟩ := h
  refine ⟨a.reverse, b.reverse, fun c hc => ha c (List.mem_reverse.mp hc),
    fun c hc => hb c (List.mem_reverse.mp hc), ?_⟩
  simp [List.append_assoc]

/-- What is dropped at the end belongs to the blanks. -/
theorem trimEnd (h : Padded p cs) (hs : Solid cs) : Padded (trimEnd p) cs := by
  have hreverse := h.reverse.trimStart fun c hc => hs c (List.mem_reverse.mp hc)
  have hback := hreverse.reverse
  rwa [List.reverse_reverse, ← trimEnd_eq] at hback

/-- Trimming finds a text without blanks. -/
theorem trim_eq (h : Padded p cs) (hs : Solid cs) : trim p = cs := by
  obtain ⟨b, a, hb, ha, rfl⟩ := h
  rw [List.append_assoc]
  cases cs using List.reverseRecOn with
  | nil => exact trim_eq_nil_iff.mpr (hb.append ha)
  | append_singleton cs d =>
    have hd : isBlank d = false := hs d (by simp)
    have hcs : Solid cs := fun c hc => hs c (List.mem_append_left _ hc)
    have ha' : Text.trimEnd a = [] := trimEnd_append_of_blank ha []
    calc Text.trim (b ++ (cs ++ [d] ++ a)) = Text.trim (b ++ cs ++ d :: a) := by simp
      _ = Text.trimStart (b ++ cs) ++ d :: Text.trimEnd a := trim_append_cons hd (b ++ cs) a
      _ = cs ++ [d] := by rw [trimStart_append_of_blank hb, trimStart_of_solid hcs, ha']

end Padded

/-! ### Words -/

/-- A word: characters without blanks. -/
structure IsWord (w : List Char) : Prop where
  solid : Solid w
  ne_nil : w ≠ []

theorem words_cons_of_blank (hc : isBlank c = true) (cs : List Char) :
    words (c :: cs) = words cs := by
  simp [words, wordsFrom, hc]

theorem words_append_of_blank (h : AllBlank before) (cs : List Char) :
    words (before ++ cs) = words cs := by
  induction before with
  | nil => rfl
  | cons c before ih =>
    have hbefore : AllBlank before := fun d hd => h d (List.mem_cons_of_mem _ hd)
    rw [List.cons_append, words_cons_of_blank (h c List.mem_cons_self), ih hbefore]

theorem words_of_blank (h : AllBlank cs) : words cs = [] := by
  have happend := words_append_of_blank h []
  rwa [List.append_nil] at happend

/-- The blanks at the start are in front of all words. -/
theorem words_trimStart (cs : List Char) : words (trimStart cs) = words cs := by
  obtain ⟨before, hbefore, hcs⟩ := exists_trimStart cs
  calc words (trimStart cs) = words (before ++ trimStart cs) :=
        (words_append_of_blank hbefore (trimStart cs)).symm
    _ = words cs := by rw [← hcs]

/-- A word that has begun goes on up to the next blank. -/
theorem wordsFrom_of_ne_nil (hw : w ≠ []) (cs : List Char) :
    wordsFrom w cs =
      (w.reverse ++ cs.takeWhile (!isBlank ·)) :: words (cs.dropWhile (!isBlank ·)) := by
  induction cs generalizing w with
  | nil => simp [wordsFrom, words, hw]
  | cons c cs ih =>
    cases hc : isBlank c with
    | true => simp [wordsFrom, words, hc, hw]
    | false => simp [wordsFrom, words, hc, ih]

theorem words_cons_of_not_blank (hc : isBlank c = false) (cs : List Char) :
    words (c :: cs) = (c :: cs.takeWhile (!isBlank ·)) :: words (cs.dropWhile (!isBlank ·)) := by
  have hstart : words (c :: cs) = wordsFrom [c] cs := by simp [words, wordsFrom, hc]
  rw [hstart, wordsFrom_of_ne_nil (List.cons_ne_nil c [])]
  rfl

/-- What the word at the start of a text is followed by. -/
def EndsWord (rest : List Char) : Prop :=
  ∀ c cs, rest = c :: cs → isBlank c = true

theorem AllBlank.endsWord (h : AllBlank p) : EndsWord p := by
  rintro c cs rfl
  exact h c List.mem_cons_self

theorem AllBlank.endsWord_append (h : AllBlank p) (hne : p ≠ []) (q : List Char) :
    EndsWord (p ++ q) := by
  obtain ⟨d, p, rfl⟩ := List.exists_cons_of_ne_nil hne
  intro c cs heq
  rw [List.cons_append] at heq
  obtain ⟨rfl, -⟩ := List.cons.inj heq
  exact h d List.mem_cons_self

/-- The first word of a text is the one it begins with. -/
theorem words_append (hw : IsWord w) (hrest : EndsWord rest) :
    words (w ++ rest) = w :: words rest := by
  obtain ⟨c, w, rfl⟩ := List.exists_cons_of_ne_nil hw.ne_nil
  have hw' : ∀ d ∈ w, (!isBlank d) = true := fun d hd => by
    rw [hw.solid d (List.mem_cons_of_mem _ hd)]
    rfl
  have htake : rest.takeWhile (!isBlank ·) = [] ∧ rest.dropWhile (!isBlank ·) = rest := by
    cases rest with
    | nil => exact ⟨rfl, rfl⟩
    | cons d rest => simp [hrest d rest rfl]
  rw [List.cons_append, words_cons_of_not_blank (hw.solid c List.mem_cons_self),
    List.takeWhile_append_of_pos hw', List.dropWhile_append_of_pos hw', htake.1, htake.2,
    List.append_nil]

/-- A text without words is blank. -/
theorem allBlank_of_words_eq_nil (h : words cs = []) : AllBlank cs := by
  induction cs with
  | nil => exact allBlank_nil
  | cons c cs ih =>
    cases hc : isBlank c with
    | true =>
      rw [words_cons_of_blank hc] at h
      intro d hd
      rcases List.mem_cons.mp hd with rfl | hd
      · exact hc
      · exact ih h d hd
    | false =>
      rw [words_cons_of_not_blank hc] at h
      cases h

/-- The first word stands behind blanks. -/
theorem exists_of_words_eq_cons (h : words cs = w :: ws) :
    ∃ before rest, cs = before ++ (w ++ rest) ∧ AllBlank before ∧ IsWord w ∧ EndsWord rest ∧
      words rest = ws := by
  induction cs with
  | nil => cases h
  | cons c cs ih =>
    cases hc : isBlank c with
    | true =>
      rw [words_cons_of_blank hc] at h
      obtain ⟨before, rest, rfl, hbefore, hw, hrest, hws⟩ := ih h
      refine ⟨c :: before, rest, rfl, fun d hd => ?_, hw, hrest, hws⟩
      rcases List.mem_cons.mp hd with rfl | hd
      · exact hc
      · exact hbefore d hd
    | false =>
      rw [words_cons_of_not_blank hc] at h
      obtain ⟨rfl, rfl⟩ := List.cons.inj h
      refine ⟨[], cs.dropWhile (!isBlank ·), ?_, allBlank_nil, ⟨fun d hd => ?_, by simp⟩, ?_, rfl⟩
      · simp [List.takeWhile_append_dropWhile]
      · rcases List.mem_cons.mp hd with rfl | hd
        · exact hc
        · simpa using List.mem_takeWhile_imp hd
      · intro d ds hd
        have hhead := List.head?_dropWhile_not (!isBlank ·) cs
        rw [hd] at hhead
        simpa using hhead

/-- A text has two words if a blank stands between them and blanks at most around them. -/
theorem words_eq_pair_iff {u : List Char} :
    words cs = [u, w] ↔ ∃ p c gap, cs = p ++ c :: w ++ gap ∧ Padded p u ∧ isBlank c = true ∧
      AllBlank gap ∧ IsWord u ∧ IsWord w := by
  constructor
  · intro h
    obtain ⟨before, rest, rfl, hbefore, hu, hrest, hws⟩ := exists_of_words_eq_cons h
    obtain ⟨between, gap, rfl, hbetween, hw, -, hgap⟩ := exists_of_words_eq_cons hws
    -- the second word begins with no blank, so that what ends the first stands in front of it
    cases between using List.reverseRecOn with
    | nil =>
      obtain ⟨d, w, rfl⟩ := List.exists_cons_of_ne_nil hw.ne_nil
      have hblank := hrest d (w ++ gap) rfl
      rw [hw.solid d List.mem_cons_self] at hblank
      cases hblank
    | append_singleton between c =>
      refine ⟨before ++ u ++ between, c, gap, by simp, ?_, hbetween c (by simp),
        allBlank_of_words_eq_nil hgap, hu, hw⟩
      exact ⟨before, between, hbefore, fun d hd => hbetween d (List.mem_append_left _ hd), rfl⟩
  · rintro ⟨p, c, gap, rfl, ⟨before, after, hbefore, hafter, rfl⟩, hc, hgap, hu, hw⟩
    have hbetween : AllBlank (after ++ [c]) :=
      hafter.append fun d hd => List.mem_singleton.mp hd ▸ hc
    have hne : after ++ [c] ≠ [] := by simp
    calc words (before ++ u ++ after ++ c :: w ++ gap)
        = words (before ++ (u ++ ((after ++ [c]) ++ (w ++ gap)))) := by simp
      _ = words (u ++ ((after ++ [c]) ++ (w ++ gap))) := words_append_of_blank hbefore _
      _ = u :: words ((after ++ [c]) ++ (w ++ gap)) :=
        words_append hu (hbetween.endsWord_append hne (w ++ gap))
      _ = u :: words (w ++ gap) := by rw [words_append_of_blank hbetween]
      _ = u :: w :: words gap := by rw [words_append hw hgap.endsWord]
      _ = [u, w] := by rw [words_of_blank hgap]

end Text
end ClusterKit
