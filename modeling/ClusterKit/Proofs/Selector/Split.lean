/-
# Cutting a selector

The characters of a selector are cut at commas, at the first of some mark, and
at the commas outside of parentheses. Cutting loses nothing, so that the parts
put together again are what was cut; and what has been put together from parts
is cut into these, provided that the mark does not stand inside of one.

For the commas outside of parentheses a part may have commas inside of its own:
it only has to leave the depth as it finds it (`Selector.Passes`).

Key definitions: `Selector.Passes`.
Key theorems: `Selector.intercalate_of_splitTop`, `Selector.splitTop_intercalate`,
`Requirement.splitCommas_eq_splitOn`.
-/
import ClusterKit.Selector.Parse

namespace ClusterKit
namespace Requirement

variable {c d : Char} {cs p q : List Char}

/-! ### The first mark -/

theorem eq_of_cut (h : cut c cs = some (p, q)) : cs = p ++ c :: q := by
  induction cs generalizing p with
  | nil => cases h
  | cons x cs ih =>
    unfold cut at h
    split at h
    · cases h
      subst x
      rfl
    · obtain ⟨⟨p, q'⟩, hcut, heq⟩ := Option.map_eq_some_iff.mp h
      cases heq
      rw [ih hcut]
      rfl

theorem cut_append (h : c ∉ p) (q : List Char) : cut c (p ++ c :: q) = some (p, q) := by
  induction p with
  | nil => simp [cut]
  | cons x p ih =>
    rw [List.mem_cons, not_or] at h
    simp [cut, Ne.symm h.1, ih h.2]

theorem cut_of_not_mem (h : c ∉ cs) : cut c cs = none := by
  cases hcut : cut c cs with
  | none => rfl
  | some parts =>
    refine absurd ?_ h
    rw [eq_of_cut hcut]
    simp

theorem eq_of_cutPair (h : cutPair c d cs = some (p, q)) : cs = p ++ c :: d :: q := by
  induction cs generalizing p with
  | nil => cases h
  | cons x cs ih =>
    cases cs with
    | nil => cases h
    | cons y cs =>
      unfold cutPair at h
      split at h
      · rename_i hxy
        cases h
        rw [hxy.1, hxy.2]
        rfl
      · obtain ⟨⟨p, q'⟩, hcut, heq⟩ := Option.map_eq_some_iff.mp h
        cases heq
        rw [ih hcut]
        rfl

theorem cutPair_append (h : c ∉ p) (q : List Char) :
    cutPair c d (p ++ c :: d :: q) = some (p, q) := by
  induction p with
  | nil => simp [cutPair]
  | cons x p ih =>
    rw [List.mem_cons, not_or] at h
    cases p with
    | nil => simp [cutPair, Ne.symm h.1]
    | cons y p =>
      have hrest := ih h.2
      rw [List.cons_append] at hrest
      simp [cutPair, Ne.symm h.1, hrest]

theorem cutPair_of_not_mem (h : c ∉ cs) : cutPair c d cs = none := by
  cases hcut : cutPair c d cs with
  | none => rfl
  | some parts =>
    refine absurd ?_ h
    rw [eq_of_cutPair hcut]
    simp

/-- A mark that stands there once does not stand there twice in a row. -/
theorem cutPair_of_lone (hp : c ∉ p) (hq : c ∉ q) : cutPair c c (p ++ c :: q) = none := by
  cases hcut : cutPair c c (p ++ c :: q) with
  | none => rfl
  | some parts =>
    have hcount := congrArg (List.count c) (eq_of_cutPair hcut)
    simp only [List.count_append, List.count_cons_self, List.count_eq_zero_of_not_mem hp,
      List.count_eq_zero_of_not_mem hq] at hcount
    omega

/-! ### Every comma -/

/-- Cutting at commas is the cutting of lists at an element. -/
theorem splitCommas_eq_splitOn (cs : List Char) : splitCommas cs = cs.splitOn ',' := by
  induction cs with
  | nil => rfl
  | cons c cs ih =>
    unfold splitCommas
    rw [ih, List.splitOn_cons_eq_if_modifyHead]
    by_cases hc : c = ','
    · rw [if_pos hc, if_pos (by simp [hc])]
    · rw [if_neg hc, if_neg (by simp [hc])]
      cases h : cs.splitOn ',' with
      | nil => exact absurd h (List.splitOn_ne_nil ',' cs)
      | cons part parts => rfl

theorem eq_of_dropClose? (h : dropClose? cs = some p) : cs = p ++ [')'] := by
  unfold dropClose? at h
  split at h
  · rename_i hlast
    cases h
    obtain ⟨ds, rfl⟩ := List.getLast?_eq_some_iff.mp hlast
    rw [List.dropLast_concat]
  · cases h

theorem dropClose?_append (p : List Char) : dropClose? (p ++ [')']) = some p := by
  simp [dropClose?]

end Requirement

namespace Selector

variable {cs p q : List Char} {parts : List (List Char)} {depth depth' depth'' : Nat}

/-! ### Commas outside of parentheses -/

theorem splitTop_ne_nil (depth : Nat) (cs : List Char) : splitTop depth cs ≠ some [] := by
  cases cs with
  | nil =>
    unfold splitTop
    split <;> simp
  | cons c cs =>
    unfold splitTop
    split
    · simp
    · split
      · simp
      · dsimp only
        split <;> simp

/-- The depth behind a character. -/
def depthBehind (depth : Nat) (c : Char) : Nat :=
  if c = '(' then depth + 1 else if c = ')' then depth - 1 else depth

/-- A character that neither separates parts nor closes what is not open belongs to the part
that goes on behind it. -/
theorem splitTop_cons {c : Char} (hcomma : ¬ (c = ',' ∧ depth = 0))
    (hclose : ¬ (c = ')' ∧ depth = 0)) (cs : List Char) :
    splitTop depth (c :: cs) =
      (splitTop (depthBehind depth c) cs).map (List.modifyHead (c :: ·)) := by
  rw [splitTop, if_neg hcomma, if_neg hclose]
  dsimp only
  rw [← depthBehind]
  cases h : splitTop (depthBehind depth c) cs with
  | none => rfl
  | some parts =>
    cases parts with
    | nil => exact absurd h (splitTop_ne_nil _ cs)
    | cons part parts => rfl

theorem splitTop_comma (cs : List Char) :
    splitTop 0 (',' :: cs) = (splitTop 0 cs).map ([] :: ·) := by
  rw [splitTop, if_pos ⟨rfl, rfl⟩]

/-- The parts with commas between them are what was cut. -/
theorem intercalate_of_splitTop (h : splitTop depth cs = some parts) :
    [','].intercalate parts = cs := by
  induction cs generalizing depth parts with
  | nil =>
    unfold splitTop at h
    split at h
    · cases h
      rfl
    · cases h
  | cons c cs ih =>
    by_cases hcomma : c = ',' ∧ depth = 0
    · obtain ⟨rfl, rfl⟩ := hcomma
      rw [splitTop_comma] at h
      obtain ⟨more, hmore, rfl⟩ := Option.map_eq_some_iff.mp h
      have hne : more ≠ [] := by
        rintro rfl
        exact splitTop_ne_nil 0 cs hmore
      rw [List.intercalate_cons_of_ne_nil hne, ih hmore]
      rfl
    · by_cases hclose : c = ')' ∧ depth = 0
      · rw [splitTop, if_neg hcomma, if_pos hclose] at h
        cases h
      · rw [splitTop_cons hcomma hclose] at h
        obtain ⟨more, hmore, rfl⟩ := Option.map_eq_some_iff.mp h
        cases more with
        | nil => exact absurd hmore (splitTop_ne_nil _ cs)
        | cons part parts =>
          rw [← ih hmore]
          cases parts with
          | nil => simp
          | cons part' parts => simp [List.intercalate_cons_cons]

/-- Reading goes through `p` from one depth to another and finds no comma that separates. -/
def Passes (depth depth' : Nat) (p : List Char) : Prop :=
  ∀ rest, splitTop depth (p ++ rest) = (splitTop depth' rest).map (List.modifyHead (p ++ ·))

namespace Passes

theorem nil (depth : Nat) : Passes depth depth [] := by
  intro rest
  have hid : List.modifyHead (([] : List Char) ++ ·) = id := by
    funext parts
    cases parts <;> rfl
  rw [hid, Option.map_id]
  rfl

theorem append (hp : Passes depth depth' p) (hq : Passes depth' depth'' q) :
    Passes depth depth'' (p ++ q) := by
  intro rest
  rw [List.append_assoc, hp, hq, Option.map_map]
  congr 1
  funext parts
  cases parts <;> simp

theorem single {c : Char} (hcomma : ¬ (c = ',' ∧ depth = 0)) (hclose : ¬ (c = ')' ∧ depth = 0)) :
    Passes depth (depthBehind depth c) [c] :=
  fun rest => splitTop_cons hcomma hclose rest

/-- Without parentheses the depth stays, and commas do not separate inside of them. -/
theorem of_flat (h : ∀ c ∈ p, c ≠ '(' ∧ c ≠ ')' ∧ (c = ',' → depth ≠ 0)) :
    Passes depth depth p := by
  induction p with
  | nil => exact nil depth
  | cons c p ih =>
    obtain ⟨hopen, hclose, hcomma⟩ := h c List.mem_cons_self
    have hsame : depthBehind depth c = depth := by simp [depthBehind, hopen, hclose]
    have hone : Passes depth depth [c] := by
      have hsingle : Passes depth (depthBehind depth c) [c] :=
        single (fun hc => hcomma hc.1 hc.2) (fun hc => hclose hc.1)
      rwa [hsame] at hsingle
    exact hone.append (ih fun d hd => h d (List.mem_cons_of_mem _ hd))

/-- A list in parentheses is gone through as a whole. -/
theorem parentheses (h : ∀ c ∈ p, c ≠ '(' ∧ c ≠ ')') : Passes 0 0 ('(' :: p ++ [')']) := by
  have hopen : Passes 0 1 ['('] := single (by simp) (by simp)
  have hinside : Passes 1 1 p := of_flat fun c hc => ⟨(h c hc).1, (h c hc).2, fun _ => by simp⟩
  have hclose : Passes 1 0 [')'] := single (by simp) (by simp)
  exact (hopen.append hinside).append hclose

end Passes

/-- Parts that are gone through as a whole are found again. -/
theorem splitTop_intercalate (hne : parts ≠ []) (h : ∀ p ∈ parts, Passes 0 0 p) :
    splitTop 0 ([','].intercalate parts) = some parts := by
  induction parts with
  | nil => exact absurd rfl hne
  | cons p parts ih =>
    have hp := h p List.mem_cons_self
    by_cases hparts : parts = []
    · subst hparts
      have hwhole := hp []
      rw [List.append_nil] at hwhole
      rw [List.intercalate_singleton, hwhole]
      simp [splitTop]
    · have hrest := ih hparts fun q hq => h q (List.mem_cons_of_mem _ hq)
      rw [List.intercalate_cons_of_ne_nil hparts, List.append_assoc, hp, List.singleton_append,
        splitTop_comma, hrest]
      simp

end Selector
end ClusterKit
