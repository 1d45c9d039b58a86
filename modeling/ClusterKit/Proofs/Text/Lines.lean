/-
# Lines of a text

Lines that are written one after the other, each with a newline behind it, are
split into the same lines again, and so is every beginning of them: into the
lines that lie before its end, and a part of the next one.

Key definitions: `Lines.terminated`, `Lines.trimText`.
Key theorems: `Lines.split_terminated`, `Lines.take_terminated`, `Lines.trim_encode`.
-/
import ClusterKit.Proofs.Text.Utf8
import ClusterKit.Text.Lines

namespace ClusterKit
namespace Lines

/-! ### Splitting -/

theorem split_of_not_mem {bs : List UInt8} (h : newline ∉ bs) : split bs = ([], bs) := by
  induction bs with
  | nil => rfl
  | cons b bs ih =>
    rw [List.mem_cons, not_or] at h
    rw [split, ih h.2]
    simp only [if_neg (Ne.symm h.1)]

/-- The bytes behind the last newline hold none. -/
theorem newline_not_mem_split (bs : List UInt8) : newline ∉ (split bs).2 := by
  induction bs with
  | nil => exact List.not_mem_nil
  | cons b bs ih =>
    rw [split]
    by_cases hb : b = newline
    · simpa only [if_pos hb] using ih
    · simp only [if_neg hb]
      cases (split bs).1 with
      | nil => exact fun h => (List.mem_cons.mp h).elim (fun heq => hb heq.symm) ih
      | cons line lines => exact ih

theorem split_line {line : List UInt8} (h : newline ∉ line) (bs : List UInt8) :
    split (line ++ newline :: bs) = (line :: (split bs).1, (split bs).2) := by
  induction line with
  | nil => simp [split]
  | cons b line ih =>
    rw [List.mem_cons, not_or] at h
    rw [List.cons_append, split, ih h.2]
    simp only [if_neg (Ne.symm h.1)]

/-- The bytes of lines, with a newline behind each. -/
def terminated (lines : List (List UInt8)) : List UInt8 :=
  lines.flatMap (· ++ [newline])

theorem terminated_cons (line : List UInt8) (lines : List (List UInt8)) :
    terminated (line :: lines) = line ++ newline :: terminated lines := by
  simp [terminated]

theorem split_terminated_append {lines : List (List UInt8)} (h : ∀ line ∈ lines, newline ∉ line)
    (bs : List UInt8) :
    split (terminated lines ++ bs) = (lines ++ (split bs).1, (split bs).2) := by
  induction lines with
  | nil => rfl
  | cons line lines ih =>
    obtain ⟨hline, hlines⟩ := List.forall_mem_cons.mp h
    rw [terminated_cons, List.append_assoc, List.cons_append, split_line hline, ih hlines,
      List.cons_append]

theorem split_terminated {lines : List (List UInt8)} (h : ∀ line ∈ lines, newline ∉ line)
    {rest : List UInt8} (hrest : newline ∉ rest) :
    split (terminated lines ++ rest) = (lines, rest) := by
  rw [split_terminated_append h, split_of_not_mem hrest, List.append_nil]

/-- A beginning of lines consists of some of them and a part of the next one. -/
theorem take_terminated (f : α → List UInt8) : ∀ (as : List α) (n : Nat),
    ∃ before behind part, as = before ++ behind ∧
      (terminated (as.map f)).take n = terminated (before.map f) ++ part ∧
      (behind = [] ∧ part = [] ∨ ∃ a behind', behind = a :: behind' ∧ part <+: f a)
  | [], n => ⟨[], [], [], rfl, by simp [terminated], .inl ⟨rfl, rfl⟩⟩
  | a :: as, n => by
    rw [List.map_cons, terminated_cons]
    by_cases hn : n ≤ (f a).length
    · refine ⟨[], a :: as, (f a).take n, rfl, ?_, .inr ⟨a, as, rfl, List.take_prefix n (f a)⟩⟩
      exact List.take_append_of_le_length hn
    · obtain ⟨m, rfl⟩ := Nat.exists_eq_add_of_lt (Nat.lt_of_not_le hn)
      obtain ⟨before, behind, part, rfl, htake, hpart⟩ := take_terminated f as m
      refine ⟨a :: before, behind, part, rfl, ?_, hpart⟩
      rw [List.map_cons, terminated_cons, Nat.add_assoc, List.take_length_add_append,
        List.take_succ_cons, htake, List.append_assoc, List.cons_append]

/-! ### Carriage returns -/

/-- The characters of a line without a carriage return at its end. -/
def trimText (cs : List Char) : List Char :=
  if cs.getLast? = some '\r' then cs.dropLast else cs

theorem trimText_cases (cs : List Char) : trimText cs = cs ∨ cs = trimText cs ++ ['\r'] := by
  unfold trimText
  split
  · obtain ⟨ds, rfl⟩ := List.getLast?_eq_some_iff.mp ‹_›
    exact .inr (by rw [List.dropLast_concat])
  · exact .inl rfl

theorem trim_of_getLast_ne {bs : List UInt8} (h : bs.getLast? ≠ some carriageReturn) :
    trim bs = bs :=
  if_neg h

theorem trim_encode (cs : List Char) : trim (Utf8.encode cs) = Utf8.encode (trimText cs) := by
  rcases List.eq_nil_or_concat cs with rfl | ⟨ds, c, rfl⟩
  · rfl
  · rw [List.concat_eq_append, Utf8.encode_append]
    by_cases hc : c = '\r'
    · subst hc
      have hlast : Utf8.encode ['\r'] = [carriageReturn] := by decide
      rw [hlast]
      simp [trim, trimText]
    · have hlast : (Utf8.encode ds ++ Utf8.encode [c]).getLast? ≠ some carriageReturn := by
        intro h
        rw [List.getLast?_append, Option.or_eq_some_iff] at h
        rcases h with h | ⟨h, -⟩
        · have hmem : carriageReturn ∈ Utf8.encode [c] := List.mem_of_getLast? h
          have hc' := Utf8.mem_encode (by decide) hmem
          exact hc (List.mem_singleton.mp hc').symm
        · have hnil : Utf8.encodeChar c ++ [] = [] := List.getLast?_eq_none_iff.mp h
          exact Utf8.encodeChar_ne_nil c (List.append_eq_nil_iff.mp hnil).1
      rw [trim_of_getLast_ne hlast, trimText, if_neg (by simpa using hc), Utf8.encode_append]

end Lines
end ClusterKit
