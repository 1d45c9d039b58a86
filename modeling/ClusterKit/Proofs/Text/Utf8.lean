/-
# Reading characters back

What is written for characters is read as these characters. Bytes that break off
inside a character are no text, whatever has come before. No byte of a character
beyond the first 128 is one of these, so that a newline, say, stands for itself.

Key definitions: `Utf8.Completes`, `Utf8.Spells`, `Utf8.Splits`.
Key theorems: `Utf8.spells_encodeChar`, `Utf8.decode?_encode`, `Utf8.decode?_of_splits`,
`Utf8.mem_encode`.
-/
import Mathlib.Tactic.Common
import ClusterKit.Text.Utf8

namespace ClusterKit
namespace Utf8

/-! ### Inside a character -/

/-- Inside of a character, of which `left` more bytes are to come, `bs` are these bytes. -/
inductive Completes (c : Char) : (left code lo hi : Nat) → (bs : List UInt8) → Prop
  | last {code lo hi : Nat} {b : UInt8} (hlo : lo ≤ b.toNat) (hhi : b.toNat ≤ hi)
      (hc : Char.ofNat (code * 64 + (b.toNat - 0x80)) = c) : Completes c 1 code lo hi [b]
  | more {left code lo hi : Nat} {b : UInt8} {bs : List UInt8} (hlo : lo ≤ b.toNat)
      (hhi : b.toNat ≤ hi)
      (h : Completes c (left + 1) (code * 64 + (b.toNat - 0x80)) 0x80 0xBF bs) :
      Completes c (left + 2) code lo hi (b :: bs)

namespace Completes

variable {c : Char} {left code lo hi : Nat} {bs : List UInt8}

theorem reads (h : Completes c left code lo hi bs) (rest : List UInt8) :
    piecesFrom (.inside left code lo hi) (bs ++ rest) = some c :: piecesFrom .between rest := by
  induction h with
  | last hlo hhi hc => simp [piecesFrom, step, hlo, hhi, hc]
  | more hlo hhi _ ih => simp [piecesFrom, step, hlo, hhi, ih]

/-- A part of the bytes leads further inside. -/
theorem breaks (h : Completes c left code lo hi bs) : ∀ as, as <+: bs → as ≠ bs →
    piecesFrom (.inside left code lo hi) as = [none] := by
  induction h with
  | last hlo hhi hc =>
    intro as has hne
    cases as with
    | nil => rfl
    | cons a as =>
      obtain ⟨rfl, hnil⟩ := List.cons_prefix_cons.mp has
      exact absurd (by rw [List.prefix_nil.mp hnil]) hne
  | more hlo hhi _ ih =>
    intro as has hne
    cases as with
    | nil => rfl
    | cons a as =>
      obtain ⟨rfl, has'⟩ := List.cons_prefix_cons.mp has
      simpa [piecesFrom, step, hlo, hhi] using ih as has' fun heq => hne (by rw [heq])

end Completes

/-! ### Characters -/

/-- The bytes `bs` are read as the character `c`, and a part of them as nothing. -/
structure Spells (bs : List UInt8) (c : Char) : Prop where
  reads : ∀ rest, piecesFrom .between (bs ++ rest) = some c :: piecesFrom .between rest
  breaks : ∀ as, as <+: bs → as ≠ [] → as ≠ bs → piecesFrom .between as = [none]

theorem Completes.spells {c : Char} {left code lo hi : Nat} {b : UInt8} {bs : List UInt8}
    (h : Completes c left code lo hi bs) (hb : start b = ([], .inside left code lo hi)) :
    Spells (b :: bs) c := by
  have hstep : ∀ rest, piecesFrom .between (b :: rest) =
      piecesFrom (.inside left code lo hi) rest := by
    intro rest
    simp [piecesFrom, step, hb]
  refine ⟨fun rest => (hstep _).trans (h.reads rest), fun as has hne hne' => ?_⟩
  cases as with
  | nil => exact absurd rfl hne
  | cons a as =>
    obtain ⟨rfl, has'⟩ := List.cons_prefix_cons.mp has
    exact (hstep as).trans (h.breaks as has' fun heq => hne' (by rw [heq]))

/-- The numbers of characters have a gap. -/
theorem toNat_cases (c : Char) : c.toNat < 0xD800 ∨ 0xDFFF < c.toNat ∧ c.toNat < 0x110000 := by
  have h := c.valid
  simpa [UInt32.isValidChar, Nat.isValidChar] using h

theorem toNat_byte {n : Nat} (h : n < 256) : (UInt8.ofNat n).toNat = n :=
  UInt8.toNat_ofNat_of_lt' h

/-- A byte behind the first one of a character. -/
theorem toNat_tail (n : Nat) : (UInt8.ofNat (0x80 + n % 64)).toNat = 0x80 + n % 64 :=
  toNat_byte (by omega)

theorem spells_one {c : Char} (h : c.toNat < 0x80) : Spells [UInt8.ofNat c.toNat] c := by
  have hb : (UInt8.ofNat c.toNat).toNat = c.toNat := toNat_byte (by omega)
  refine ⟨fun rest => ?_, fun as has hne hne' => ?_⟩
  · simp [piecesFrom, step, start, hb, h, Char.ofNat_toNat]
  · cases as with
    | nil => exact absurd rfl hne
    | cons a as =>
      obtain ⟨rfl, hnil⟩ := List.cons_prefix_cons.mp has
      exact absurd (by rw [List.prefix_nil.mp hnil]) hne'

theorem spells_two {c : Char} (h₁ : 0x80 ≤ c.toNat) (h₂ : c.toNat < 0x800) :
    Spells [UInt8.ofNat (0xC0 + c.toNat / 64), UInt8.ofNat (0x80 + c.toNat % 64)] c := by
  have hb : (UInt8.ofNat (0xC0 + c.toNat / 64)).toNat = 0xC0 + c.toNat / 64 :=
    toNat_byte (by omega)
  have ht := toNat_tail c.toNat
  have hcode : (0xC0 + c.toNat / 64 - 0xC0) * 64 + (0x80 + c.toNat % 64 - 0x80) = c.toNat := by
    omega
  have hstart : start (UInt8.ofNat (0xC0 + c.toNat / 64)) =
      ([], .inside 1 (0xC0 + c.toNat / 64 - 0xC0) 0x80 0xBF) := by
    unfold start
    simp only [hb]
    rw [if_neg (by omega), if_neg (by omega), if_pos (by omega)]
  refine Completes.spells (.last ?_ ?_ ?_) hstart
  · omega
  · omega
  · rw [ht, hcode, Char.ofNat_toNat]

theorem spells_three {c : Char} (h₁ : 0x800 ≤ c.toNat) (h₂ : c.toNat < 0x10000) :
    Spells [UInt8.ofNat (0xE0 + c.toNat / 4096), UInt8.ofNat (0x80 + c.toNat / 64 % 64),
      UInt8.ofNat (0x80 + c.toNat % 64)] c := by
  have hvalid := toNat_cases c
  have hb : (UInt8.ofNat (0xE0 + c.toNat / 4096)).toNat = 0xE0 + c.toNat / 4096 :=
    toNat_byte (by omega)
  have ht := toNat_tail c.toNat
  have ht' := toNat_tail (c.toNat / 64)
  obtain ⟨lo, hi, hstart, hlo, hhi⟩ : ∃ lo hi,
      start (UInt8.ofNat (0xE0 + c.toNat / 4096)) = ([], .inside 2 (c.toNat / 4096) lo hi) ∧
        lo ≤ 0x80 + c.toNat / 64 % 64 ∧ 0x80 + c.toNat / 64 % 64 ≤ hi := by
    unfold start
    simp only [hb]
    rw [if_neg (by omega), if_neg (by omega), if_neg (by omega)]
    by_cases hE0 : c.toNat / 4096 = 0
    · rw [if_pos (by omega), hE0]
      exact ⟨_, _, rfl, by omega, by omega⟩
    · rw [if_neg (by omega)]
      by_cases hED : c.toNat / 4096 = 0xD
      · rw [if_pos (by omega), hED]
        exact ⟨_, _, rfl, by omega, by omega⟩
      · rw [if_neg (by omega), if_pos (by omega), Nat.add_sub_cancel_left]
        exact ⟨_, _, rfl, by omega, by omega⟩
  refine Completes.spells (.more ?_ ?_ (.last ?_ ?_ ?_)) hstart
  · omega
  · omega
  · omega
  · omega
  · rw [ht, ht', show (c.toNat / 4096 * 64 + (0x80 + c.toNat / 64 % 64 - 0x80)) * 64 +
      (0x80 + c.toNat % 64 - 0x80) = c.toNat by omega, Char.ofNat_toNat]

theorem spells_four {c : Char} (h : 0x10000 ≤ c.toNat) :
    Spells [UInt8.ofNat (0xF0 + c.toNat / 262144), UInt8.ofNat (0x80 + c.toNat / 4096 % 64),
      UInt8.ofNat (0x80 + c.toNat / 64 % 64), UInt8.ofNat (0x80 + c.toNat % 64)] c := by
  have hvalid := toNat_cases c
  have hb : (UInt8.ofNat (0xF0 + c.toNat / 262144)).toNat = 0xF0 + c.toNat / 262144 :=
    toNat_byte (by omega)
  have ht := toNat_tail c.toNat
  have ht' := toNat_tail (c.toNat / 64)
  have ht'' := toNat_tail (c.toNat / 4096)
  obtain ⟨lo, hi, hstart, hlo, hhi⟩ : ∃ lo hi,
      start (UInt8.ofNat (0xF0 + c.toNat / 262144)) = ([], .inside 3 (c.toNat / 262144) lo hi) ∧
        lo ≤ 0x80 + c.toNat / 4096 % 64 ∧ 0x80 + c.toNat / 4096 % 64 ≤ hi := by
    unfold start
    simp only [hb]
    rw [if_neg (by omega), if_neg (by omega), if_neg (by omega), if_neg (by omega),
      if_neg (by omega), if_neg (by omega)]
    by_cases hF0 : c.toNat / 262144 = 0
    · rw [if_pos (by omega), hF0]
      exact ⟨_, _, rfl, by omega, by omega⟩
    · rw [if_neg (by omega)]
      by_cases hF4 : c.toNat / 262144 = 4
      · rw [if_neg (by omega), if_pos (by omega), hF4]
        exact ⟨_, _, rfl, by omega, by omega⟩
      · rw [if_pos (by omega), Nat.add_sub_cancel_left]
        exact ⟨_, _, rfl, by omega, by omega⟩
  refine Completes.spells (.more ?_ ?_ (.more ?_ ?_ (.last ?_ ?_ ?_))) hstart
  · omega
  · omega
  · omega
  · omega
  · omega
  · omega
  · rw [ht, ht', ht'', show ((c.toNat / 262144 * 64 + (0x80 + c.toNat / 4096 % 64 - 0x80)) * 64 +
      (0x80 + c.toNat / 64 % 64 - 0x80)) * 64 + (0x80 + c.toNat % 64 - 0x80) = c.toNat by omega,
      Char.ofNat_toNat]

theorem spells_encodeChar (c : Char) : Spells (encodeChar c) c := by
  unfold encodeChar
  simp only
  split
  · exact spells_one ‹_›
  · split
    · exact spells_two (by omega) ‹_›
    · split
      · exact spells_three (by omega) ‹_›
      · exact spells_four (by omega)

theorem encodeChar_ne_nil (c : Char) : encodeChar c ≠ [] := by
  intro h
  have hreads := (spells_encodeChar c).reads []
  rw [h] at hreads
  cases hreads

/-! ### Texts -/

/-- The bytes `as` end inside the character `c`. -/
structure Splits (as : List UInt8) (c : Char) : Prop where
  isPrefix : as <+: encodeChar c
  ne_nil : as ≠ []
  ne_all : as ≠ encodeChar c

theorem pieces_encode_append (cs : List Char) (rest : List UInt8) :
    pieces (encode cs ++ rest) = cs.map some ++ pieces rest := by
  induction cs with
  | nil => rfl
  | cons c cs ih =>
    show piecesFrom .between (encodeChar c ++ encode cs ++ rest) = _
    rw [List.append_assoc, (spells_encodeChar c).reads]
    exact congrArg (some c :: ·) ih

/-- What is written for characters is read as them, whatever follows. -/
theorem decode?_encode_append (cs : List Char) (rest : List UInt8) :
    decode? (encode cs ++ rest) = (decode? rest).map (cs ++ ·) := by
  rw [decode?, pieces_encode_append]
  show _ = ((pieces rest).mapM id).map (cs ++ ·)
  induction cs with
  | nil => simp
  | cons c cs ih =>
    rw [List.map_cons, List.cons_append, List.mapM_cons, ih]
    cases (pieces rest).mapM id <;> rfl

theorem decode?_encode (cs : List Char) : decode? (encode cs) = some cs := by
  have h := decode?_encode_append cs []
  rwa [List.append_nil, show decode? [] = some [] from rfl, Option.map_some,
    List.append_nil] at h

/-- Bytes that break off inside a character are no text. -/
theorem decode?_of_splits (cs : List Char) {c : Char} {as : List UInt8} (h : Splits as c) :
    decode? (encode cs ++ as) = none := by
  have hpieces : pieces as = [none] :=
    (spells_encodeChar c).breaks as h.isPrefix h.ne_nil h.ne_all
  rw [decode?_encode_append, decode?, hpieces]
  rfl

theorem encode_append (cs ds : List Char) : encode (cs ++ ds) = encode cs ++ encode ds :=
  List.flatMap_append

/-- A part of what is written for characters ends between two of them or inside of one. -/
theorem prefix_encode {bs : List UInt8} : ∀ {cs : List Char}, bs <+: encode cs →
    (∃ p q, cs = p ++ q ∧ bs = encode p) ∨
      ∃ p c q as, cs = p ++ c :: q ∧ bs = encode p ++ as ∧ Splits as c
  | [], h => .inl ⟨[], [], rfl, List.prefix_nil.mp h⟩
  | c :: cs, ⟨left, h⟩ => by
    have h : bs ++ left = encodeChar c ++ encode cs := h
    rcases List.append_eq_append_iff.mp h with ⟨as, hc, -⟩ | ⟨bs', rfl, hcs⟩
    · by_cases hnil : bs = []
      · exact .inl ⟨[], c :: cs, rfl, hnil⟩
      · by_cases hall : bs = encodeChar c
        · exact .inl ⟨[c], cs, rfl, hall.trans (List.append_nil _).symm⟩
        · exact .inr ⟨[], c, cs, bs, rfl, rfl, ⟨as, hc.symm⟩, hnil, hall⟩
    · rcases prefix_encode ⟨left, hcs.symm⟩ with ⟨p, q, rfl, rfl⟩ | ⟨p, d, q, as, rfl, rfl, has⟩
      · exact .inl ⟨c :: p, q, rfl, rfl⟩
      · exact .inr ⟨c :: p, d, q, as, rfl, (List.append_assoc _ _ _).symm, has⟩

/-! ### Bytes that stand for themselves -/

/-- A byte of a character is beyond the first 128, or it is the number of the character. -/
theorem mem_encodeChar {c : Char} {b : UInt8} (hb : b.toNat < 0x80) (h : b ∈ encodeChar c) :
    c = Char.ofNat b.toNat ∧ encodeChar c = [b] := by
  have hvalid := toNat_cases c
  have hlarge : ∀ n, 0x80 ≤ n → n < 256 → b ≠ UInt8.ofNat n := by
    intro n hn hn' heq
    rw [heq, toNat_byte hn'] at hb
    omega
  unfold encodeChar at h ⊢
  simp only at h ⊢
  split at h
  · rw [if_pos ‹_›]
    rw [List.mem_singleton] at h
    rw [h, toNat_byte (by omega), Char.ofNat_toNat]
    exact ⟨rfl, rfl⟩
  · split at h
    · simp only [List.mem_cons, List.not_mem_nil, or_false] at h
      rcases h with h | h
      · exact absurd h (hlarge _ (by omega) (by omega))
      · exact absurd h (hlarge _ (by omega) (by omega))
    · split at h
      · simp only [List.mem_cons, List.not_mem_nil, or_false] at h
        rcases h with h | h | h
        · exact absurd h (hlarge _ (by omega) (by omega))
        · exact absurd h (hlarge _ (by omega) (by omega))
        · exact absurd h (hlarge _ (by omega) (by omega))
      · simp only [List.mem_cons, List.not_mem_nil, or_false] at h
        rcases h with h | h | h | h
        · exact absurd h (hlarge _ (by omega) (by omega))
        · exact absurd h (hlarge _ (by omega) (by omega))
        · exact absurd h (hlarge _ (by omega) (by omega))
        · exact absurd h (hlarge _ (by omega) (by omega))

theorem mem_encode {cs : List Char} {b : UInt8} (hb : b.toNat < 0x80) (h : b ∈ encode cs) :
    Char.ofNat b.toNat ∈ cs := by
  obtain ⟨c, hc, hmem⟩ := List.mem_flatMap.mp h
  exact (mem_encodeChar hb hmem).1 ▸ hc

/-- Where bytes end inside a character, none of the first 128 stands. -/
theorem Splits.le_of_mem {c : Char} {as : List UInt8} (h : Splits as c) {b : UInt8}
    (hb : b ∈ as) : 0x80 ≤ b.toNat := by
  by_contra hlt
  obtain ⟨-, heq⟩ := mem_encodeChar (Nat.lt_of_not_le hlt) (h.isPrefix.subset hb)
  have hprefix := h.isPrefix
  rw [heq] at hprefix
  cases as with
  | nil => exact h.ne_nil rfl
  | cons a as =>
    obtain ⟨rfl, hnil⟩ := List.cons_prefix_cons.mp hprefix
    exact h.ne_all (by rw [heq, List.prefix_nil.mp hnil])

end Utf8
end ClusterKit
