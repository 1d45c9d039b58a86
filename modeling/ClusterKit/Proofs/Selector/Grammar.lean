/-
# The grammar of selectors

A text is read as a selector just if the grammar derives it: it is blank, or a
list of requirements with commas between them, each between blanks. Reading
finds the requirements that the grammar derives, in their order, so that each
text stands for one selector at most.

Key definitions: `Requirement.IsKey`, `Requirement.IsValue`, `Requirement.Written`,
`Selector.Written`.
Key theorems: `Requirement.parse_eq_ok_iff`, `Selector.parseChars_of_written`,
`Selector.written_of_parseChars`, `Selector.accepts_exactly_its_grammar`.
-/
import ClusterKit.Outcome
import ClusterKit.Proofs.Selector.Split
import ClusterKit.Proofs.Table
import ClusterKit.Proofs.Text.Blank
import Mathlib.Data.List.Forall2

namespace ClusterKit

open Text (AllBlank IsWord Padded Solid isBlank)

/-! ### The grammar -/

namespace Requirement

/-- A letter or digit of ASCII, or one of the signs `-`, `_` and `.`. -/
def IsValueLetter (c : Char) : Prop :=
  ('a' ≤ c ∧ c ≤ 'z' ∨ 'A' ≤ c ∧ c ≤ 'Z' ∨ '0' ≤ c ∧ c ≤ '9') ∨ c = '-' ∨ c = '_' ∨ c = '.'

/-- A key has some of these letters or slashes. -/
def IsKey (cs : List Char) : Prop :=
  cs ≠ [] ∧ ∀ c ∈ cs, IsValueLetter c ∨ c = '/'

/-- A value has these letters only, and may be empty. -/
def IsValue (cs : List Char) : Prop :=
  ∀ c ∈ cs, IsValueLetter c

/-- `p` is the text `s`, which is valid, between blanks. -/
structure Between (Valid : List Char → Prop) (p : List Char) (s : String) : Prop where
  valid : Valid s.toList
  padded : Padded p s.toList

/-- `p` is the key `k` between blanks. -/
abbrev KeyIn : List Char → String → Prop := Between IsKey

/-- `p` is the value `v` between blanks. -/
abbrev ValueIn : List Char → String → Prop := Between IsValue

/-- `inside` is a list of values with commas between them, not all of which are empty. -/
def ValuesIn (inside : List Char) (vs : List String) : Prop :=
  ∃ parts, parts ≠ [] ∧ inside = [','].intercalate parts ∧ List.Forall₂ ValueIn parts vs ∧
    ∃ v ∈ vs, v ≠ ""

/-- `p` is the key `k`, a blank behind it, and the word, perhaps with blanks around each. -/
def KeyBefore (word p : List Char) (k : String) : Prop :=
  ∃ q c gap, p = q ++ c :: word ++ gap ∧ KeyIn q k ∧ isBlank c = true ∧ AllBlank gap

/-- The words that stand in front of a set, and what they ask for. -/
inductive SetWord : List Char → (String → TextSet → Requirement) → Prop
  | oneOf : SetWord ['i', 'n'] .oneOf
  | noneOf : SetWord ['n', 'o', 't', 'i', 'n'] .noneOf

/-- The characters write the requirement. -/
inductive Written : List Char → Requirement → Prop
  | present {k} (hk : IsKey k.toList) : Written k.toList (.present k)
  | absent {p k} (hk : KeyIn p k) : Written ('!' :: p) (.absent k)
  | equal {p q k v} (hk : KeyIn p k) (hv : ValueIn q v) : Written (p ++ '=' :: q) (.equal k v)
  | equalTwice {p q k v} (hk : KeyIn p k) (hv : ValueIn q v) :
      Written (p ++ '=' :: '=' :: q) (.equal k v)
  | notEqual {p q k v} (hk : KeyIn p k) (hv : ValueIn q v) :
      Written (p ++ '!' :: '=' :: q) (.notEqual k v)
  | set {word ask p inside k vs} {s : TextSet} (hword : SetWord word ask)
      (hk : KeyBefore word p k) (hvs : ValuesIn inside vs) (hs : ∀ v, v ∈ s.toList ↔ v ∈ vs) :
      Written (p ++ ('(' :: inside ++ [')'])) (ask k s)

/-- The characters write the requirement between blanks. -/
def WrittenIn (p : List Char) (r : Requirement) : Prop :=
  ∃ body, Padded p body ∧ Written body r

end Requirement

/-- The characters write the selector. -/
inductive Selector.Written : List Char → Selector → Prop
  | blank {cs} (h : AllBlank cs) : Written cs .everything
  | list {parts rs} (hne : parts ≠ []) (h : List.Forall₂ Requirement.WrittenIn parts rs) :
      Written ([','].intercalate parts) ⟨rs⟩

/-- A list of outcomes that have all gone well. -/
theorem mapM_eq_ok_iff {f : α → Except ε β} {as : List α} {bs : List β} :
    as.mapM f = .ok bs ↔ List.Forall₂ (fun a b => f a = .ok b) as bs := by
  induction as generalizing bs with
  | nil =>
    rw [List.mapM_nil, List.forall₂_nil_left_iff]
    exact ⟨fun h => (Except.ok.inj h).symm, fun h => h ▸ rfl⟩
  | cons a as ih =>
    rw [List.mapM_cons, bind_eq_ok, List.forall₂_cons_left_iff]
    constructor
    · rintro ⟨b, hb, h⟩
      obtain ⟨bs', hbs, heq⟩ := bind_eq_ok.mp h
      exact ⟨b, bs', hb, ih.mp hbs, (Except.ok.inj heq).symm⟩
    · rintro ⟨b, bs', hb, hbs, rfl⟩
      exact ⟨b, hb, bind_eq_ok.mpr ⟨bs', ih.mpr hbs, rfl⟩⟩

namespace Requirement

variable {cs p q body before after inside word : List Char} {c : Char} {k v s : String}
  {vs : List String} {r : Requirement} {Valid : List Char → Prop}

/-! ### Keys and values -/

theorem isValueChar_iff : isValueChar c = true ↔ IsValueLetter c := by
  have halnum : c.isAlphanum = true ↔
      'a' ≤ c ∧ c ≤ 'z' ∨ 'A' ≤ c ∧ c ≤ 'Z' ∨ '0' ≤ c ∧ c ≤ '9' := by
    rw [Text.isAlphanum_iff_toNat]
    rfl
  simp only [isValueChar, IsValueLetter, Bool.or_eq_true, decide_eq_true_eq, halnum, or_assoc]

theorem isKeyChar_iff : isKeyChar c = true ↔ IsValueLetter c ∨ c = '/' := by
  rw [isKeyChar, Bool.or_eq_true, isValueChar_iff, decide_eq_true_eq]

theorem isKey_eq_true_iff : isKey cs = true ↔ IsKey cs := by
  simp only [isKey, IsKey, Bool.and_eq_true, Bool.not_eq_true', List.isEmpty_eq_false_iff,
    List.all_eq_true, isKeyChar_iff]

theorem isValue_eq_true_iff : isValue cs = true ↔ IsValue cs := by
  simp only [isValue, IsValue, List.all_eq_true, isValueChar_iff]

/-- The codes of a key lie between those of the hyphen and the last letter. -/
theorem toNat_of_isKeyChar (h : isKeyChar c = true) : 0x2D ≤ c.toNat ∧ c.toNat ≤ 0x7A := by
  simp only [isKeyChar, isValueChar, Bool.or_eq_true, decide_eq_true_eq] at h
  rcases h with (((h | rfl) | rfl) | rfl) | rfl
  · have hranges := Text.isAlphanum_iff_toNat.mp h
    omega
  all_goals decide

theorem isBlank_of_isKeyChar (h : isKeyChar c = true) : isBlank c = false := by
  obtain ⟨hlow, hhigh⟩ := toNat_of_isKeyChar h
  exact Text.isBlank_of_visible (by omega) (by omega)

theorem isKeyChar_of_isKey (h : IsKey cs) (hc : c ∈ cs) : isKeyChar c = true :=
  isKeyChar_iff.mpr (h.2 c hc)

theorem isKeyChar_of_isValue (h : IsValue cs) (hc : c ∈ cs) : isKeyChar c = true :=
  isKeyChar_iff.mpr (.inl (h c hc))

theorem solid_of_isKey (h : IsKey cs) : Solid cs := fun _ hc =>
  isBlank_of_isKeyChar (isKeyChar_of_isKey h hc)

theorem solid_of_isValue (h : IsValue cs) : Solid cs := fun _ hc =>
  isBlank_of_isKeyChar (isKeyChar_of_isValue h hc)

theorem isWord_of_isKey (h : IsKey cs) : IsWord cs :=
  ⟨solid_of_isKey h, h.1⟩

/-- A valid text needs no blanks around it. -/
theorem Between.own (h : Valid s.toList) : Between Valid s.toList s :=
  ⟨h, .refl s.toList⟩

/-- Reading what trimming leaves finds the valid text between blanks. -/
theorem read_eq_ok_iff {valid : List Char → Bool} (hvalid : ∀ {cs}, valid cs = true ↔ Valid cs)
    (hsolid : ∀ cs, Valid cs → Solid cs) (e : SelectorDefect) :
    (if valid (Text.trim p) then Except.ok (String.ofList (Text.trim p)) else .error e) = .ok s ↔
      Between Valid p s := by
  constructor
  · intro h
    split at h
    · rename_i htrim
      cases h
      refine ⟨?_, ?_⟩
      · rwa [String.toList_ofList, ← hvalid]
      · rw [String.toList_ofList]
        exact Text.padded_trim p
    · cases h
  · rintro ⟨hs, hpadded⟩
    rw [hpadded.trim_eq (hsolid s.toList hs), if_pos (hvalid.mpr hs), String.ofList_toList]

theorem parseKey_eq_ok_iff : parseKey p = .ok k ↔ KeyIn p k :=
  read_eq_ok_iff isKey_eq_true_iff (fun _ => solid_of_isKey) _

theorem parseValue_eq_ok_iff : parseValue p = .ok v ↔ ValueIn p v :=
  read_eq_ok_iff isValue_eq_true_iff (fun _ => solid_of_isValue) _

/-! ### Reading finds what the grammar derives -/

theorem valuesIn_of_parse (h : (splitCommas inside).mapM parseValue = .ok vs)
    (hvs : ¬ vs.all String.isEmpty = true) : ValuesIn inside vs := by
  refine ⟨inside.splitOn ',', List.splitOn_ne_nil ',' inside, (List.intercalate_splitOn ',').symm,
    ?_, ?_⟩
  · rw [mapM_eq_ok_iff, splitCommas_eq_splitOn] at h
    exact h.imp fun _ _ => parseValue_eq_ok_iff.mp
  · simpa using hvs

theorem keyBefore_of_words (h : Text.words p = [q, word]) (hk : KeyIn q k) :
    KeyBefore word p k := by
  obtain ⟨p, c, gap, rfl, hp, hc, hgap, -, -⟩ := Text.words_eq_pair_iff.mp h
  exact ⟨p, c, gap, rfl, ⟨hk.valid, hp.trans hk.padded⟩, hc, hgap⟩

theorem written_of_parseSet (h : parseSet cs before after = .ok r) :
    Written (before ++ '(' :: after) r := by
  unfold parseSet at h
  split at h
  · rename_i inside hclose
    rw [eq_of_dropClose? hclose, ← List.cons_append]
    obtain ⟨vs, hvalues, h⟩ := bind_eq_ok.mp h
    dsimp only at h
    split at h
    · cases h
    · rename_i hempty
      have hvs := valuesIn_of_parse hvalues hempty
      split at h
      · rename_i key hwords
        obtain ⟨k, hk, heq⟩ := bind_eq_ok.mp h
        cases heq
        exact .set .oneOf (keyBefore_of_words hwords (parseKey_eq_ok_iff.mp hk)) hvs fun _ =>
          TextSet.mem_toList_ofList
      · rename_i key hwords
        obtain ⟨k, hk, heq⟩ := bind_eq_ok.mp h
        cases heq
        exact .set .noneOf (keyBefore_of_words hwords (parseKey_eq_ok_iff.mp hk)) hvs fun _ =>
          TextSet.mem_toList_ofList
      · cases h
  · cases h

theorem Written.within (h : Written cs r) : WrittenIn cs r :=
  ⟨cs, .refl cs, h⟩

theorem writtenIn_of_parseTrimmed (h : parseTrimmed cs = .ok r) : WrittenIn cs r := by
  unfold parseTrimmed at h
  split at h
  · cases h
  · obtain ⟨k, hk, heq⟩ := bind_eq_ok.mp h
    cases heq
    exact (Written.absent (parseKey_eq_ok_iff.mp hk)).within
  · split at h
    · rename_i p q hcut
      obtain ⟨k, hk, h⟩ := bind_eq_ok.mp h
      obtain ⟨v, hv, heq⟩ := bind_eq_ok.mp h
      cases heq
      rw [eq_of_cutPair hcut]
      exact (Written.notEqual (parseKey_eq_ok_iff.mp hk) (parseValue_eq_ok_iff.mp hv)).within
    · split at h
      · rename_i p q hcut
        obtain ⟨k, hk, h⟩ := bind_eq_ok.mp h
        obtain ⟨v, hv, heq⟩ := bind_eq_ok.mp h
        cases heq
        have hkey := parseKey_eq_ok_iff.mp hk
        have hvalue := parseValue_eq_ok_iff.mp hv
        rcases Option.or_eq_some_iff.mp hcut with hcut | ⟨-, hcut⟩
        · rw [eq_of_cutPair hcut]
          exact (Written.equalTwice hkey hvalue).within
        · rw [eq_of_cut hcut]
          exact (Written.equal hkey hvalue).within
      · split at h
        · rename_i before after hcut
          rw [eq_of_cut hcut]
          exact (written_of_parseSet h).within
        · obtain ⟨k, hk, heq⟩ := bind_eq_ok.mp h
          cases heq
          have hkey := parseKey_eq_ok_iff.mp hk
          exact ⟨k.toList, hkey.padded, .present hkey.valid⟩

theorem writtenIn_of_parse (h : parse p = .ok r) : WrittenIn p r := by
  obtain ⟨body, hbody, hwritten⟩ := writtenIn_of_parseTrimmed h
  exact ⟨body, (Text.padded_trim p).trans hbody, hwritten⟩

/-! ### What the grammar derives is read -/

/-- There is nothing in `p` but blanks and characters of keys. -/
def Plain (p : List Char) : Prop :=
  ∀ c ∈ p, isBlank c = true ∨ isKeyChar c = true

/-- Whether `c` is neither a blank nor a character of keys. -/
def isMark (c : Char) : Bool :=
  !isBlank c && !isKeyChar c

theorem Plain.not_mem (h : Plain p) (hmark : isMark c = true) : c ∉ p := by
  intro hc
  rw [isMark, Bool.and_eq_true, Bool.not_eq_true', Bool.not_eq_true'] at hmark
  rcases h c hc with hblank | hkey
  · rw [hmark.1] at hblank
    cases hblank
  · rw [hmark.2] at hkey
    cases hkey

theorem plain_of_blank (h : AllBlank p) : Plain p := fun c hc => .inl (h c hc)

theorem Plain.append (hp : Plain p) (hq : Plain q) : Plain (p ++ q) := by
  intro c hc
  rcases List.mem_append.mp hc with hc | hc
  · exact hp c hc
  · exact hq c hc

theorem plain_of_padded (h : Padded p cs) (hcs : ∀ c ∈ cs, isKeyChar c = true) : Plain p := by
  obtain ⟨before, after, hbefore, hafter, rfl⟩ := h
  exact ((plain_of_blank hbefore).append fun c hc => .inr (hcs c hc)).append (plain_of_blank hafter)

theorem KeyIn.plain (h : KeyIn p k) : Plain p :=
  plain_of_padded h.padded fun _ => isKeyChar_of_isKey h.valid

theorem ValueIn.plain (h : ValueIn p v) : Plain p :=
  plain_of_padded h.padded fun _ => isKeyChar_of_isValue h.valid

theorem KeyIn.ne_nil (h : KeyIn p k) : p ≠ [] := by
  rintro rfl
  obtain ⟨before, after, -, -, heq⟩ := h.padded
  have hword := isWord_of_isKey h.valid
  exact hword.ne_nil (by simp_all)

/-- Nothing that begins with blanks and characters of keys begins with an exclamation mark. -/
theorem Plain.append_ne_bang (h : Plain p) (hne : p ≠ []) (q cs : List Char) :
    p ++ q ≠ '!' :: cs := by
  obtain ⟨x, p, rfl⟩ := List.exists_cons_of_ne_nil hne
  intro heq
  obtain ⟨rfl, -⟩ := List.cons.inj heq
  exact h.not_mem (by decide) List.mem_cons_self

theorem parseTrimmed_key (hk : KeyIn p k) : parseTrimmed p = .ok (.present k) := by
  have hbang : '!' ∉ p := hk.plain.not_mem (by decide)
  have hequals : '=' ∉ p := hk.plain.not_mem (by decide)
  have hopen : '(' ∉ p := hk.plain.not_mem (by decide)
  rw [parseTrimmed, cutPair_of_not_mem hbang, cutPair_of_not_mem hequals, cut_of_not_mem hequals,
    cut_of_not_mem hopen, parseKey_eq_ok_iff.mpr hk]
  · rfl
  · exact hk.ne_nil
  · rintro key rfl
    exact hbang List.mem_cons_self

theorem parseTrimmed_absent (hk : KeyIn p k) : parseTrimmed ('!' :: p) = .ok (.absent k) := by
  rw [parseTrimmed, parseKey_eq_ok_iff.mpr hk]
  rfl

theorem parseTrimmed_notEqual (hk : KeyIn p k) (hv : ValueIn q v) :
    parseTrimmed (p ++ '!' :: '=' :: q) = .ok (.notEqual k v) := by
  have hbang : '!' ∉ p := hk.plain.not_mem (by decide)
  rw [parseTrimmed, cutPair_append hbang q]
  · dsimp only
    rw [parseKey_eq_ok_iff.mpr hk, parseValue_eq_ok_iff.mpr hv]
    rfl
  · simp
  · exact hk.plain.append_ne_bang hk.ne_nil _

/-- Without an exclamation mark the first equality sign counts, or the first two in a row. -/
theorem parseTrimmed_equal_of_cut (hk : KeyIn p k) (hv : ValueIn q v) (hne : cs ≠ [])
    (hbang : '!' ∉ cs) (hcut : (cutPair '=' '=' cs).or (cut '=' cs) = some (p, q)) :
    parseTrimmed cs = .ok (.equal k v) := by
  rw [parseTrimmed, cutPair_of_not_mem hbang, hcut]
  · dsimp only
    rw [parseKey_eq_ok_iff.mpr hk, parseValue_eq_ok_iff.mpr hv]
    rfl
  · exact hne
  · rintro key rfl
    exact hbang List.mem_cons_self

theorem parseTrimmed_equal (hk : KeyIn p k) (hv : ValueIn q v) :
    parseTrimmed (p ++ '=' :: q) = .ok (.equal k v) := by
  have hbang : '!' ∉ p ++ '=' :: q := by
    simp [hk.plain.not_mem (c := '!') (by decide), hv.plain.not_mem (c := '!') (by decide)]
  have hp : '=' ∉ p := hk.plain.not_mem (by decide)
  have hq : '=' ∉ q := hv.plain.not_mem (by decide)
  refine parseTrimmed_equal_of_cut hk hv (by simp) hbang ?_
  rw [cutPair_of_lone hp hq, cut_append hp]
  rfl

theorem parseTrimmed_equalTwice (hk : KeyIn p k) (hv : ValueIn q v) :
    parseTrimmed (p ++ '=' :: '=' :: q) = .ok (.equal k v) := by
  have hbang : '!' ∉ p ++ '=' :: '=' :: q := by
    simp [hk.plain.not_mem (c := '!') (by decide), hv.plain.not_mem (c := '!') (by decide)]
  have hp : '=' ∉ p := hk.plain.not_mem (by decide)
  refine parseTrimmed_equal_of_cut hk hv (by simp) hbang ?_
  rw [cutPair_append hp]
  rfl

/-! ### Sets -/

theorem mem_intercalate {parts : List (List Char)} (h : c ∈ [','].intercalate parts) :
    c = ',' ∨ ∃ p ∈ parts, c ∈ p := by
  induction parts with
  | nil => cases h
  | cons p parts ih =>
    by_cases hparts : parts = []
    · subst hparts
      rw [List.intercalate_singleton] at h
      exact .inr ⟨p, List.mem_cons_self, h⟩
    · rw [List.intercalate_cons_of_ne_nil hparts, List.mem_append, List.mem_append,
        List.mem_singleton] at h
      rcases h with (h | h) | h
      · exact .inr ⟨p, List.mem_cons_self, h⟩
      · exact .inl h
      · rcases ih h with h | ⟨q, hq, hc⟩
        · exact .inl h
        · exact .inr ⟨q, List.mem_cons_of_mem p hq, hc⟩

/-- The values of a list are plain. -/
theorem plain_of_values {parts : List (List Char)} (h : List.Forall₂ ValueIn parts vs) :
    ∀ p ∈ parts, Plain p :=
  ((List.forall₂_and_left parts vs).mp (h.imp fun _ _ hv => ⟨ValueIn.plain hv, hv⟩)).1

/-- A list of values has commas, blanks and characters of keys. -/
theorem ValuesIn.not_mem (h : ValuesIn inside vs) (hcomma : c ≠ ',') (hmark : isMark c = true) :
    c ∉ inside := by
  intro hc
  obtain ⟨parts, -, rfl, hvalues, -⟩ := h
  rcases mem_intercalate hc with hc | ⟨p, hp, hc⟩
  · exact hcomma hc
  · exact (plain_of_values hvalues p hp).not_mem hmark hc

theorem ValuesIn.parse (h : ValuesIn inside vs) :
    (splitCommas inside).mapM parseValue = .ok vs ∧ ¬ vs.all String.isEmpty = true := by
  obtain ⟨parts, hne, rfl, hvalues, hvs⟩ := h
  have hcommas : ∀ p ∈ parts, ',' ∉ p := fun p hp =>
    (plain_of_values hvalues p hp).not_mem (by decide)
  refine ⟨?_, by simpa using hvs⟩
  rw [splitCommas_eq_splitOn, List.splitOn_intercalate ',' hcommas hne, mapM_eq_ok_iff]
  exact hvalues.imp fun _ _ => parseValue_eq_ok_iff.mpr

theorem SetWord.isKeyChar {ask : String → TextSet → Requirement} (h : SetWord word ask) :
    ∀ c ∈ word, isKeyChar c = true := by
  rw [← List.all_eq_true]
  cases h <;> decide

theorem SetWord.isWord {ask : String → TextSet → Requirement} (h : SetWord word ask) :
    IsWord word := by
  refine ⟨fun c hc => isBlank_of_isKeyChar (h.isKeyChar c hc), ?_⟩
  cases h <;> simp

theorem KeyBefore.isKey (h : KeyBefore word p k) : IsKey k.toList := by
  obtain ⟨q, c, gap, -, hk, -, -⟩ := h
  exact hk.valid

theorem KeyBefore.words (h : KeyBefore word p k) (hword : IsWord word) :
    Text.words p = [k.toList, word] := by
  obtain ⟨q, c, gap, rfl, hk, hc, hgap⟩ := h
  exact Text.words_eq_pair_iff.mpr
    ⟨q, c, gap, rfl, hk.padded, hc, hgap, isWord_of_isKey hk.valid, hword⟩

theorem KeyBefore.plain (h : KeyBefore word p k) (hword : ∀ c ∈ word, isKeyChar c = true) :
    Plain p := by
  obtain ⟨q, c, gap, rfl, hk, hc, hgap⟩ := h
  have hmiddle : Plain (c :: word) := by
    intro d hd
    rcases List.mem_cons.mp hd with rfl | hd
    · exact .inl hc
    · exact .inr (hword d hd)
  exact (hk.plain.append hmiddle).append (plain_of_blank hgap)

theorem parseSet_of_words {ask : String → TextSet → Requirement} (hword : SetWord word ask)
    (hwords : Text.words p = [k.toList, word]) (hk : IsKey k.toList)
    (hvs : ValuesIn inside vs) (whole : List Char) :
    parseSet whole p (inside ++ [')']) = .ok (ask k (TextSet.ofList vs)) := by
  obtain ⟨hvalues, hempty⟩ := hvs.parse
  have hkey : parseKey k.toList = .ok k := parseKey_eq_ok_iff.mpr (.own hk)
  unfold parseSet
  rw [dropClose?_append]
  dsimp only
  rw [hvalues, ok_bind, if_neg hempty, hwords]
  cases hword with
  | oneOf =>
    change (parseKey k.toList >>= _) = _
    rw [hkey]
    rfl
  | noneOf =>
    change (parseKey k.toList >>= _) = _
    rw [hkey]
    rfl

theorem parseTrimmed_set {ask : String → TextSet → Requirement} (hword : SetWord word ask)
    (hwords : Text.words p = [k.toList, word]) (hk : IsKey k.toList) (hp : Plain p)
    (hvs : ValuesIn inside vs) :
    parseTrimmed (p ++ ('(' :: inside ++ [')'])) = .ok (ask k (TextSet.ofList vs)) := by
  have hbang : '!' ∉ p ++ ('(' :: inside ++ [')']) := by
    simp [hp.not_mem (c := '!') (by decide), hvs.not_mem (c := '!') (by decide) (by decide)]
  have hequals : '=' ∉ p ++ ('(' :: inside ++ [')']) := by
    simp [hp.not_mem (c := '=') (by decide), hvs.not_mem (c := '=') (by decide) (by decide)]
  have hopen : '(' ∉ p := hp.not_mem (by decide)
  have hne : p ≠ [] := by
    rintro rfl
    cases hwords
  rw [parseTrimmed, cutPair_of_not_mem hbang, cutPair_of_not_mem hequals, cut_of_not_mem hequals,
    List.cons_append, cut_append hopen]
  · exact parseSet_of_words hword hwords hk hvs _
  · simp
  · exact hp.append_ne_bang hne _

/-! ### Blanks around a requirement -/

theorem trim_set (ha : AllBlank after) :
    Text.trim (p ++ ('(' :: inside ++ [')']) ++ after) =
      Text.trimStart p ++ ('(' :: inside ++ [')']) := by
  have hopen : isBlank '(' = false := by decide
  have hclose : isBlank ')' = false := by decide
  have hafter : Text.trimEnd after = [] := Text.trimEnd_append_of_blank ha []
  calc Text.trim (p ++ ('(' :: inside ++ [')']) ++ after)
      = Text.trim (p ++ '(' :: (inside ++ ')' :: after)) := by simp
    _ = Text.trimStart p ++ '(' :: (inside ++ ')' :: Text.trimEnd after) := by
      rw [Text.trim_append_cons hopen, Text.trimEnd_append_cons hclose]
    _ = Text.trimStart p ++ ('(' :: inside ++ [')']) := by rw [hafter]; simp

/-- A mark between two parts keeps the blanks around these from each other. -/
theorem trim_mark (hc : isBlank c = false) :
    Text.trim (before ++ (p ++ c :: q) ++ after) =
      Text.trimStart (before ++ p) ++ c :: Text.trimEnd (q ++ after) := by
  rw [← Text.trim_append_cons hc]
  simp

theorem Between.outside_left (h : Between Valid p s) (hs : Solid s.toList) (hb : AllBlank before) :
    Between Valid (Text.trimStart (before ++ p)) s :=
  ⟨h.valid, (h.padded.append_left hb).trimStart hs⟩

theorem Between.outside_right (h : Between Valid p s) (hs : Solid s.toList) (ha : AllBlank after) :
    Between Valid (Text.trimEnd (p ++ after)) s :=
  ⟨h.valid, (h.padded.append_right ha).trimEnd hs⟩

theorem parse_of_writtenIn (h : WrittenIn p r) : parse p = .ok r := by
  obtain ⟨body, ⟨before, after, hb, ha, rfl⟩, hbody⟩ := h
  have hbang : isBlank '!' = false := by decide
  have hequals : isBlank '=' = false := by decide
  unfold parse
  cases hbody with
  | @present k hk =>
    have hpadded : Padded (before ++ k.toList ++ after) k.toList := ⟨before, after, hb, ha, rfl⟩
    rw [hpadded.trim_eq (solid_of_isKey hk)]
    exact parseTrimmed_key (.own hk)
  | @absent p k hk =>
    have hblank : Text.trimStart (before ++ []) = [] := Text.trimStart_append_of_blank hb []
    rw [← List.nil_append ('!' :: p), trim_mark hbang, hblank]
    exact parseTrimmed_absent (hk.outside_right (solid_of_isKey hk.valid) ha)
  | @equal p q k v hk hv =>
    rw [trim_mark hequals]
    exact parseTrimmed_equal (hk.outside_left (solid_of_isKey hk.valid) hb)
      (hv.outside_right (solid_of_isValue hv.valid) ha)
  | @equalTwice p q k v hk hv =>
    rw [trim_mark hequals, ← List.nil_append ('=' :: q), List.append_assoc,
      List.cons_append, Text.trimEnd_append_cons hequals]
    exact parseTrimmed_equalTwice (hk.outside_left (solid_of_isKey hk.valid) hb)
      (hv.outside_right (solid_of_isValue hv.valid) ha)
  | @notEqual p q k v hk hv =>
    rw [trim_mark hbang, ← List.nil_append ('=' :: q), List.append_assoc,
      List.cons_append, Text.trimEnd_append_cons hequals]
    exact parseTrimmed_notEqual (hk.outside_left (solid_of_isKey hk.valid) hb)
      (hv.outside_right (solid_of_isValue hv.valid) ha)
  | @set word ask p inside k vs s hword hk hvs hs =>
    obtain rfl := TextSet.eq_ofList hs
    have hwords : Text.words (Text.trimStart (before ++ p)) = [k.toList, word] := by
      rw [Text.words_trimStart, Text.words_append_of_blank hb, hk.words hword.isWord]
    have hplain : Plain (Text.trimStart (before ++ p)) := fun c hc =>
      (plain_of_blank hb).append (hk.plain hword.isKeyChar) c ((List.dropWhile_sublist _).mem hc)
    rw [← List.append_assoc, trim_set ha]
    exact parseTrimmed_set hword hwords hk.isKey hplain hvs

/-- Reading a requirement finds just what the grammar derives. -/
theorem parse_eq_ok_iff : parse p = .ok r ↔ WrittenIn p r :=
  ⟨writtenIn_of_parse, parse_of_writtenIn⟩

theorem WrittenIn.not_allBlank (h : WrittenIn p r) : ¬ AllBlank p := by
  intro hblank
  have hparse := parse_of_writtenIn h
  rw [parse, Text.trim_eq_nil_iff.mpr hblank] at hparse
  cases hparse

/-! ### Requirements between commas -/

open Selector (Passes)

theorem Plain.passes (h : Plain p) : Passes 0 0 p := by
  refine .of_flat fun c hc => ⟨?_, ?_, ?_⟩
  · rintro rfl
    exact h.not_mem (by decide) hc
  · rintro rfl
    exact h.not_mem (by decide) hc
  · rintro rfl
    exact absurd hc (h.not_mem (by decide))

theorem passes_bang : Passes 0 0 ['!'] := .single (by decide) (by decide)

theorem passes_equals : Passes 0 0 ['='] := .single (by decide) (by decide)

/-- A requirement is gone through as a whole. -/
theorem Written.passes (h : Written cs r) : Passes 0 0 cs := by
  cases h with
  | present hk => exact Plain.passes fun c hc => .inr (isKeyChar_of_isKey hk hc)
  | absent hk => exact passes_bang.append hk.plain.passes
  | equal hk hv => exact hk.plain.passes.append (passes_equals.append hv.plain.passes)
  | equalTwice hk hv =>
    exact hk.plain.passes.append (passes_equals.append (passes_equals.append hv.plain.passes))
  | notEqual hk hv =>
    exact hk.plain.passes.append (passes_bang.append (passes_equals.append hv.plain.passes))
  | set hword hk hvs _ =>
    refine (hk.plain hword.isKeyChar).passes.append (.parentheses fun c hc => ⟨?_, ?_⟩)
    · rintro rfl
      exact hvs.not_mem (by decide) (by decide) hc
    · rintro rfl
      exact hvs.not_mem (by decide) (by decide) hc

theorem WrittenIn.passes (h : WrittenIn p r) : Passes 0 0 p := by
  obtain ⟨body, ⟨before, after, hb, ha, rfl⟩, hbody⟩ := h
  exact ((plain_of_blank hb).passes.append hbody.passes).append (plain_of_blank ha).passes

end Requirement

namespace Selector

variable {cs : List Char} {sel : Selector}

/-- What the grammar derives is read. -/
theorem parseChars_of_written (h : Written cs sel) : parseChars cs = .ok sel := by
  unfold parseChars
  cases h with
  | blank hblank =>
    rw [Text.trim_eq_nil_iff.mpr hblank]
    rfl
  | @list parts rs hne hparts =>
    have hpasses : ∀ p ∈ parts, Passes 0 0 p :=
      ((List.forall₂_and_left parts rs).mp (hparts.imp fun _ _ h => ⟨h.passes, h⟩)).1
    have hparse : parts.mapM Requirement.parse = .ok rs :=
      mapM_eq_ok_iff.mpr (hparts.imp fun _ _ => Requirement.parse_eq_ok_iff.mpr)
    have htrim : ¬ (Text.trim ([','].intercalate parts)).isEmpty = true := by
      rw [List.isEmpty_iff, Text.trim_eq_nil_iff]
      intro hblank
      cases hparts with
      | nil => exact hne rfl
      | @cons p r parts rs hp hparts =>
        refine hp.not_allBlank fun c hc => hblank c ?_
        cases parts with
        | nil => rwa [List.intercalate_singleton]
        | cons q parts =>
          rw [List.intercalate_cons_cons, List.append_assoc]
          exact List.mem_append_left _ hc
    rw [if_neg htrim, splitTop_intercalate hne hpasses]
    dsimp only
    rw [hparse]
    rfl

/-- What is read is derived by the grammar. -/
theorem written_of_parseChars (h : parseChars cs = .ok sel) : Written cs sel := by
  unfold parseChars at h
  split at h
  · rename_i hempty
    cases h
    exact .blank (Text.trim_eq_nil_iff.mp (List.isEmpty_iff.mp hempty))
  · split at h
    · cases h
    · rename_i parts hparts
      obtain ⟨rs, hrs, heq⟩ := bind_eq_ok.mp h
      cases heq
      rw [← intercalate_of_splitTop hparts]
      refine .list ?_ ((mapM_eq_ok_iff.mp hrs).imp fun _ _ => Requirement.parse_eq_ok_iff.mp)
      rintro rfl
      exact splitTop_ne_nil 0 cs hparts

theorem parse_eq_ok_iff_chars {s : String} : parse s = .ok sel ↔ parseChars s.toList = .ok sel := by
  unfold parse
  cases parseChars s.toList with
  | ok sel' =>
    constructor
    · intro h
      cases h
      rfl
    · intro h
      cases h
      rfl
  | error d => exact ⟨nofun, nofun⟩

/-- **The grammar of selectors.** A text is read as a selector just if the grammar derives this
selector from it. -/
theorem accepts_exactly_its_grammar (s : String) (sel : Selector) :
    parse s = .ok sel ↔ Written s.toList sel := by
  rw [parse_eq_ok_iff_chars]
  exact ⟨written_of_parseChars, parseChars_of_written⟩

end Selector
end ClusterKit
