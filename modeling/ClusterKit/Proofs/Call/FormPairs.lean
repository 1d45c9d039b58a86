/-
# Reading form pairs

The reader of a query splits it at ampersands, passes over empty parts, and splits
each other part at its first equals sign. On either side of it a plus is a space, a
percent sign with two hexadecimal digits is a byte, and what is no text is replaced. All
that is written of pairs is read as these pairs again (`Form.read_pairs`), since no
written character is a separator.

Key definitions: `Form.bytes`, `Form.text`, `Form.read`.
Key theorems: `Form.bytes_encode`, `Form.read_pairs`.
-/
import ClusterKit.Json.Token
import ClusterKit.Proofs.Call.Address
import ClusterKit.Proofs.Text.Utf8

namespace ClusterKit

theorem Utf8.decodeLossy_encode (cs : List Char) : decodeLossy (encode cs) = cs := by
  have hpieces := pieces_encode_append cs []
  rw [List.append_nil, show pieces [] = [] from rfl, List.append_nil] at hpieces
  rw [decodeLossy, hpieces, List.map_map]
  exact List.map_id cs

namespace Form

open Json.Token (hexValue?)

/-! ### The reader -/

/-- The bytes that written characters stand for. -/
def bytes : List Char → List UInt8
  | [] => []
  | '%' :: high :: low :: cs =>
    match hexValue? high, hexValue? low with
    | some m, some n => UInt8.ofNat (16 * m + n) :: bytes cs
    | _, _ => Utf8.encodeChar '%' ++ bytes (high :: low :: cs)
  | '+' :: cs => Utf8.encodeChar ' ' ++ bytes cs
  | c :: cs => Utf8.encodeChar c ++ bytes cs

/-- The text that is read from written characters. -/
def text (cs : List Char) : String :=
  String.ofList (Utf8.decodeLossy (bytes cs))

/-- The name and the value that are read from a part of a query. -/
def readPair (cs : List Char) : String × String :=
  (text (cs.takeWhile (· ≠ '=')), text ((cs.dropWhile (· ≠ '=')).drop 1))

/-- The pairs that are read from a query. -/
def read (query : List Char) : List (String × String) :=
  ((query.splitOn '&').filter (!·.isEmpty)).map readPair

/-! ### Characters -/

theorem hexValue?_hexDigit : ∀ n < 16, hexValue? (hexDigit n) = some n := by
  decide

theorem bytes_percent_append (b : UInt8) (rest : List Char) :
    bytes (percent b ++ rest) = b :: bytes rest := by
  have hbyte : b.toNat < 256 := b.toNat_lt
  have hhigh : hexValue? (hexDigit (b.toNat / 16)) = some (b.toNat / 16) :=
    hexValue?_hexDigit _ (by omega)
  have hlow : hexValue? (hexDigit (b.toNat % 16)) = some (b.toNat % 16) :=
    hexValue?_hexDigit _ (by omega)
  have hwhole : UInt8.ofNat (16 * (b.toNat / 16) + b.toNat % 16) = b := by
    rw [Nat.div_add_mod, UInt8.ofNat_toNat]
  simp only [percent, List.cons_append, List.nil_append, bytes, hhigh, hlow, hwhole]

theorem bytes_flatMap_percent_append (bs : List UInt8) (rest : List Char) :
    bytes (bs.flatMap percent ++ rest) = bs ++ bytes rest := by
  induction bs with
  | nil => rfl
  | cons b bs ih => rw [List.flatMap_cons, List.append_assoc, bytes_percent_append, ih]; rfl

/-- A character that begins nothing stands for its own bytes. -/
theorem bytes_cons_of_isPlain {c : Char} (h : isPlain c = true) (rest : List Char) :
    bytes (c :: rest) = Utf8.encodeChar c ++ bytes rest := by
  have hpercent : c ≠ '%' := by rintro rfl; exact absurd h (by decide)
  have hplus : c ≠ '+' := by rintro rfl; exact absurd h (by decide)
  rw [bytes]
  · intro _ _ _ hc
    exact absurd hc hpercent
  · exact hplus

theorem bytes_encodeChar_append (c : Char) (rest : List Char) :
    bytes (encodeChar c ++ rest) = Utf8.encodeChar c ++ bytes rest := by
  unfold encodeChar
  split
  · rename_i hplain
    exact bytes_cons_of_isPlain hplain rest
  · split
    · rename_i hspace
      rw [hspace]
      rfl
    · exact bytes_flatMap_percent_append _ rest

/-- What is written for characters stands for their bytes. -/
theorem bytes_encode (cs : List Char) : bytes (encode cs) = Utf8.encode cs := by
  induction cs with
  | nil => rfl
  | cons c cs ih =>
    calc bytes (encodeChar c ++ encode cs)
        = Utf8.encodeChar c ++ bytes (encode cs) := bytes_encodeChar_append c _
      _ = Utf8.encode (c :: cs) := by rw [ih]; rfl

theorem text_encode (s : String) : text (encode s.toList) = s := by
  rw [text, bytes_encode, Utf8.decodeLossy_encode, String.ofList_toList]

/-! ### Separators -/

theorem ne_separator_of_mem_encode {cs : List Char} {c : Char} (h : c ∈ encode cs) :
    c ≠ '&' ∧ c ≠ '=' := by
  refine of_mem_encode (P := fun c => c ≠ '&' ∧ c ≠ '=') ?_ (by decide) (by decide) (by decide) h
  intro d hd
  constructor
  · rintro rfl
    exact absurd hd (by decide)
  · rintro rfl
    exact absurd hd (by decide)

/-- What is written of a pair behind the ampersand. -/
def part (p : String × String) : List Char :=
  encode p.1.toList ++ '=' :: encode p.2.toList

theorem not_mem_part (p : String × String) : '&' ∉ part p := by
  intro h
  rw [part, List.mem_append, List.mem_cons] at h
  rcases h with h | h | h
  · exact (ne_separator_of_mem_encode h).1 rfl
  · exact absurd h (by decide)
  · exact (ne_separator_of_mem_encode h).1 rfl

theorem readPair_part (p : String × String) : readPair (part p) = p := by
  have hname : ∀ c ∈ encode p.1.toList, decide (c ≠ '=') = true := fun c hc =>
    decide_eq_true (ne_separator_of_mem_encode hc).2
  have htake : (part p).takeWhile (· ≠ '=') = encode p.1.toList := by
    rw [part, List.takeWhile_append_of_pos hname]
    simp
  have hdrop : (part p).dropWhile (· ≠ '=') = '=' :: encode p.2.toList := by
    rw [part, List.dropWhile_append_of_pos hname]
    simp
  rw [readPair, htake, hdrop, List.drop_one, List.tail_cons, text_encode, text_encode]

theorem intercalate_parts (cs : List Char) (ps : List (String × String)) :
    ['&'].intercalate (cs :: ps.map part) = cs ++ pairs ps := by
  induction ps generalizing cs with
  | nil => simp [pairs]
  | cons p ps ih =>
    rw [List.map_cons, List.intercalate_cons_cons, ih]
    simp [pairs, pair, part]

/-- **Pairs are read back.** What is written of pairs is read as these pairs, in their order and
nothing else, whatever characters are in the names and the values. -/
theorem read_pairs (ps : List (String × String)) : read (pairs ps) = ps := by
  have hparts : ∀ cs ∈ [] :: ps.map part, '&' ∉ cs := by
    intro cs hcs
    rcases List.mem_cons.mp hcs with rfl | hcs
    · exact List.not_mem_nil
    · obtain ⟨p, -, rfl⟩ := List.mem_map.mp hcs
      exact not_mem_part p
  have hsplit : (pairs ps).splitOn '&' = [] :: ps.map part := by
    have h := List.splitOn_intercalate '&' hparts (List.cons_ne_nil _ _)
    rwa [intercalate_parts, List.nil_append] at h
  have hkeep : (ps.map part).filter (!·.isEmpty) = ps.map part := by
    rw [List.filter_eq_self]
    intro cs hcs
    obtain ⟨p, -, rfl⟩ := List.mem_map.mp hcs
    simp [part]
  have hback : readPair ∘ part = id := funext readPair_part
  rw [read, hsplit, List.filter_cons_of_neg (by simp), hkeep, List.map_map, hback, List.map_id]

end Form
end ClusterKit
