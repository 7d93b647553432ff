/-
Lagotto.Text.PercentEncoding — percent encoding of an address and the
decoding of a form value.

The two are not inverse to each other. `encode` leaves the characters an
address may have alone, `+` among them, and writes every byte of any other
character as `%XX`. `unescape` reads `%XX` as a byte and `+` as a space.
`unescape_encode` says what a text is read back as. The inverse of `unescape`
is `escape` (`unescape_escape`), so different texts are escaped differently.
The lemmas on `encode` say
what a scanner sees of the text in its encoding: the legal characters as they
are, and a percent sign for each other one.
-/
import Mathlib.Data.List.TakeWhile
import Lagotto.Text.Paths
import Lagotto.Text.Substitution

namespace Lagotto.Text

/-! ## Encoding -/

/-- The characters that stand for themselves in an address. -/
def legal (c : Char) : Bool := uriChar c && c != '%'

def hexUpper (n : Nat) : Char := if n < 10 then Char.ofNat (48 + n) else Char.ofNat (55 + n)

/-- A byte as `%XX`. -/
def percent (b : UInt8) : List Char := ['%', hexUpper (b.toNat / 16), hexUpper (b.toNat % 16)]

def encodeChar (c : Char) : List Char :=
  if legal c then [c] else (String.utf8EncodeChar c).flatMap percent

/-- `Addressable::URI.encode` -/
def encode (l : List Char) : List Char := l.flatMap encodeChar

/-- The characters that stand for themselves in a form value. -/
def plain (c : Char) : Bool := c.isAlphanum || c == '_' || c == '.' || c == '-'

def escapeChar (c : Char) : List Char :=
  if c = ' ' then ['+']
  else if plain c then [c] else (String.utf8EncodeChar c).flatMap percent

/-- `CGI.escape` -/
def escape (l : List Char) : List Char := l.flatMap escapeChar

/-! ## Decoding -/

def hexValue (c : Char) : Option Nat :=
  if c.isDigit then some (c.toNat - 48)
  else if 'a' ≤ c ∧ c ≤ 'f' then some (c.toNat - 87)
  else if 'A' ≤ c ∧ c ≤ 'F' then some (c.toNat - 55)
  else none

/-- The bytes of a form value. -/
def unescapeBytes : List Char → List UInt8
  | '%' :: a :: b :: rest =>
    match hexValue a, hexValue b with
    | some x, some y => UInt8.ofNat (16 * x + y) :: unescapeBytes rest
    | _, _ => String.utf8EncodeChar '%' ++ unescapeBytes (a :: b :: rest)
  | '+' :: rest => String.utf8EncodeChar ' ' ++ unescapeBytes rest
  | c :: rest => String.utf8EncodeChar c ++ unescapeBytes rest
  | [] => []

/-- `CGI.unescape`: none where the bytes are no text. -/
def unescape (l : List Char) : Option (List Char) :=
  (unescapeBytes l).toByteArray.utf8Decode?.map Array.toList

/-- `tr('+', ' ')` -/
def plusToSpace (c : Char) : Char := if c = '+' then ' ' else c

/-! ## What is read back -/

theorem hexValue_hexUpper : ∀ n : Fin 16, hexValue (hexUpper n) = some n.val := by decide

theorem unescapeBytes_percent (b : UInt8) (rest : List Char) :
    unescapeBytes (percent b ++ rest) = b :: unescapeBytes rest := by
  have hb : b.toNat < 256 := b.toNat_lt
  have hhigh : hexValue (hexUpper (b.toNat / 16)) = some (b.toNat / 16) :=
    hexValue_hexUpper ⟨b.toNat / 16, by omega⟩
  have hlow : hexValue (hexUpper (b.toNat % 16)) = some (b.toNat % 16) :=
    hexValue_hexUpper ⟨b.toNat % 16, by omega⟩
  have hbyte : UInt8.ofNat (16 * (b.toNat / 16) + b.toNat % 16) = b := by
    rw [Nat.div_add_mod]
    exact UInt8.ofNat_toNat
  simp [percent, unescapeBytes, hhigh, hlow, hbyte]

theorem unescapeBytes_percents (bytes : List UInt8) (rest : List Char) :
    unescapeBytes (bytes.flatMap percent ++ rest) = bytes ++ unescapeBytes rest := by
  induction bytes with
  | nil => rfl
  | cons b bytes ih =>
    rw [List.flatMap_cons, List.append_assoc, unescapeBytes_percent, ih, List.cons_append]

theorem unescapeBytes_cons {c : Char} (hc : c ≠ '%') (rest : List Char) :
    unescapeBytes (c :: rest) = String.utf8EncodeChar (plusToSpace c) ++ unescapeBytes rest := by
  by_cases hplus : c = '+'
  · subst hplus
    simp [unescapeBytes, plusToSpace]
  · rw [plusToSpace, if_neg hplus]
    rw [unescapeBytes]
    all_goals simp_all

theorem unescapeBytes_encodeChar (c : Char) (rest : List Char) :
    unescapeBytes (encodeChar c ++ rest) =
      String.utf8EncodeChar (plusToSpace c) ++ unescapeBytes rest := by
  unfold encodeChar
  split
  · next hc =>
    have hne : c ≠ '%' := by
      intro h
      subst h
      simp [legal] at hc
    exact unescapeBytes_cons hne rest
  · next hc =>
    have hne : c ≠ '+' := by
      intro h
      subst h
      exact hc (by decide)
    rw [plusToSpace, if_neg hne, unescapeBytes_percents]

theorem unescapeBytes_escapeChar (c : Char) (rest : List Char) :
    unescapeBytes (escapeChar c ++ rest) = String.utf8EncodeChar c ++ unescapeBytes rest := by
  unfold escapeChar
  split
  · next hspace =>
    subst hspace
    exact unescapeBytes_cons (by decide) rest
  · next hspace =>
    split
    · next hc =>
      have hpercent : c ≠ '%' := by
        intro h
        subst h
        exact absurd hc (by decide)
      have hplus : c ≠ '+' := by
        intro h
        subst h
        exact absurd hc (by decide)
      rw [List.singleton_append, unescapeBytes_cons hpercent, plusToSpace, if_neg hplus]
    · next => rw [unescapeBytes_percents]

/-- A text whose characters are written so that they are read back as others is
read back as the text of those. -/
theorem unescape_flatMap {write : Char → List Char} {read : Char → Char} {l : List Char}
    (hread : ∀ c ∈ l, ∀ rest, unescapeBytes (write c ++ rest) =
      String.utf8EncodeChar (read c) ++ unescapeBytes rest) :
    unescape (l.flatMap write) = some (l.map read) := by
  have hbytes : unescapeBytes (l.flatMap write) =
      (l.map read).flatMap String.utf8EncodeChar := by
    induction l with
    | nil => rfl
    | cons c l ih =>
      rw [List.flatMap_cons, hread c List.mem_cons_self,
        ih (fun d hd => hread d (List.mem_cons_of_mem c hd)), List.map_cons, List.flatMap_cons]
  have hutf8 : (unescapeBytes (l.flatMap write)).toByteArray = (l.map read).utf8Encode := by
    rw [hbytes, List.utf8Encode]
  rw [unescape, hutf8, List.utf8Decode?_utf8Encode]
  rfl

/-- An encoded text is read back with spaces for its plus signs. -/
theorem unescape_encode (l : List Char) : unescape (encode l) = some (l.map plusToSpace) :=
  unescape_flatMap (fun c _ => unescapeBytes_encodeChar c)

/-- An escaped text is read back as it was. -/
theorem unescape_escape (l : List Char) : unescape (escape l) = some l := by
  have h : unescape (escape l) = some (l.map id) :=
    unescape_flatMap (fun c _ => unescapeBytes_escapeChar c)
  rwa [List.map_id] at h

/-- A text without escapes is read as it is, but for its plus signs. -/
theorem unescape_of_not_mem {l : List Char} (h : '%' ∉ l) :
    unescape l = some (l.map plusToSpace) := by
  have hread : unescape (l.flatMap (fun c => [c])) = some (l.map plusToSpace) := by
    refine unescape_flatMap ?_
    intro c hc rest
    exact unescapeBytes_cons (fun hpercent => h (hpercent ▸ hc)) rest
  rwa [List.flatMap_singleton'] at hread

theorem escape_injective {l r : List Char} (h : escape l = escape r) : l = r := by
  have hl := unescape_escape l
  rw [h, unescape_escape] at hl
  exact (Option.some.inj hl).symm

/-! ## What a scanner sees -/

theorem encodeChar_of_legal {c : Char} (h : legal c) : encodeChar c = [c] := if_pos h

theorem encode_of_legal {l : List Char} (h : ∀ c ∈ l, legal c) : encode l = l := by
  induction l with
  | nil => rfl
  | cons c l ih =>
    rw [encode, List.flatMap_cons, encodeChar_of_legal (h c (by simp)), ← encode,
      ih fun d hd => h d (by simp [hd])]
    rfl

theorem encode_append (l r : List Char) : encode (l ++ r) = encode l ++ encode r :=
  List.flatMap_append

theorem encodeChar_of_not_legal {c : Char} (h : ¬ legal c) :
    ∃ rest, encodeChar c = '%' :: rest := by
  obtain ⟨b, bytes, hbytes⟩ := List.exists_cons_of_ne_nil (String.utf8EncodeChar_ne_nil (c := c))
  rw [encodeChar, if_neg h, hbytes, List.flatMap_cons, percent]
  exact ⟨_, rfl⟩

section Span

variable {p : Char → Bool} (hlegal : ∀ c, p c → legal c)

include hlegal

theorem takeWhile_encode (l : List Char) : (encode l).takeWhile p = l.takeWhile p := by
  have hpercent : p '%' = false := by
    by_contra h
    exact absurd (hlegal '%' (by simpa using h)) (by decide)
  induction l with
  | nil => rfl
  | cons c l ih =>
    by_cases hc : legal c
    · have hcons : encode (c :: l) = c :: encode l := by
        rw [encode, List.flatMap_cons, encodeChar_of_legal hc]
        rfl
      rw [hcons, List.takeWhile_cons, List.takeWhile_cons, ih]
    · obtain ⟨rest, hrest⟩ := encodeChar_of_not_legal hc
      have hpc : p c = false := by
        by_contra h
        exact hc (hlegal c (by simpa using h))
      rw [encode, List.flatMap_cons, hrest, List.cons_append,
        List.takeWhile_cons_of_neg (by simp [hpercent]),
        List.takeWhile_cons_of_neg (by simp [hpc])]

theorem dropWhile_encode (l : List Char) : (encode l).dropWhile p = encode (l.dropWhile p) := by
  have htake : encode (l.takeWhile p) = l.takeWhile p :=
    encode_of_legal fun c hc => hlegal c (List.mem_takeWhile_imp hc)
  have hsplit : l.takeWhile p ++ (encode l).dropWhile p =
      l.takeWhile p ++ encode (l.dropWhile p) := by
    conv_lhs => rw [← takeWhile_encode hlegal l, List.takeWhile_append_dropWhile]
    conv_lhs => rw [← List.takeWhile_append_dropWhile (p := p) (l := l), encode_append, htake]
  exact List.append_cancel_left hsplit

end Span

theorem prefix_encode {s : List Char} (hs : ∀ c ∈ s, legal c) (l : List Char) :
    s <+: encode l ↔ s <+: l := by
  induction s generalizing l with
  | nil => simp
  | cons d s ih =>
    cases l with
    | nil => simp [encode]
    | cons c l =>
      by_cases hc : legal c
      · rw [encode, List.flatMap_cons, encodeChar_of_legal hc, List.singleton_append,
          List.cons_prefix_cons, List.cons_prefix_cons, ← encode,
          ih fun e he => hs e (by simp [he])]
      · obtain ⟨rest, hrest⟩ := encodeChar_of_not_legal hc
        have hd : legal d := hs d (by simp)
        rw [encode, List.flatMap_cons, hrest, List.cons_append, List.cons_prefix_cons,
          List.cons_prefix_cons]
        constructor
        · rintro ⟨rfl, -⟩
          exact absurd hd (by decide)
        · rintro ⟨rfl, -⟩
          exact absurd hd hc

/-! ## Escapes of legal characters do not occur -/

/-- A byte below 128 in the encoding of a character is that character. -/
theorem eq_of_mem_utf8EncodeChar {c : Char} {b : UInt8} (hb : b ∈ String.utf8EncodeChar c)
    (hlow : b.toNat < 128) : c.toNat = b.toNat := by
  have hval : c.toNat = c.val.toNat := rfl
  -- the first byte of a longer encoding is at least 192, the others at least 128
  unfold String.utf8EncodeChar at hb
  simp only at hb
  split at hb
  · simp only [List.mem_cons, List.not_mem_nil, or_false] at hb
    rw [hb, UInt8.toNat_ofNat', hval]
    omega
  · split at hb
    · simp only [List.mem_cons, List.not_mem_nil, or_false] at hb
      obtain rfl | rfl := hb <;> rw [UInt8.toNat_ofNat'] at hlow <;> omega
    · split at hb
      · simp only [List.mem_cons, List.not_mem_nil, or_false] at hb
        obtain rfl | rfl | rfl := hb <;> rw [UInt8.toNat_ofNat'] at hlow <;> omega
      · simp only [List.mem_cons, List.not_mem_nil, or_false] at hb
        obtain rfl | rfl | rfl | rfl := hb <;> rw [UInt8.toNat_ofNat'] at hlow <;> omega

theorem hexUpper_ne_percent : ∀ n : Fin 16, hexUpper n ≠ '%' := by decide

theorem percent_injective {a b : UInt8} (h : percent a = percent b) : a = b := by
  have hread := congrArg unescapeBytes (congrArg (· ++ []) h)
  simp only [unescapeBytes_percent] at hread
  simpa using hread

/-- An escape is copied when the pattern matches neither at it nor at its
digits. -/
theorem gsub_percent_append {m : Pattern Char} {b : UInt8} {rest : List Char}
    (hfirst : m (percent b ++ rest) = none)
    (hdigit : ∀ (n : Fin 16) l, m (hexUpper n :: l) = none) :
    gsub m (percent b ++ rest) = percent b ++ gsub m rest := by
  have hb : b.toNat < 256 := b.toNat_lt
  have hhigh := hdigit ⟨b.toNat / 16, by omega⟩ (hexUpper (b.toNat % 16) :: rest)
  have hlow := hdigit ⟨b.toNat % 16, by omega⟩ rest
  simp only [percent, List.cons_append, List.nil_append] at hfirst ⊢
  rw [gsub_of_none hfirst, gsub_of_none hhigh, gsub_of_none hlow]

/-- Escapes are copied when the pattern matches neither at one nor at a
digit. -/
theorem gsub_percents_append {m : Pattern Char} {bytes : List UInt8}
    (hfirst : ∀ b ∈ bytes, ∀ rest, m (percent b ++ rest) = none)
    (hdigit : ∀ (n : Fin 16) l, m (hexUpper n :: l) = none) (rest : List Char) :
    gsub m (bytes.flatMap percent ++ rest) = bytes.flatMap percent ++ gsub m rest := by
  induction bytes with
  | nil => rfl
  | cons b bytes ih =>
    rw [List.flatMap_cons, List.append_assoc, gsub_percent_append (hfirst b (by simp) _) hdigit,
      ih fun b hb => hfirst b (by simp [hb]), List.append_assoc]

/-- The escape of a byte is not mistaken for that of another. -/
theorem gsub_percents {a : UInt8} {bytes : List UInt8} (h : a ∉ bytes) (text rest : List Char) :
    gsub (literal (percent a) text) (bytes.flatMap percent ++ rest) =
      bytes.flatMap percent ++ gsub (literal (percent a) text) rest := by
  apply gsub_percents_append
  · intro b hb rest
    rw [literal_eq_none]
    intro hstart
    have hsame : percent a <+: percent b :=
      List.prefix_of_prefix_length_le hstart (List.prefix_append _ _) (le_refl 3)
    have hab : a = b := percent_injective (hsame.eq_of_length rfl)
    exact h (hab ▸ hb)
  · intro n l
    rw [literal_eq_none, percent, List.cons_prefix_cons]
    exact fun h => hexUpper_ne_percent n h.1.symm

/-- The escape of a legal character is not in an encoded text. -/
theorem gsub_encode {a : UInt8} (hascii : a.toNat < 128) (hlegal : legal (Char.ofNat a.toNat))
    (text l : List Char) : gsub (literal (percent a) text) (encode l) = encode l := by
  induction l with
  | nil => rfl
  | cons c l ih =>
    rw [encode, List.flatMap_cons, ← encode]
    by_cases hc : legal c
    · have hne : c ≠ '%' := by
        intro h
        subst h
        exact absurd hc (by decide)
      rw [encodeChar_of_legal hc, gsub_literal_append (c := '%') rfl (by simp [hne.symm]), ih]
    · have hnot : a ∉ String.utf8EncodeChar c := by
        intro hmem
        apply hc
        rw [← eq_of_mem_utf8EncodeChar hmem hascii, Char.ofNat_toNat] at hlegal
        exact hlegal
      rw [encodeChar, if_neg hc, gsub_percents hnot, ih]

end Lagotto.Text
