/-
Lagotto.Work.IdHashTheorems — what `get_id_hash` makes of a URL.

The three substitutions come first. `restoreId_eq_self_iff` says which
identifiers they leave alone: none of them adds a percent sign and the first
two take one away, so a count settles that none has fired. An encoded text has
no escaped slash or colon, and the third substitution commutes with encoding
(`gsub_httpSlashes_encode`), so a DOI is followed through without looking at
its encoding.

Then there is one equivalence for each kind of URL: an identifier behind a
base that the table of beginnings knows (`getIdHash_rest_eq_iff`), a DOI
(`getIdHash_doi_eq_iff`), and any other URL (`getIdHash_url_eq_iff`).
-/
import Lagotto.Work.IdHash
import Lagotto.Work.RowTheorems

namespace Lagotto

open Relational Text

/-! ## The double slash -/

/-- The parts of a match: the scheme, some slashes and a word. -/
def SlashMatch (l : List Char) (taken : Nat) (text : List Char) : Prop :=
  ∃ scheme n word rest, (scheme = ['h', 't', 't', 'p'] ∨ scheme = ['h', 't', 't', 'p', 's']) ∧
    l = scheme ++ ':' :: (List.replicate (n + 1) '/' ++ (word ++ rest)) ∧ word ≠ [] ∧
    (∀ c ∈ word, wordChar c) ∧ taken = scheme.length + 1 + (n + 1) + word.length ∧
    text = scheme ++ [':', '/', '/'] ++ word

theorem slashMatch_of_schemeSlashes {scheme l : List Char} {taken : Nat} {text : List Char}
    (hscheme : scheme = ['h', 't', 't', 'p'] ∨ scheme = ['h', 't', 't', 'p', 's'])
    (h : schemeSlashes scheme l = some (taken, text)) : SlashMatch l taken text := by
  unfold schemeSlashes at h
  split at h
  · next hstart =>
    obtain ⟨tail, rfl⟩ := hstart
    have hdrop : (scheme ++ [':'] ++ tail).drop (scheme.length + 1) = tail := by
      rw [List.drop_append_of_le_length (by simp)]
      simp
    simp only [hdrop] at h
    split at h
    · cases h
    · next hne =>
      simp only [Bool.or_eq_true, List.isEmpty_iff, not_or] at hne
      simp only [Option.some.injEq, Prod.mk.injEq] at h
      have hslashes : tail.takeWhile (· == '/') =
          List.replicate (tail.takeWhile (· == '/')).length '/' :=
        List.eq_replicate_of_mem fun c hc => by simpa using List.mem_takeWhile_imp hc
      have hpos : 0 < (tail.takeWhile (· == '/')).length := List.length_pos_iff.mpr hne.1
      refine ⟨scheme, (tail.takeWhile (· == '/')).length - 1,
        (tail.dropWhile (· == '/')).takeWhile wordChar,
        (tail.dropWhile (· == '/')).dropWhile wordChar, hscheme, ?_, hne.2,
        fun c hc => List.mem_takeWhile_imp hc, ?_, h.2.symm⟩
      · rw [Nat.sub_add_cancel hpos, ← hslashes, List.takeWhile_append_dropWhile,
          List.takeWhile_append_dropWhile]
        simp
      · rw [Nat.sub_add_cancel hpos]
        exact h.1.symm
  · cases h

theorem slashMatch_of_httpSlashes {l : List Char} {taken : Nat} {text : List Char}
    (h : httpSlashes l = some (taken, text)) : SlashMatch l taken text := by
  rcases Option.or_eq_some_iff.mp h with h | ⟨-, h⟩
  · exact slashMatch_of_schemeSlashes (.inl rfl) h
  · exact slashMatch_of_schemeSlashes (.inr rfl) h

namespace SlashMatch

variable {l text : List Char} {taken : Nat}

theorem legal_of_wordChar {c : Char} (h : wordChar c) : legal c := by
  simp only [wordChar, Bool.or_eq_true, beq_iff_eq] at h
  rcases h with h | rfl
  · have hne : c ≠ '%' := by
      intro hc
      subst hc
      exact absurd h (by decide)
    simp [legal, uriChar, h, hne]
  · decide

/-- What a match takes: the parts without what follows. -/
theorem take_eq {scheme word rest : List Char} {n : Nat} :
    (scheme ++ ':' :: (List.replicate (n + 1) '/' ++ (word ++ rest))).take
        (scheme.length + 1 + (n + 1) + word.length) =
      scheme ++ ':' :: (List.replicate (n + 1) '/' ++ word) := by
  have hsplit : scheme ++ ':' :: (List.replicate (n + 1) '/' ++ (word ++ rest)) =
      (scheme ++ ':' :: (List.replicate (n + 1) '/' ++ word)) ++ rest := by simp
  rw [hsplit, List.take_left']
  simp
  omega

theorem bounds (h : SlashMatch l taken text) : 0 < taken ∧ taken ≤ l.length := by
  obtain ⟨scheme, n, word, rest, -, rfl, -, -, rfl, -⟩ := h
  simp only [List.length_append, List.length_cons, List.length_replicate]
  omega

theorem subset (h : SlashMatch l taken text) : ∀ c ∈ text, c ∈ l := by
  obtain ⟨scheme, n, word, rest, -, rfl, -, -, -, rfl⟩ := h
  intro c hc
  simp only [List.mem_append, List.mem_cons, List.not_mem_nil, or_false] at hc
  simp only [List.mem_append, List.mem_cons, List.mem_replicate]
  tauto

theorem legal_text (h : SlashMatch l taken text) : ∀ c ∈ text, legal c := by
  obtain ⟨scheme, n, word, rest, hscheme, -, -, hword, -, rfl⟩ := h
  have hfixed : ∀ c ∈ scheme ++ [':', '/', '/'], legal c := by
    rcases hscheme with rfl | rfl <;> exact List.all_eq_true.mp (by decide)
  intro c hc
  rcases List.mem_append.mp hc with hc | hc
  · exact hfixed c hc
  · exact legal_of_wordChar (hword c hc)

theorem take_subset (h : SlashMatch l taken text) : ∀ c ∈ l.take taken, c ∈ text := by
  obtain ⟨scheme, n, word, rest, -, rfl, -, -, rfl, rfl⟩ := h
  intro c hc
  simp only [take_eq, List.mem_append, List.mem_cons, List.mem_replicate] at hc
  simp only [List.mem_append, List.mem_cons, List.not_mem_nil, or_false]
  tauto

theorem legal_take (h : SlashMatch l taken text) : ∀ c ∈ l.take taken, legal c :=
  fun c hc => h.legal_text c (h.take_subset c hc)

/-- The replacement is only found in front of the text where there were two
slashes: a word does not begin with one. -/
theorem eq_take (h : SlashMatch l taken text) (hstart : text <+: l) : text = l.take taken := by
  obtain ⟨scheme, n, word, rest, -, rfl, hne, hword, rfl, rfl⟩ := h
  rw [take_eq]
  obtain ⟨c, word, rfl⟩ := List.exists_cons_of_ne_nil hne
  have hc : c ≠ '/' := by
    intro hc
    subst hc
    exact absurd (hword '/' (by simp)) (by decide)
  rw [List.append_assoc, List.prefix_append_right_inj] at hstart
  cases n with
  | zero =>
    simp only [List.replicate_succ, List.replicate_zero, List.cons_append, List.nil_append,
      List.cons_prefix_cons] at hstart
    exact absurd hstart.2.2.1.symm hc
  | succ n =>
    cases n with
    | zero => simp
    | succ n =>
      simp only [List.replicate_succ, List.cons_append, List.nil_append,
        List.cons_prefix_cons] at hstart
      exact absurd hstart.2.2.2.1 hc

end SlashMatch

theorem httpSlashes_proper : httpSlashes.Proper :=
  fun _ _ _ h => (slashMatch_of_httpSlashes h).bounds

theorem gsub_httpSlashes_eq_self_iff (l : List Char) :
    gsub httpSlashes l = l ↔ untouched httpSlashes l :=
  gsub_eq_self_iff httpSlashes_proper
    (fun _ _ _ h hstart => (slashMatch_of_httpSlashes h).eq_take hstart) l

theorem forall_mem_gsub_httpSlashes {P : Char → Prop} {l : List Char} (h : ∀ c ∈ l, P c) :
    ∀ c ∈ gsub httpSlashes l, P c :=
  forall_mem_gsub httpSlashes_proper
    (fun _ _ _ hmatch hl c hc => hl c ((slashMatch_of_httpSlashes hmatch).subset c hc)) h

theorem subset_gsub_httpSlashes (l : List Char) : ∀ c ∈ l, c ∈ gsub httpSlashes l :=
  subset_gsub httpSlashes_proper (fun _ _ _ h => (slashMatch_of_httpSlashes h).take_subset) l

/-! ## The expression in an encoded text -/

theorem schemeSlashes_encode {scheme : List Char} (hscheme : ∀ c ∈ scheme, legal c)
    (l : List Char) : schemeSlashes scheme (encode l) = schemeSlashes scheme l := by
  have hcolon : ∀ c ∈ scheme ++ [':'], legal c := by
    intro c hc
    rcases List.mem_append.mp hc with hc | hc
    · exact hscheme c hc
    · rw [List.mem_singleton.mp hc]
      decide
  have hslash : ∀ c : Char, (c == '/') = true → legal c := by
    intro c hc
    rw [beq_iff_eq.mp hc]
    decide
  unfold schemeSlashes
  by_cases hstart : scheme ++ [':'] <+: l
  · have hdrop : (encode l).drop (scheme.length + 1) = encode (l.drop (scheme.length + 1)) := by
      obtain ⟨tail, rfl⟩ := hstart
      have hlen : scheme.length + 1 = (scheme ++ [':']).length := by simp
      rw [encode_append, encode_of_legal hcolon, hlen, List.drop_left, List.drop_left]
    rw [if_pos ((prefix_encode hcolon l).mpr hstart), if_pos hstart]
    simp only [hdrop, takeWhile_encode hslash, dropWhile_encode hslash,
      takeWhile_encode fun _ => SlashMatch.legal_of_wordChar]
  · rw [if_neg (fun h => hstart ((prefix_encode hcolon l).mp h)), if_neg hstart]

/-- Encoding makes no match and breaks none. -/
theorem httpSlashes_encode (l : List Char) : httpSlashes (encode l) = httpSlashes l := by
  unfold httpSlashes
  rw [schemeSlashes_encode (List.all_eq_true.mp (by decide)),
    schemeSlashes_encode (List.all_eq_true.mp (by decide))]

theorem httpSlashes_of_ne {c : Char} (hc : c ≠ 'h') (l : List Char) :
    httpSlashes (c :: l) = none := by
  have hnone : ∀ scheme : List Char, scheme.head? = some 'h' →
      schemeSlashes scheme (c :: l) = none := by
    intro scheme hscheme
    rw [schemeSlashes, if_neg]
    cases scheme with
    | nil => simp at hscheme
    | cons d scheme =>
      rw [List.cons_append, List.cons_prefix_cons]
      have hd : d = 'h' := by simpa using hscheme
      exact fun h => hc (h.1.symm.trans hd)
  rw [httpSlashes, hnone _ rfl, hnone _ rfl]
  rfl

/-- Putting slashes back and encoding can be done in either order. -/
theorem gsub_httpSlashes_encode (l : List Char) :
    gsub httpSlashes (encode l) = encode (gsub httpSlashes l) := by
  apply gsub_flatMap httpSlashes_proper
  · intro l taken text h
    have hmatch := slashMatch_of_httpSlashes h
    have htake : (l.take taken).flatMap encodeChar = l.take taken :=
      encode_of_legal hmatch.legal_take
    have htext : text.flatMap encodeChar = text := encode_of_legal hmatch.legal_text
    rw [← encode, httpSlashes_encode, h, htake, htext, List.length_take,
      Nat.min_eq_left hmatch.bounds.2]
  · intro c l h
    by_cases hc : legal c
    · rw [encodeChar_of_legal hc]
      have hnone : httpSlashes (c :: encode l) = none := by
        rw [← h, ← httpSlashes_encode (c :: l), encode, encode, List.flatMap_cons,
          encodeChar_of_legal hc]
        rfl
      exact gsub_of_none hnone
    · rw [encodeChar, if_neg hc]
      have hdigit : ∀ n : Fin 16, hexUpper n ≠ 'h' := by decide
      exact gsub_percents_append (fun b _ rest => httpSlashes_of_ne (by decide) _)
        (fun n l => httpSlashes_of_ne (hdigit n) l) _

/-! ## Identifiers that are left alone -/

/-- An identifier without escaped slashes and colons, and with two slashes
wherever the expression looks. -/
def Verbatim (id : List Char) : Prop :=
  ¬ ['%', '2', 'F'] <:+: id ∧ ¬ ['%', '3', 'A'] <:+: id ∧ untouched httpSlashes id

instance (id : List Char) : Decidable (Verbatim id) := inferInstanceAs (Decidable (_ ∧ _ ∧ _))

theorem count_literal {pat text : List Char} (h : text.count '%' < pat.count '%') :
    ∀ l taken t, literal pat text l = some (taken, t) → t.count '%' < (l.take taken).count '%' := by
  intro l taken t hl
  rw [take_of_literal hl, (literal_eq_some hl).2.2]
  exact h

/-- A match of slashes makes no percent signs. -/
theorem count_httpSlashes (l : List Char) (taken : Nat) (text : List Char)
    (h : httpSlashes l = some (taken, text)) : text.count '%' ≤ (l.take taken).count '%' := by
  have hzero : text.count '%' = 0 := by
    rw [List.count_eq_zero]
    intro hmem
    exact absurd ((slashMatch_of_httpSlashes h).legal_text '%' hmem) (by decide)
  omega

/-- The three substitutions leave an identifier alone only if each of them
does: none of them adds a percent sign, and the first two take one away. -/
theorem restoreId_eq_self_iff (id : List Char) : restoreId id = id ↔ Verbatim id := by
  constructor
  · intro h
    have hslash : (literal ['%', '2', 'F'] ['/']).Proper := literal_proper (by simp)
    have hcolon : (literal ['%', '3', 'A'] [':']).Proper := literal_proper (by simp)
    have h1 := count_gsub_le hslash (fun l taken t hl =>
      (count_literal (by decide) l taken t hl).le) id
    have h2 := count_gsub_le hcolon (fun l taken t hl =>
      (count_literal (by decide) l taken t hl).le) (unescapeSlashes id)
    have h3 := count_gsub_le httpSlashes_proper count_httpSlashes
      (unescapeColons (unescapeSlashes id))
    have hlast : (gsub httpSlashes (unescapeColons (unescapeSlashes id))).count '%' =
      id.count '%' := congrArg _ h
    have hslashes : unescapeSlashes id = id :=
      gsub_eq_self_of_count hslash (count_literal (by decide)) (by
        unfold unescapeColons unescapeSlashes at *
        omega)
    rw [hslashes] at h2 h3 hlast
    have hcolons : unescapeColons id = id :=
      gsub_eq_self_of_count hcolon (count_literal (by decide)) (by
        unfold unescapeColons at *
        omega)
    rw [restoreId, hslashes, hcolons] at h
    exact ⟨not_infix_of_gsub_literal (by simp) (by decide) (by decide) hslashes,
      not_infix_of_gsub_literal (by simp) (by decide) (by decide) hcolons,
      (gsub_httpSlashes_eq_self_iff id).mp h⟩
  · rintro ⟨hslash, hcolon, hhttp⟩
    rw [restoreId, unescapeSlashes, gsub_literal_of_not_infix hslash, unescapeColons,
      gsub_literal_of_not_infix hcolon]
    exact (gsub_httpSlashes_eq_self_iff id).mpr hhttp

/-! ## One column at a time -/

/-- What the `*_as_url` methods put in front of an identifier, and the
beginning of an ARK. -/
def pidBases : List String :=
  ["http://doi.org/", "http://www.ncbi.nlm.nih.gov/pubmed/",
   "http://www.ncbi.nlm.nih.gov/pmc/articles/PMC", "http://arxiv.org/abs/", "http://n2t.net/",
   "ark:"]

theorem gsub_httpSlashes_base : ∀ base ∈ pidBases, ∀ v : List Char,
    gsub httpSlashes (base.toList ++ v) = base.toList ++ gsub httpSlashes v := by
  intro base hbase v
  simp only [pidBases, List.mem_cons, List.not_mem_nil, or_false] at hbase
  rcases hbase with rfl | rfl | rfl | rfl | rfl | rfl <;> rfl

/-- What is in front stays if nothing in it is escaped and no match begins in
it, but for those that end in it. -/
theorem restoreId_append {base : List Char} (hpercent : '%' ∉ base)
    (hslashes : ∀ v, gsub httpSlashes (base ++ v) = base ++ gsub httpSlashes v) (v : List Char) :
    restoreId (base ++ v) = base ++ restoreId v := by
  rw [restoreId, unescapeSlashes, gsub_literal_append (c := '%') rfl hpercent,
    unescapeColons, gsub_literal_append (c := '%') rfl hpercent, hslashes]
  rfl

/-- A resolver is kept as it is. -/
theorem restoreId_base {base : String} (hbase : base ∈ pidBases) (v : List Char) :
    restoreId (base.toList ++ v) = base.toList ++ restoreId v := by
  have hpercent : ∀ base ∈ pidBases, '%' ∉ base.toList := by decide
  exact restoreId_append (hpercent base hbase) (gsub_httpSlashes_base base hbase) v

/-- An identifier whose column is read off the beginning of its URL. -/
theorem getIdHash_rest (env : Env) {base : String} (hbase : base ∈ pidBases) {v : String}
    {c : Column} (hrule : idRule (base.toList ++ restoreId v.toList) = .rest c base.toList.length) :
    getIdHash env (some (base ++ v)) = .ok (some (c, String.ofList (restoreId v.toList))) := by
  simp only [getIdHash, String.toList_append, restoreId_base hbase, hrule, IdRule.apply,
    List.drop_left]
  rfl

theorem ofList_restoreId_eq_iff (v : String) :
    String.ofList (restoreId v.toList) = v ↔ Verbatim v.toList := by
  rw [← restoreId_eq_self_iff, String.ext_iff, String.toList_ofList]

/-- An identifier read off its URL is the one it was made from exactly if it
is left alone. -/
theorem getIdHash_rest_eq_iff (env : Env) (base : String) (hbase : base ∈ pidBases) {v : String}
    {c : Column} (hrule : idRule (base.toList ++ restoreId v.toList) = .rest c base.toList.length) :
    getIdHash env (some (base ++ v)) = .ok (some (c, v)) ↔ Verbatim v.toList := by
  rw [getIdHash_rest env hbase hrule, ← ofList_restoreId_eq_iff]
  simp

/-! ## The DOI -/

/-- Of an encoded text only the slashes are restored. -/
theorem restoreId_encode (l : List Char) :
    restoreId (encode l) = encode (gsub httpSlashes l) := by
  have hslash : percent 0x2F = ['%', '2', 'F'] := by decide
  have hcolon : percent 0x3A = ['%', '3', 'A'] := by decide
  rw [restoreId, unescapeSlashes, ← hslash, gsub_encode (by decide) (by decide), unescapeColons,
    ← hcolon, gsub_encode (by decide) (by decide), gsub_httpSlashes_encode]

/-- A DOI comes back with its slashes restored and pluses lost. -/
theorem getIdHash_doi (env : Env) (v : String) :
    getIdHash env (some (String.ofList (encode ("http://doi.org/" ++ v).toList))) =
      .ok (some (.doi,
        String.ofList ((gsub httpSlashes v.toList).map (fun c => (plusToSpace c).toLower)))) := by
  have hbase : "http://doi.org/" ∈ pidBases := by decide
  have hencode : encode ("http://doi.org/" ++ v).toList =
      "http://doi.org/".toList ++ encode v.toList := by
    rw [String.toList_append, encode_append, encode_of_legal (List.all_eq_true.mp (by decide))]
  have hrule : ∀ l, idRule ("http://doi.org/".toList ++ l) = .doi 15 := fun l => rfl
  have hdrop : ∀ l : List Char, ("http://doi.org/".toList ++ l).drop 15 = l := fun l => rfl
  have hlower : ∀ l : List Char,
      (String.ofList l).toLower = String.ofList (l.map Char.toLower) := by
    intro l
    rw [String.ext_iff]
    show (String.map Char.toLower _).toList = _
    simp
  simp only [getIdHash, hencode, String.toList_ofList, restoreId_base hbase, restoreId_encode,
    hrule, IdRule.apply, hdrop, unescaped, unescape_encode, Except.map, hlower, List.map_map]
  rfl

theorem toLower_plusToSpace_ne_plus (c : Char) : (plusToSpace c).toLower ≠ '+' := by
  unfold plusToSpace
  split
  · decide
  · next hc =>
    unfold Char.toLower
    split
    · next hupper =>
      intro h
      have hval := congrArg (fun c : Char => c.val.toNat) h
      revert hupper hval
      simp only [ge_iff_le, UInt32.le_iff_toNat_le]
      simp
      omega
    · exact hc

/-- A DOI comes back unless that changes it. -/
theorem getIdHash_doi_eq_iff (env : Env) {v : String} (hlower : v.toLower = v) :
    getIdHash env (some (String.ofList (encode ("http://doi.org/" ++ v).toList))) =
      .ok (some (.doi, v)) ↔ '+' ∉ v.toList ∧ untouched httpSlashes v.toList := by
  have hchars : ∀ c ∈ v.toList, c.toLower = c := by
    have hmap : v.toList.map Char.toLower = v.toList.map id := by
      conv_rhs => rw [List.map_id, ← hlower]
      show _ = (String.map Char.toLower v).toList
      simp
    exact List.map_inj_left.mp hmap
  rw [getIdHash_doi, ← gsub_httpSlashes_eq_self_iff]
  simp only [Except.ok.injEq, Option.some.injEq, Prod.mk.injEq, true_and]
  rw [String.ext_iff, String.toList_ofList]
  have hid : '+' ∉ v.toList →
      (gsub httpSlashes v.toList).map (fun c => (plusToSpace c).toLower) =
        gsub httpSlashes v.toList := by
    intro hplus
    have hall : ∀ c ∈ gsub httpSlashes v.toList, c.toLower = c ∧ c ≠ '+' :=
      forall_mem_gsub_httpSlashes fun c hc => ⟨hchars c hc, fun h => hplus (h ▸ hc)⟩
    conv_rhs => rw [← List.map_id (gsub httpSlashes v.toList)]
    refine List.map_inj_left.mpr fun c hc => ?_
    rw [plusToSpace, if_neg (hall c hc).2, (hall c hc).1, id]
  constructor
  · intro h
    have hplus : '+' ∉ v.toList := by
      rw [← h]
      intro hmem
      obtain ⟨c, -, hc⟩ := List.mem_map.mp hmem
      exact toLower_plusToSpace_ne_plus c hc
    exact ⟨hplus, (hid hplus).symm.trans h⟩
  · rintro ⟨hplus, hself⟩
    rw [hid hplus, hself]

/-! ## The URL -/

/-- The URLs that are read as an identifier of another kind. -/
def resolverRules : List (String × IdRule) := (idRules.drop 5).take 6

/-- The column a branch writes. -/
def IdRule.column : IdRule → Column
  | .doi _ | .doiAsIs | .doiUnderscored _ => .doi
  | .rest c _ => c
  | .url => .canonicalUrl

theorem IdRule.column_of_apply {env : Env} {id : List Char} {rule : IdRule} {c : Column}
    {v : String}
    (h : rule.apply env id = .ok (c, v)) : c = rule.column := by
  cases rule with
  | doi n => cases hu : unescaped (id.drop n) <;> simp_all [IdRule.apply, Except.map, IdRule.column]
  | doiAsIs => cases hu : unescaped id <;> simp_all [IdRule.apply, Except.map, IdRule.column]
  | doiUnderscored n => simp_all [IdRule.apply, IdRule.column]
  | rest c' n => simp_all [IdRule.apply, IdRule.column]
  | url =>
    cases hu : env.clean (String.ofList id) <;> simp_all [IdRule.apply, Except.map, IdRule.column]

/-- `http:` and `https:` are the last beginnings a URL can have. -/
theorem idRule_of_http {u : List Char}
    (hhttp : "http:".toList <+: u ∨ "https:".toList <+: u) :
    idRule u = .url ↔ ∀ rule ∈ resolverRules, ¬ rule.1.toList <+: u := by
  have hsplit : idRules = idRules.take 5 ++ (resolverRules ++ idRules.drop 11) := rfl
  have hfirst : (idRules.take 5).find? (fun rule => rule.1.toList.isPrefixOf u) = none := by
    have hhead : ∀ rule ∈ idRules.take 5, rule.1.toList.head? ≠ some 'h' ∧ rule.1.toList ≠ [] := by
      decide
    obtain ⟨tail, rfl⟩ : ∃ tail, u = 'h' :: tail := by
      rcases hhttp with ⟨t, rfl⟩ | ⟨t, rfl⟩ <;> exact ⟨_, rfl⟩
    rw [List.find?_eq_none]
    intro rule hrule hstart
    obtain ⟨hne, hcons⟩ := hhead rule hrule
    obtain ⟨c, cs, hcs⟩ := List.exists_cons_of_ne_nil hcons
    rw [hcs, List.isPrefixOf_iff_prefix, List.cons_prefix_cons] at hstart
    rw [hcs, hstart.1] at hne
    exact hne rfl
  have hlast : ((idRules.drop 11).find? (fun rule => rule.1.toList.isPrefixOf u)).map Prod.snd =
      some .url := by
    rcases hhttp with ⟨t, rfl⟩ | ⟨t, rfl⟩ <;> rfl
  have hurl : ∀ rule ∈ resolverRules, rule.2 ≠ .url := by decide
  rw [idRule, hsplit, List.find?_append, List.find?_append, hfirst, Option.none_or]
  cases hfound : resolverRules.find? (fun rule => rule.1.toList.isPrefixOf u) with
  | some rule =>
    have hmem := List.mem_of_find?_eq_some hfound
    have hfits : rule.1.toList.isPrefixOf u = true := by simpa using List.find?_some hfound
    have hstart : rule.1.toList <+: u := List.isPrefixOf_iff_prefix.mp hfits
    simp only [Option.some_or]
    constructor
    · exact fun h => absurd h (hurl rule hmem)
    · exact fun h => absurd hstart (h rule hmem)
  | none =>
    obtain ⟨rule, hrule, hsnd⟩ := Option.map_eq_some_iff.mp hlast
    simp only [Option.none_or, hrule, hsnd, true_iff]
    intro r hr hstart
    exact List.find?_eq_none.mp hfound r hr (List.isPrefixOf_iff_prefix.mpr hstart)

/-- The substitutions leave the scheme of a URL in place. -/
theorem http_restoreId {u : List Char} (h : "http:".toList <+: u ∨ "https:".toList <+: u) :
    "http:".toList <+: restoreId u ∨ "https:".toList <+: restoreId u := by
  have hscheme : ∀ s ∈ ["http:", "https:"], ∀ t : List Char,
      "http:".toList <+: restoreId (s.toList ++ t) ∨
        "https:".toList <+: restoreId (s.toList ++ t) := by
    intro s hs t
    have hpercent : ∀ s ∈ ["http:", "https:"], '%' ∉ s.toList := by decide
    rw [restoreId, unescapeSlashes, gsub_literal_append (c := '%') rfl (hpercent s hs),
      unescapeColons, gsub_literal_append (c := '%') rfl (hpercent s hs)]
    generalize gsub _ (gsub _ t) = rest
    cases hmatch : httpSlashes (s.toList ++ rest) with
    | some found =>
      obtain ⟨taken, text⟩ := found
      obtain ⟨scheme, n, word, -, hscheme, -, -, -, -, rfl⟩ := slashMatch_of_httpSlashes hmatch
      rw [gsub_of_some httpSlashes_proper hmatch]
      rcases hscheme with rfl | rfl
      · exact .inl ⟨_, by simp; rfl⟩
      · exact .inr ⟨_, by simp; rfl⟩
    | none =>
      simp only [List.mem_cons, List.not_mem_nil, or_false] at hs
      rcases hs with rfl | rfl
      · exact .inl ⟨gsub httpSlashes rest, (gsub_of_none hmatch).symm⟩
      · exact .inr ⟨gsub httpSlashes rest, (gsub_of_none hmatch).symm⟩
  rcases h with ⟨t, rfl⟩ | ⟨t, rfl⟩
  · exact hscheme _ (by simp) t
  · exact hscheme _ (by simp) t

theorem idRule_eq_url_of_column {id : List Char} (h : (idRule id).column = .canonicalUrl) :
    idRule id = .url := by
  have hrules : ∀ rule ∈ idRules, rule.2.column = .canonicalUrl → rule.2 = .url := by decide
  unfold idRule at h ⊢
  split at h
  · next rule hrule => exact hrules rule (List.mem_of_find?_eq_some hrule) h
  · cases h

/-- A URL is read back as it is exactly if it is none of a resolver and
cleaning it gives it back. -/
theorem getIdHash_url_eq_iff (env : Env) {v : String}
    (hhttp : "http:".toList <+: v.toList ∨ "https:".toList <+: v.toList) :
    getIdHash env (some v) = .ok (some (.canonicalUrl, v)) ↔
      (∀ rule ∈ resolverRules, ¬ rule.1.toList <+: restoreId v.toList) ∧
        env.clean (String.ofList (restoreId v.toList)) = .ok v := by
  rw [← idRule_of_http (http_restoreId hhttp)]
  have hmap : getIdHash env (some v) =
      ((idRule (restoreId v.toList)).apply env (restoreId v.toList)).map some := rfl
  rw [hmap]
  constructor
  · intro h
    cases happly : (idRule (restoreId v.toList)).apply env (restoreId v.toList) with
    | error message => simp [happly, Except.map] at h
    | ok entry =>
      have hentry : entry = (.canonicalUrl, v) := by simpa [happly, Except.map] using h
      rw [hentry] at happly
      have hrule := idRule_eq_url_of_column (IdRule.column_of_apply happly).symm
      refine ⟨hrule, ?_⟩
      rw [hrule, IdRule.apply] at happly
      cases hclean : env.clean (String.ofList (restoreId v.toList)) with
      | error message => simp [hclean, Except.map] at happly
      | ok cleaned => simpa [hclean, Except.map] using happly
  · rintro ⟨hrule, hclean⟩
    rw [hrule, IdRule.apply, hclean]
    rfl

end Lagotto
