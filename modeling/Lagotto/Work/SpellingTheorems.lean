/-
Lagotto.Work.SpellingTheorems — identifiers that are written in several ways.

On the way to the server slashes and colons may be escaped, and the double slash
of a URL may lose one. The three substitutions undo this whatever the identifier
is (`restoreId_of_transported`): an escape that was put in neither joins with
the characters around it nor is told apart from one that was there before.

A DOI may have a label or a resolver in front. Behind each of them it is read
in lower case, by itself it is read as it is, and in all of them the double
slash is put back. So the spellings agree with each other and with what `Work`
stores exactly if there is nothing to be changed (`doi_spellings_agree_iff`).
-/
import Lagotto.Work.FindOrCreateTheorems
import Lagotto.Work.IdHashTheorems
import Lagotto.Work.Validity

namespace Lagotto

open Relational Text

/-! ## On the way to the server -/

/-- What a slash and a colon may be replaced by. -/
def transportCode (c : Char) (code : List Char) : Prop :=
  (c = '/' ∧ code = ['%', '2', 'F']) ∨ (c = ':' ∧ code = ['%', '3', 'A'])

/-- The same identifier, with another number of slashes behind its scheme. -/
def OtherSlashes (id id' : List Char) : Prop :=
  ∃ scheme n m c rest, (scheme = ['h', 't', 't', 'p'] ∨ scheme = ['h', 't', 't', 'p', 's']) ∧
    wordChar c = true ∧ id = scheme ++ ':' :: (List.replicate (n + 1) '/' ++ c :: rest) ∧
    id' = scheme ++ ':' :: (List.replicate (m + 1) '/' ++ c :: rest)

/-- What may become of an identifier: first of its leading slashes, then of any
slashes and colons. -/
def Transported (id id' : List Char) : Prop :=
  ∃ sent, (sent = id ∨ OtherSlashes id sent) ∧ Escaped transportCode sent id'

theorem unescape_of_escaped {id id' : List Char} (h : Escaped transportCode id id') :
    unescapeColons (unescapeSlashes id) = unescapeColons (unescapeSlashes id') := by
  have hcodes : ∀ c k, transportCode c k →
      k.head? = some '%' ∧ '%' ∉ k.tail ∧ k.length = 3 := by
    rintro c k (⟨-, rfl⟩ | ⟨-, rfl⟩) <;> decide
  have hplain : ∀ c k, transportCode c k → c ∉ ['%', '2', 'F'] ∧ c ∉ ['%', '3', 'A'] := by
    rintro c k (⟨rfl, -⟩ | ⟨rfl, -⟩) <;> decide
  have hslash : ∀ c, transportCode c ['%', '2', 'F'] → c = '/' := by
    rintro c (⟨rfl, -⟩ | ⟨-, hk⟩)
    · rfl
    · exact absurd hk (by decide)
  have hcolon : ∀ c, transportCode c ['%', '3', 'A'] → c = ':' := by
    rintro c (⟨-, hk⟩ | ⟨rfl, -⟩)
    · exact absurd hk (by decide)
    · rfl
  have hslashes := h.gsub_literal rfl (by decide) hcodes (fun c k hk => (hplain c k hk).1) hslash
  have hcolons := hslashes.gsub_literal rfl (by decide) (fun c k hk => hcodes c k hk.1)
    (fun c k hk => (hplain c k hk.1).2) (fun c hk => hcolon c hk.1)
  refine hcolons.eq_of_forall_not ?_
  rintro c k ⟨⟨⟨-, rfl⟩ | ⟨-, rfl⟩, hslash⟩, hcolon⟩
  · exact hslash rfl
  · exact hcolon rfl

theorem schemeSlashes_self {scheme rest : List Char} {c : Char} (hc : wordChar c = true)
    (n : Nat) :
    schemeSlashes scheme (scheme ++ ':' :: (List.replicate (n + 1) '/' ++ c :: rest)) =
      some (scheme.length + 1 + (n + 1) + ((c :: rest).takeWhile wordChar).length,
        scheme ++ [':', '/', '/'] ++ (c :: rest).takeWhile wordChar) := by
  have hslash : c ≠ '/' := by
    rintro rfl
    exact absurd hc (by decide)
  have hall : ∀ d ∈ List.replicate (n + 1) '/', (d == '/') = true := by
    intro d hd
    exact beq_iff_eq.mpr (List.eq_of_mem_replicate hd)
  have hdrop : (scheme ++ ':' :: (List.replicate (n + 1) '/' ++ c :: rest)).drop
      (scheme.length + 1) = List.replicate (n + 1) '/' ++ c :: rest := by
    rw [← List.drop_drop, List.drop_left]
    rfl
  have hstart : scheme ++ [':'] <+: scheme ++ ':' :: (List.replicate (n + 1) '/' ++ c :: rest) :=
    ⟨List.replicate (n + 1) '/' ++ c :: rest, by simp⟩
  have hslashes : (List.replicate (n + 1) '/' ++ c :: rest).takeWhile (· == '/') =
      List.replicate (n + 1) '/' := by
    rw [List.takeWhile_append_of_pos hall]
    simp [hslash]
  have hword : (List.replicate (n + 1) '/' ++ c :: rest).dropWhile (· == '/') = c :: rest := by
    rw [List.dropWhile_append_of_pos hall]
    simp [hslash]
  rw [schemeSlashes, if_pos hstart]
  simp only [hdrop, hslashes, hword, List.length_replicate]
  rw [if_neg]
  simp [List.replicate_succ, List.takeWhile_cons_of_pos hc]

/-- How many slashes there were does not matter. -/
theorem gsub_httpSlashes_scheme {scheme rest : List Char} {c : Char}
    (hscheme : scheme = ['h', 't', 't', 'p'] ∨ scheme = ['h', 't', 't', 'p', 's'])
    (hc : wordChar c = true) (n : Nat) :
    gsub httpSlashes (scheme ++ ':' :: (List.replicate (n + 1) '/' ++ c :: rest)) =
      scheme ++ [':', '/', '/'] ++ (c :: rest).takeWhile wordChar ++
        gsub httpSlashes ((c :: rest).dropWhile wordChar) := by
  have hmatch : httpSlashes (scheme ++ ':' :: (List.replicate (n + 1) '/' ++ c :: rest)) =
      some (scheme.length + 1 + (n + 1) + ((c :: rest).takeWhile wordChar).length,
        scheme ++ [':', '/', '/'] ++ (c :: rest).takeWhile wordChar) := by
    rcases hscheme with rfl | rfl
    · rw [httpSlashes, schemeSlashes_self hc, Option.some_or]
    · rw [httpSlashes, schemeSlashes_self hc]
      rfl
  have hsplit : scheme ++ ':' :: (List.replicate (n + 1) '/' ++ c :: rest) =
      scheme ++ ':' :: (List.replicate (n + 1) '/' ++ (c :: rest).takeWhile wordChar) ++
        (c :: rest).dropWhile wordChar := by
    simp only [List.append_assoc, List.cons_append, List.takeWhile_append_dropWhile]
  rw [gsub_of_some httpSlashes_proper hmatch]
  congr 2
  rw [hsplit]
  refine List.drop_left' ?_
  simp
  omega

theorem unescape_scheme {scheme rest : List Char} {c : Char}
    (hscheme : scheme = ['h', 't', 't', 'p'] ∨ scheme = ['h', 't', 't', 'p', 's'])
    (hc : wordChar c = true) (n : Nat) :
    unescapeColons (unescapeSlashes (scheme ++ ':' :: (List.replicate (n + 1) '/' ++ c :: rest))) =
      scheme ++ ':' :: (List.replicate (n + 1) '/' ++
        c :: unescapeColons (unescapeSlashes rest)) := by
  have hsplit : ∀ t, scheme ++ ':' :: (List.replicate (n + 1) '/' ++ c :: t) =
      (scheme ++ ':' :: (List.replicate (n + 1) '/' ++ [c])) ++ t := by simp
  have hpercent : '%' ∉ scheme ++ ':' :: (List.replicate (n + 1) '/' ++ [c]) := by
    have hword : c ≠ '%' := by
      rintro rfl
      exact absurd hc (by decide)
    rcases hscheme with rfl | rfl <;> simp [List.mem_replicate, hword.symm]
  rw [hsplit rest, hsplit (unescapeColons (unescapeSlashes rest)), unescapeSlashes,
    gsub_literal_append (c := '%') rfl hpercent, unescapeColons,
    gsub_literal_append (c := '%') rfl hpercent]
  rfl

theorem restoreId_of_otherSlashes {id id' : List Char} (h : OtherSlashes id id') :
    restoreId id' = restoreId id := by
  obtain ⟨scheme, n, m, c, rest, hscheme, hc, rfl, rfl⟩ := h
  simp only [restoreId, unescape_scheme hscheme hc, gsub_httpSlashes_scheme hscheme hc]

theorem restoreId_of_transported {id id' : List Char} (h : Transported id id') :
    restoreId id' = restoreId id := by
  obtain ⟨sent, hsent, hescaped⟩ := h
  have hrestored : restoreId id' = restoreId sent := by
    rw [restoreId, restoreId, unescape_of_escaped hescaped]
  rw [hrestored]
  rcases hsent with rfl | hslashes
  · rfl
  · exact restoreId_of_otherSlashes hslashes

/-- **What an identifier stands for does not depend on how it was sent.** -/
theorem getIdHash_of_transported (env : Env) (id id' : String)
    (h : Transported id.toList id'.toList) :
    getIdHash env (some id') = getIdHash env (some id) := by
  simp only [getIdHash, restoreId_of_transported h]

/-- A URL whose double slash was swallowed, with one slash and the colon
escaped. -/
theorem getIdHash_escaped_url :
    Transported "http://example.org/a".toList "http%3A/example.org%2Fa".toList ∧
      getIdHash plainEnv (some "http%3A/example.org%2Fa") =
        getIdHash plainEnv (some "http://example.org/a") := by
  have h : Transported "http://example.org/a".toList "http%3A/example.org%2Fa".toList := by
    refine ⟨"http:/example.org/a".toList, Or.inr ?_, ?_⟩
    · exact ⟨"http".toList, 1, 0, 'e', "xample.org/a".toList, Or.inl rfl, rfl, rfl, rfl⟩
    · have hslash : transportCode '/' ['%', '2', 'F'] := Or.inl ⟨rfl, rfl⟩
      have hcolon : transportCode ':' ['%', '3', 'A'] := Or.inr ⟨rfl, rfl⟩
      have hlast := Escaped.code hslash (Escaped.keep 'a' Escaped.nil)
      exact (Escaped.code hcolon (hlast.append_left "/example.org".toList)).append_left
        "http".toList
  exact ⟨h, getIdHash_of_transported plainEnv _ _ h⟩

/-! ## In front of a DOI -/

/-- What a DOI may have in front of it. -/
def doiLabels : List String :=
  ["doi:", "doi/", "info:doi/", "doi.org/", "http://doi.org/", "http://dx.doi.org/"]

theorem restoreId_label {label : String} (hlabel : label ∈ doiLabels) (v : List Char) :
    restoreId (label.toList ++ v) = label.toList ++ restoreId v := by
  have hpercent : ∀ label ∈ doiLabels, '%' ∉ label.toList := by decide
  refine restoreId_append (hpercent label hlabel) ?_ v
  intro v
  simp only [doiLabels, List.mem_cons, List.not_mem_nil, or_false] at hlabel
  rcases hlabel with rfl | rfl | rfl | rfl | rfl | rfl <;> rfl

theorem idRule_label {label : String} (hlabel : label ∈ doiLabels) (v : List Char) :
    idRule (label.toList ++ v) = .doi label.toList.length := by
  simp only [doiLabels, List.mem_cons, List.not_mem_nil, or_false] at hlabel
  rcases hlabel with rfl | rfl | rfl | rfl | rfl | rfl <;> rfl

section Plain

variable {d : String}

/-- Nothing to be unescaped. -/
structure Plain (d : String) : Prop where
  percent : '%' ∉ d.toList
  plus : '+' ∉ d.toList

theorem Plain.restoreId (h : Plain d) : restoreId d.toList = gsub httpSlashes d.toList := by
  have hnone : ∀ a b : Char, ¬ ['%', a, b] <:+: d.toList :=
    fun a b hinside => h.percent (hinside.subset List.mem_cons_self)
  rw [Lagotto.restoreId, unescapeSlashes, gsub_literal_of_not_infix (hnone '2' 'F'),
    unescapeColons, gsub_literal_of_not_infix (hnone '3' 'A')]

theorem Plain.unescaped (h : Plain d) :
    unescaped (gsub httpSlashes d.toList) = .ok (String.ofList (gsub httpSlashes d.toList)) := by
  have hplain : ∀ c ∈ gsub httpSlashes d.toList, c ≠ '%' ∧ c ≠ '+' :=
    forall_mem_gsub_httpSlashes fun c hc =>
      ⟨fun heq => h.percent (heq ▸ hc), fun heq => h.plus (heq ▸ hc)⟩
  have hself : (gsub httpSlashes d.toList).map plusToSpace = gsub httpSlashes d.toList := by
    conv_rhs => rw [← List.map_id (gsub httpSlashes d.toList)]
    exact List.map_congr_left (fun c hc => if_neg (hplain c hc).2)
  rw [Lagotto.unescaped, unescape_of_not_mem (fun hmem => (hplain '%' hmem).1 rfl), hself]

theorem getIdHash_label (env : Env) {label : String} (hlabel : label ∈ doiLabels) (h : Plain d) :
    getIdHash env (some (label ++ d)) =
      .ok (some (.doi, (String.ofList (gsub httpSlashes d.toList)).toLower)) := by
  simp only [getIdHash, String.toList_append, restoreId_label hlabel, idRule_label hlabel,
    IdRule.apply, List.drop_left, h.restoreId, h.unescaped]
  rfl

/-- By itself a DOI is not put into lower case. -/
theorem getIdHash_bare (env : Env) (hformat : doiFormat d = true) (h : Plain d) :
    getIdHash env (some d) = .ok (some (.doi, String.ofList (gsub httpSlashes d.toList))) := by
  have hrule : idRule (gsub httpSlashes d.toList) = .doiAsIs := by
    unfold doiFormat at hformat
    split at hformat
    next rest heq =>
      rw [heq]
      rfl
    next => cases hformat
  simp only [getIdHash, h.restoreId, hrule, IdRule.apply, h.unescaped]
  rfl

/-- The double slash is not put back where putting it back gives the DOI in
lower case. -/
theorem toLower_eq_self_of_gsub
    (h : gsub httpSlashes d.toList = d.toList.map Char.toLower) : d.toLower = d := by
  have hlower : ∀ c ∈ d.toList, c.toLower = c := by
    intro c hc
    have hmem := subset_gsub_httpSlashes d.toList c hc
    rw [h] at hmem
    obtain ⟨b, -, rfl⟩ := List.mem_map.mp hmem
    exact char_toLower_toLower b
  rw [String.ext_iff, toList_toLower]
  conv_rhs => rw [← List.map_id d.toList]
  exact List.map_congr_left hlower

end Plain

/-- **The spellings of a DOI agree, and give what a work with it stores, exactly
if it is in lower case and no `http:` in it has other than two slashes.** -/
theorem doi_spellings_agree_iff (env : Env) (w : Work) (d : String) (hdoi : w.col .doi = some d)
    (hformat : doiFormat d = true) (hplain : Plain d) :
    (∃ stored, w.normalizeDoi.col .doi = some stored ∧
        ∀ label ∈ "" :: doiLabels,
          getIdHash env (some (label ++ d)) = .ok (some (.doi, stored))) ↔
      d.toLower = d ∧ untouched httpSlashes d.toList = true := by
  have hstored : w.normalizeDoi.col .doi = some d.toLower := by
    rw [Work.col_normalizeDoi, if_pos rfl, hdoi, loweredDoi, if_pos]
    · rfl
    · simp [present, blank_of_doiFormat hformat]
  have hbare : getIdHash env (some ("" ++ d)) =
      .ok (some (.doi, String.ofList (gsub httpSlashes d.toList))) := by
    rw [String.empty_append]
    exact getIdHash_bare env hformat hplain
  constructor
  · rintro ⟨stored, hsame, hall⟩
    have hvalue := hall "" List.mem_cons_self
    rw [hstored] at hsame
    rw [hbare, ← Option.some.inj hsame] at hvalue
    have hgsub : gsub httpSlashes d.toList = d.toList.map Char.toLower := by
      rw [← toList_toLower, ← String.toList_ofList (l := gsub httpSlashes d.toList)]
      exact congrArg String.toList (by simpa using hvalue)
    have hlower := toLower_eq_self_of_gsub hgsub
    refine ⟨hlower, (gsub_httpSlashes_eq_self_iff d.toList).mp ?_⟩
    rw [hgsub, ← toList_toLower, hlower]
  · rintro ⟨hlower, huntouched⟩
    have hself : String.ofList (gsub httpSlashes d.toList) = d := by
      rw [(gsub_httpSlashes_eq_self_iff d.toList).mpr huntouched, String.ofList_toList]
    refine ⟨d, by rw [hstored, hlower], ?_⟩
    intro label hlabel
    rcases List.mem_cons.mp hlabel with rfl | hlabel
    · rw [hbare, hself]
    · rw [getIdHash_label env hlabel hplain, hself, hlower]

/-- A work with this DOI. -/
def workWithDoi (d : String) : Work := { col := fun c => if c = .doi then some d else none }

theorem journal_doi_spellings_agree :
    doiFormat "10.1371/journal.pone.0000001" = true ∧ Plain "10.1371/journal.pone.0000001" ∧
      ∃ stored, (workWithDoi "10.1371/journal.pone.0000001").normalizeDoi.col .doi = some stored ∧
        ∀ label ∈ "" :: doiLabels,
          getIdHash plainEnv (some (label ++ "10.1371/journal.pone.0000001")) =
            .ok (some (.doi, stored)) := by
  have hformat : doiFormat "10.1371/journal.pone.0000001" = true := by decide +kernel
  have hplain : Plain "10.1371/journal.pone.0000001" := ⟨by decide +kernel, by decide +kernel⟩
  refine ⟨hformat, hplain, ?_⟩
  exact (doi_spellings_agree_iff plainEnv (workWithDoi "10.1371/journal.pone.0000001") _ rfl
    hformat hplain).mpr ⟨by decide +kernel, by decide +kernel⟩

/-- In upper case, the DOI by itself is read as it is, and with a label in lower
case. -/
theorem upper_case_doi_spellings_differ :
    doiFormat "10.1371/JOURNAL.PONE.0000001" = true ∧ Plain "10.1371/JOURNAL.PONE.0000001" ∧
      (workWithDoi "10.1371/JOURNAL.PONE.0000001").normalizeDoi.col .doi =
        some "10.1371/journal.pone.0000001" ∧
      getIdHash plainEnv (some "doi:10.1371/JOURNAL.PONE.0000001") =
        .ok (some (.doi, "10.1371/journal.pone.0000001")) ∧
      getIdHash plainEnv (some "10.1371/JOURNAL.PONE.0000001") =
        .ok (some (.doi, "10.1371/JOURNAL.PONE.0000001")) := by
  refine ⟨by decide +kernel, ⟨by decide +kernel, by decide +kernel⟩, by decide +kernel, ?_, ?_⟩
  · decide +kernel
  · decide +kernel

end Lagotto
