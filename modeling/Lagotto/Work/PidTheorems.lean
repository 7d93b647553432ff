/-
Lagotto.Work.PidTheorems — when a pid is read back as the identifier it was
made from.

`set_pid` writes the first identifier of a work as a URL, and `get_id_hash`
reads a URL as a column and a value. The DOI goes through
`Addressable::URI.encode` on the way out and through `CGI.unescape` on the way
back, the other identifiers go out as they are. `pid_parsed_back_iff` says for
which values the two fit together:

* a DOI must not have a plus sign, which is read as a space;
* any other identifier must not have an escaped slash or colon, which are put
  back before anything is looked at;
* a URL must not be one of a resolver, which is read as the identifier behind
  it;
* and wherever `http:` is followed by slashes and a word, there must be two
  slashes.

Where they fit, looking the work up by its pid finds it, since the identifiers
have unique indexes. `canonical_url` has none, and the validator compares it
exactly: of two works whose URLs differ in case the first one is found.
-/
import Lagotto.Work.IdHashTheorems
import Lagotto.Work.ValidationTheorems
import Mathlib.Data.List.Find

namespace Lagotto

variable {env : Env} {others : List Work} {w : Work} {c : Column} {v : String}

open Relational Text

namespace Work

/-! ## The identifier a pid is made of -/

/-- The columns in the order `set_pid` tries them. -/
def pidColumns : List Column := [.doi, .pmid, .pmcid, .canonicalUrl, .arxiv, .ark]

/-- The column `set_pid` takes. -/
def pidColumn (w : Work) : Option Column := pidColumns.find? (fun c => present (w.col c))

/-- A pid for the value of a column. -/
def pidUrl (env : Env) (c : Column) (v : String) : String :=
  match c with
  | .doi => env.encode ("http://doi.org/" ++ v)
  | .pmid => "http://www.ncbi.nlm.nih.gov/pubmed/" ++ v
  | .pmcid => "http://www.ncbi.nlm.nih.gov/pmc/articles/PMC" ++ v
  | .arxiv => "http://arxiv.org/abs/" ++ v
  | .ark => "http://n2t.net/" ++ v
  | _ => v

theorem present_pidUrl (henc : ∀ s, env.encode s = String.ofList (encode s.toList))
    (h : present (some v) = true) :
    present (some (pidUrl env c v)) = true := by
  have hh : ∀ s : String, 'h' ∈ s.toList → present (some s) = true := by
    intro s hs
    rw [present_some, not_blank_of_mem hs (by decide)]
    rfl
  have hbase : ∀ base : String, 'h' ∈ base.toList → present (some (base ++ v)) = true := by
    intro base hmem
    exact hh _ (by simp [hmem])
  cases c with
  | doi =>
    have hlegal : ∀ c ∈ "http://doi.org/".toList, legal c := List.all_eq_true.mp (by decide)
    have hmem : 'h' ∈ "http://doi.org/".toList := by decide
    apply hh
    show 'h' ∈ (env.encode ("http://doi.org/" ++ v)).toList
    rw [henc, String.toList_ofList, String.toList_append, encode_append, encode_of_legal hlegal]
    exact List.mem_append_left _ hmem
  | pmid => exact hbase _ (by decide)
  | pmcid => exact hbase _ (by decide)
  | arxiv => exact hbase _ (by decide)
  | ark => exact hbase _ (by decide)
  | _ => exact h

/-- The pid is made of the first identifier that is there. -/
theorem pidFor_eq (henc : ∀ s, env.encode s = String.ofList (encode s.toList))
    (hnil : ∀ c, c ≠ .pid → presence (w.col c) = w.col c) :
    w.pidFor env = w.pidColumn.bind (fun c => (w.col c).map (pidUrl env c)) := by
  have hurl : ∀ base c, c ≠ .pid → w.asUrl base c = (w.col c).map (base ++ ·) := by
    intro base c hc
    rw [asUrl_eq, hnil c hc]
  have hurls : w.pidFor env =
      ((pidColumns.map (fun c => (w.col c).map (pidUrl env c))).find? present).join := by
    have hid : (w.col .canonicalUrl).map (pidUrl env .canonicalUrl) = w.col .canonicalUrl :=
      Option.map_id'
    have hdoi : (w.col .doi).map (pidUrl env .doi) =
        ((w.col .doi).map ("http://doi.org/" ++ ·)).map env.encode := by
      rw [Option.map_map]
      rfl
    simp only [pidFor, doiAsUrl, pmidAsUrl, pmcidAsUrl, arxivAsUrl, arkAsUrl,
      hurl _ .doi (by decide), hurl _ .pmid (by decide), hurl _ .pmcid (by decide),
      hurl _ .arxiv (by decide), hurl _ .ark (by decide), pidColumns, List.map_cons, List.map_nil,
      hid, hdoi]
    rfl
  have hpresent : ∀ c ∈ pidColumns,
      (present ∘ fun c => (w.col c).map (pidUrl env c)) c = present (w.col c) := by
    intro c hc
    have hne : c ≠ .pid := by
      intro h
      subst h
      exact absurd hc (by decide)
    have hcol := hnil c hne
    cases hv : w.col c with
    | none => simp [hv]
    | some v =>
      have hthere : present (some v) = true := by
        rw [hv] at hcol
        cases h : present (some v) with
        | true => rfl
        | false => simp [presence_of_blank h] at hcol
      rw [Function.comp, hv, hthere]
      exact present_pidUrl henc hthere
  rw [hurls, List.find?_map, List.find?_congr hpresent, pidColumn]
  cases List.find? _ _ <;> rfl

/-! ## What validation leaves -/

theorem col_beforeValidation (hc : c ≠ .pid) (hv : (w.row env).col c = some v) :
    (w.beforeValidation env).1.col c = some v ∧ normalCol env c (w.col c) = some v ∧
      present (some v) = true := by
  rw [col_row env w hc] at hv
  cases hpresent : present (normalCol env c (w.col c)) with
  | false => simp [presence_of_blank hpresent] at hv
  | true =>
    rw [presence_of_present hpresent] at hv
    rw [beforeValidation_fst, col_setPid_of_ne env _ hc, col_identified]
    exact ⟨hv, hv, hv ▸ hpresent⟩

/-- What a format check of a valid record says about the row. -/
theorem format_of_valid (hc : c ≠ .pid) {format : String → Bool}
    (hcheck : checkFormat format (w.beforeValidation env).1 c = [])
    (hv : (w.row env).col c = some v) : format v = true := by
  obtain ⟨hcol, -, hpresent⟩ := col_beforeValidation hc hv
  unfold checkFormat at hcheck
  rw [hcol, hpresent] at hcheck
  by_contra hformat
  simp [hformat] at hcheck

/-- The DOI of a row is in lower case. -/
theorem doi_lower (hv : (w.row env).col .doi = some v) : v.toLower = v := by
  obtain ⟨-, hcol, hpresent⟩ := col_beforeValidation (by decide) hv
  have hlowered : loweredDoi (w.col .doi) = some v := hcol
  unfold loweredDoi at hlowered
  split at hlowered
  · obtain ⟨u, -, rfl⟩ := Option.map_eq_some_iff.mp hlowered
    exact toLower_toLower u
  · next hblank =>
    rw [hlowered] at hblank
    exact absurd hpresent hblank

section Valid

variable (hvalid : w.errors env others = [])

include hvalid

theorem pidFor_of_valid : ∃ pid, (w.identified env).pidFor env = some pid := by
  have hpid : ((w.identified env).setPid env).2 = [] := by
    have h := (List.append_eq_nil_iff.mp hvalid).1
    exact (List.append_eq_nil_iff.mp h).2
  unfold setPid at hpid
  split at hpid
  · next pid hsome => exact ⟨pid, hsome⟩
  · cases hpid

/-- The format checks of a valid record that are about its identifiers. -/
theorem checks_of_valid :
    checkFormat urlFormat (w.beforeValidation env).1 .canonicalUrl = [] ∧
      checkFormat arkFormat (w.beforeValidation env).1 .ark = [] := by
  have h := (List.append_eq_nil_iff.mp hvalid).2
  simp only [validations, List.append_eq_nil_iff] at h
  exact ⟨by tauto, by tauto⟩

/-- The URL of a valid row is one `PostRank::URI.clean` has given. -/
theorem clean_of_valid (hv : (w.row env).col .canonicalUrl = some v) :
    (∃ u, env.clean u = .ok v) ∧ startsHttp v = true := by
  have herrors : ((w.sanitizeTitle env).normalizeUrl env).2 = [] := by
    have h := (List.append_eq_nil_iff.mp hvalid).1
    exact (List.append_eq_nil_iff.mp h).1
  obtain ⟨-, hcol, hpresent⟩ := col_beforeValidation (by decide) hv
  have hcleaned : cleanedUrl env (w.col .canonicalUrl) = some v := hcol
  have hsan : (w.sanitizeTitle env).col .canonicalUrl = w.col .canonicalUrl := rfl
  unfold normalizeUrl at herrors
  rw [hsan] at herrors
  unfold cleanedUrl at hcleaned
  cases hurl : w.col .canonicalUrl with
  | none => simp [hurl] at hcleaned
  | some url =>
    simp only [hurl] at herrors hcleaned
    by_cases hblank : blank url = true
    · simp only [hblank, if_true, Option.some.injEq] at hcleaned
      rw [present_some, ← hcleaned, hblank] at hpresent
      cases hpresent
    · rw [if_neg hblank] at herrors hcleaned
      cases hclean : env.clean url with
      | error message => simp [hclean] at herrors
      | ok cleaned =>
        simp only [hclean] at herrors hcleaned
        by_cases hhttp : startsHttp cleaned = true
        · rw [if_pos hhttp, Option.some.injEq] at hcleaned
          subst hcleaned
          exact ⟨⟨url, hclean⟩, hhttp⟩
        · simp [hhttp] at herrors

end Valid

/-! ## The scheme of a valid URL -/

theorem newline_not_mem_of_isHost {port : Nat} {cs : List Char} (h : isHost port cs = true) :
    '\n' ∉ cs := by
  unfold isHost at h
  simp only [Bool.and_eq_true] at h
  have hrest := h.2
  split at hrest
  · next labels hlabels =>
    have hall := hrest
    simp only [isLabels, Bool.and_eq_true, List.all_eq_true] at hall
    intro hmem
    have hsplit : '\n' ∈ cs.reverse.takeWhile Char.isDigit ++
        ((cs.reverse.dropWhile Char.isDigit).takeWhile Char.isLower ++ '.' :: labels) := by
      rw [← hlabels, List.takeWhile_append_dropWhile, List.takeWhile_append_dropWhile]
      exact List.mem_reverse.mpr hmem
    simp only [List.mem_append, List.mem_cons] at hsplit
    rcases hsplit with hdigit | hlower | hdot | hlabel
    · exact absurd (List.mem_takeWhile_imp hdigit) (by decide)
    · exact absurd (List.mem_takeWhile_imp hlower) (by decide)
    · exact absurd hdot (by decide)
    · exact absurd (hall.1.1.1 _ hlabel) (by decide)
  · cases hrest

/-- A URL that has passed both checks begins with `http:` or `https:`: `ftp:`
does not pass the second, since there is only one line. -/
theorem http_of_urlFormat (hformat : urlFormat v = true) (hhttp : startsHttp v = true) :
    "http:".toList <+: v.toList ∨ "https:".toList <+: v.toList := by
  unfold urlFormat at hformat
  simp only at hformat
  split at hformat
  · cases hformat
  · next rest hrest =>
    split at hrest
    · next hlist => exact .inl ⟨_, hlist.symm⟩
    · next hlist => exact .inr ⟨_, hlist.symm⟩
    · next tail hlist =>
      exfalso
      rw [← Option.some.inj hrest] at hformat
      have htail : '\n' ∉ tail := by
        rw [← List.takeWhile_append_dropWhile (p := (· != '/')) (l := tail), List.mem_append,
          not_or]
        split at hformat
        · next hempty =>
          rw [List.isEmpty_iff.mp hempty]
          exact ⟨newline_not_mem_of_isHost hformat, by simp⟩
        · simp only [Bool.and_eq_true, Bool.not_eq_true', List.contains_eq_mem,
            decide_eq_false_iff_not] at hformat
          exact ⟨newline_not_mem_of_isHost hformat.1, hformat.2⟩
      have hline : '\n' ∉ v.toList := by
        rw [hlist]
        simpa using htail
      rw [startsHttp, Bool.or_eq_true] at hhttp
      rcases hhttp with hhttp | hhttp
      · rw [hlist] at hhttp
        exact absurd hhttp (by simp)
      · exact hline (mem_of_includes hhttp (by decide))
    · cases hrest

/-! ## Reading a pid back -/

/-- Which values of a column are read back from a pid. -/
def ReadableAs (env : Env) (c : Column) (v : String) : Prop :=
  match c with
  | .doi => '+' ∉ v.toList ∧ untouched httpSlashes v.toList
  | .canonicalUrl =>
    (∀ rule ∈ resolverRules, ¬ rule.1.toList <+: restoreId v.toList) ∧
      (Verbatim v.toList ∨ env.clean (String.ofList (restoreId v.toList)) = .ok v)
  | _ => Verbatim v.toList

/-- The identifier the pid is made of is readable. -/
def Readable (env : Env) (w : Work) : Prop :=
  ∃ c v, w.pidColumn = some c ∧ w.col c = some v ∧ ReadableAs env c v

/-- The pid of a work is read as the identifier it was made of, and the work
is found by it. -/
def ParsedBack (env : Env) (db : Db) (w : Work) : Prop :=
  ∃ c v, w.pidColumn = some c ∧ w.col c = some v ∧
    getIdHash env (w.col .pid) = .ok (some (c, v)) ∧ loadWork env db.works (w.col .pid) = .ok w

/-- The record is valid and stored: the database has accepted its row beside
the others. -/
def IsStored (env : Env) (db : Db) (w : Work) : Prop :=
  w.row env ∈ db.works.rows ∧ w.rejection env (w.others db) = none

/-- Where the pid is made of the URL, no earlier work has the same URL, in
whatever case. -/
def FirstWithUrl (env : Env) (db : Db) (w : Work) : Prop :=
  w.pidColumn = some .canonicalUrl → ∀ other ∈ db.works.rows,
    env.same (other.col .canonicalUrl) (w.col .canonicalUrl) = true → w.id ≤ other.id

section Valid

variable (henc : ∀ s, env.encode s = String.ofList (encode s.toList))
  (hidem : ∀ url cleaned, env.clean url = .ok cleaned → env.clean cleaned = .ok cleaned)
  (hvalid : w.errors env others = [])

theorem ark_start (h : arkFormat v = true) : ∃ t, v.toList = "ark:".toList ++ t := by
  unfold arkFormat at h
  split at h
  · next rest hlist => exact ⟨'/' :: rest, hlist⟩
  · cases h

include henc hidem hvalid in
theorem getIdHash_pidUrl_iff (hc : c ∈ pidColumns) (hv : (w.row env).col c = some v) :
    getIdHash env (some (pidUrl env c v)) = .ok (some (c, v)) ↔ ReadableAs env c v := by
  have hchecks := checks_of_valid hvalid
  simp only [pidColumns, List.mem_cons, List.not_mem_nil, or_false] at hc
  rcases hc with rfl | rfl | rfl | rfl | rfl | rfl
  · show getIdHash env (some (env.encode ("http://doi.org/" ++ v))) = _ ↔ _
    rw [henc]
    exact getIdHash_doi_eq_iff env (doi_lower hv)
  · exact getIdHash_rest_eq_iff env "http://www.ncbi.nlm.nih.gov/pubmed/" (by decide) rfl
  · exact getIdHash_rest_eq_iff env "http://www.ncbi.nlm.nih.gov/pmc/articles/PMC" (by decide) rfl
  · obtain ⟨⟨url, hclean⟩, hhttp⟩ := clean_of_valid hvalid hv
    have hformat := format_of_valid (by decide) hchecks.1 hv
    have hverbatim : Verbatim v.toList →
        env.clean (String.ofList (restoreId v.toList)) = .ok v := by
      intro h
      rw [(ofList_restoreId_eq_iff v).mpr h]
      exact hidem url v hclean
    have hiff := getIdHash_url_eq_iff env (http_of_urlFormat hformat hhttp)
    rw [ReadableAs, or_iff_right_of_imp hverbatim]
    exact hiff
  · exact getIdHash_rest_eq_iff env "http://arxiv.org/abs/" (by decide) rfl
  · obtain ⟨t, ht⟩ := ark_start (format_of_valid (by decide) hchecks.2 hv)
    refine getIdHash_rest_eq_iff env "http://n2t.net/" (by decide) ?_
    rw [ht, restoreId_base (by decide)]
    rfl

include henc hvalid in
/-- The pid of a valid row. -/
theorem pid_of_valid : ∃ c v, (w.row env).pidColumn = some c ∧ c ∈ pidColumns ∧
    (w.row env).col c = some v ∧ (w.row env).col .pid = some (pidUrl env c v) := by
  obtain ⟨pid, hpid⟩ := pidFor_of_valid hvalid
  have hnil : ∀ c, c ≠ .pid → presence ((w.row env).col c) = (w.row env).col c := by
    intro c hc
    rw [col_row env w hc, presence_presence]
  have hsame : (w.row env).pidFor env = some pid := by
    rw [← hpid]
    refine pidFor_congr fun c hc => ?_
    rw [col_row env w hc, presence_presence, col_identified]
  have hthere : present (some pid) = true := by
    obtain ⟨found, hfound, hsome⟩ := Option.bind_eq_some_iff.mp hpid
    have hfoundPid : found = some pid := hsome
    have hpresent := List.find?_some hfound
    rwa [hfoundPid] at hpresent
  have hcol : (w.row env).col .pid = some pid := by
    rw [col_row_pid, hpid, Option.some_or, presence_of_present hthere]
  rw [pidFor_eq henc hnil] at hsame
  obtain ⟨c, hc, hmap⟩ := Option.bind_eq_some_iff.mp hsame
  obtain ⟨v, hv, rfl⟩ := Option.map_eq_some_iff.mp hmap
  exact ⟨c, v, hc, List.mem_of_find?_eq_some hc, hv, hcol⟩

end Valid

/-- The other identifiers a pid is made of have a unique index. -/
theorem only_with_identifier (hchar : env.Charwise) {db : Db} {w other : Work}
    (hfree : (w.row env).refusal env (w.others db) = none) (hc : c ∈ pidColumns)
    (hurl : c ≠ .canonicalUrl) (hv : (w.row env).col c = some v) (hother : other ∈ db.works.rows)
    (hsame : env.same (other.col c) (some v) = true) :
    other.id = w.id := by
  have hindexed : ∀ c ∈ pidColumns, c ≠ .canonicalUrl → ∃ index ∈ uniqueIndexes, index.1 = c := by
    decide
  obtain ⟨index, hindex, rfl⟩ := hindexed c hc hurl
  by_contra hid
  have hmem : other ∈ w.others db := List.mem_filter.mpr ⟨hother, bne_iff_ne.mpr hid⟩
  have hnot := not_same_of_accepted hchar hfree hindex hv other hmem
  rw [hv] at hnot
  exact Bool.false_ne_true (hnot.symm.trans hsame)

/-- Once a pid is read, what counts is which work comes first. -/
theorem loadWork_eq_ok_iff {works : Table Work} {id : Option String}
    (hhash : getIdHash env id = .ok (some (c, v))) :
    loadWork env works id = .ok w ↔ w ∈ works.rows ∧ env.same (w.col c) (some v) = true ∧
      ∀ other ∈ works.rows, env.same (other.col c) (some v) = true → w.id ≤ other.id := by
  refine Iff.trans ?_ (Table.first_eq_some_iff
    (p := fun other : Work => env.same (other.col c) (some v)))
  rw [loadWork, hhash]
  simp only
  cases works.first (fun other => env.same (other.col c) (some v)) <;> simp

/-- **A pid is read back as the identifier it was made of, and finds its work,
exactly if the identifier is readable,** and, where it is a URL, no earlier
work has the same one. -/
theorem pid_parsed_back_iff (henc : ∀ s, env.encode s = String.ofList (encode s.toList))
    (hidem : ∀ url cleaned, env.clean url = .ok cleaned → env.clean cleaned = .ok cleaned)
    (hchar : env.Charwise) {db : Db} (hstored : w.IsStored env db) :
    (w.row env).ParsedBack env db ↔
      (w.row env).Readable env ∧ (w.row env).FirstWithUrl env db := by
  obtain ⟨hmem, haccepted⟩ := hstored
  obtain ⟨hvalid, hfree⟩ := rejection_eq_none.mp haccepted
  obtain ⟨c, v, hcolumn, hc, hv, hpid⟩ := pid_of_valid henc hvalid
  have hiff := getIdHash_pidUrl_iff henc hidem hvalid hc hv
  rw [← hpid] at hiff
  constructor
  · rintro ⟨c', v', hcolumn', hv', hhash, hload⟩
    obtain rfl : c = c' := Option.some.inj (hcolumn.symm.trans hcolumn')
    obtain rfl : v = v' := Option.some.inj (hv.symm.trans hv')
    refine ⟨⟨c, v, hcolumn, hv, hiff.mp hhash⟩, ?_⟩
    intro hurl other hother hsame
    obtain rfl : c = .canonicalUrl := Option.some.inj (hcolumn.symm.trans hurl)
    exact ((loadWork_eq_ok_iff hhash).mp hload).2.2 other hother (hv ▸ hsame)
  · rintro ⟨⟨c', v', hcolumn', hv', hreadable⟩, hfirst⟩
    obtain rfl : c = c' := Option.some.inj (hcolumn.symm.trans hcolumn')
    obtain rfl : v = v' := Option.some.inj (hv.symm.trans hv')
    have hhash := hiff.mpr hreadable
    refine ⟨c, v, hcolumn, hv, hhash, (loadWork_eq_ok_iff hhash).mpr ⟨hmem, by simp [hv, Env.same],
      fun other hother hsame => ?_⟩⟩
    by_cases hurl : c = .canonicalUrl
    · subst hurl
      exact hfirst hcolumn other hother (by rw [hv]; exact hsame)
    · rw [only_with_identifier hchar hfree hc hurl hv hother hsame]
      exact Nat.le_of_eq (id_row env w)

/-- Libraries that change nothing but encode, and a database that ignores case,
on 5 May 2015. -/
def encodingEnv : Env where
  today := ⟨2015, 5, 5, by decide⟩
  now := 1430784000
  clean := fun url => .ok url
  encode := fun s => String.ofList (encode s.toList)
  sanitize := fun title => title
  collate := fun s => String.ofList (s.toList.map Char.toLower)
  duplicateEntry := fun index _ => index
  validCron := fun _ => true

theorem encodingEnv_charwise : encodingEnv.Charwise := Env.charwise_of_map (fun _ => rfl)

/-- A work with some identifiers. -/
def identifiedBy (id : Nat) (identifiers : List (Column × String)) : Work :=
  { id := id, col := fun c => identifiers.lookup c, title := some "Title", year := some 2015 }

/-- A table of two works. -/
def storedBoth (first second : Work) : Db :=
  { works := (Table.empty.insert (first.row encodingEnv)).insert (second.row encodingEnv) }

theorem mem_storedBoth {first second : Work} (hfirst : first.id = 1) (hsecond : second.id = 2) :
    first.row encodingEnv ∈ (storedBoth first second).works.rows ∧
      second.row encodingEnv ∈ (storedBoth first second).works.rows := by
  have hrow : ∀ w : Work, Row.withId w.id (w.row encodingEnv) = w.row encodingEnv := by
    intro w
    rw [← id_row encodingEnv w]
    exact Row.withId_id (w.row encodingEnv)
  have hrows : (storedBoth first second).works.rows =
      [Row.withId 1 (first.row encodingEnv), Row.withId 2 (second.row encodingEnv)] := rfl
  rw [hrows, ← hfirst, ← hsecond, hrow, hrow]
  simp

def poneWork : Work := identifiedBy 1 [(.doi, "10.1371/journal.pone.0000001")]
def plusWork : Work := identifiedBy 2 [(.doi, "10.1234/a+b")]
def resolverWork : Work := identifiedBy 2 [(.canonicalUrl, "http://arxiv.org/abs/1412.1234")]
def paper : Work :=
  identifiedBy 1 [(.doi, "10.1234/paper"), (.canonicalUrl, "http://example.org/Paper")]
def sameUrl : Work := identifiedBy 2 [(.canonicalUrl, "http://example.org/paper")]

theorem pid_of_pone_parsed_back :
    poneWork.IsStored encodingEnv (storedBoth poneWork plusWork) ∧
      (poneWork.row encodingEnv).ParsedBack encodingEnv (storedBoth poneWork plusWork) := by
  have hstored : poneWork.IsStored encodingEnv (storedBoth poneWork plusWork) :=
    ⟨(mem_storedBoth rfl rfl).1, by decide +kernel⟩
  have hidem : ∀ url cleaned, encodingEnv.clean url = .ok cleaned →
      encodingEnv.clean cleaned = .ok cleaned := fun _ _ _ => rfl
  have hplus : '+' ∉ "10.1371/journal.pone.0000001".toList := by decide +kernel
  have hslashes : untouched httpSlashes "10.1371/journal.pone.0000001".toList := by
    decide +kernel
  have hcolumn : (poneWork.row encodingEnv).pidColumn = some .doi := by decide +kernel
  refine ⟨hstored, (pid_parsed_back_iff (fun _ => rfl) hidem encodingEnv_charwise hstored).mpr
    ⟨⟨.doi, "10.1371/journal.pone.0000001", hcolumn, by decide +kernel, hplus, hslashes⟩, ?_⟩⟩
  intro hurl
  rw [hcolumn] at hurl
  cases hurl

/-- The plus sign of a DOI is read as a space, and a URL of arXiv as an arXiv
id; and a URL that differs in case only is that of another work. -/
theorem plus_and_resolver_not_parsed_back :
    (plusWork.IsStored encodingEnv (storedBoth poneWork plusWork) ∧
      ¬ (plusWork.row encodingEnv).ParsedBack encodingEnv (storedBoth poneWork plusWork)) ∧
    (resolverWork.IsStored encodingEnv (storedBoth poneWork resolverWork) ∧
      ¬ (resolverWork.row encodingEnv).ParsedBack encodingEnv (storedBoth poneWork resolverWork)) ∧
    sameUrl.IsStored encodingEnv (storedBoth paper sameUrl) ∧
      ¬ (sameUrl.row encodingEnv).ParsedBack encodingEnv (storedBoth paper sameUrl) := by
  refine ⟨⟨⟨(mem_storedBoth rfl rfl).2, by decide +kernel⟩, ?_⟩,
    ⟨⟨(mem_storedBoth rfl rfl).2, by decide +kernel⟩, ?_⟩,
    ⟨(mem_storedBoth rfl rfl).2, by decide +kernel⟩, ?_⟩
  · rintro ⟨c, v, -, hv, hhash, -⟩
    have hread : getIdHash encodingEnv ((plusWork.row encodingEnv).col .pid) =
        .ok (some (.doi, "10.1234/a b")) := by
      decide +kernel
    have hdoi : (plusWork.row encodingEnv).col .doi = some "10.1234/a+b" := by decide +kernel
    rw [hread] at hhash
    simp only [Except.ok.injEq, Option.some.injEq, Prod.mk.injEq] at hhash
    rw [← hhash.1, ← hhash.2, hdoi] at hv
    exact absurd hv (by decide)
  · rintro ⟨c, v, hcolumn, -, hhash, -⟩
    have hread : getIdHash encodingEnv ((resolverWork.row encodingEnv).col .pid) =
        .ok (some (.arxiv, "1412.1234")) := by
      decide +kernel
    have hurl : (resolverWork.row encodingEnv).pidColumn = some .canonicalUrl := by decide +kernel
    rw [hread] at hhash
    simp only [Except.ok.injEq, Option.some.injEq, Prod.mk.injEq] at hhash
    rw [hurl, ← hhash.1] at hcolumn
    exact absurd hcolumn (by decide)
  · rintro ⟨c, v, -, -, -, hload⟩
    have hfound : (loadWork encodingEnv (storedBoth paper sameUrl).works
        ((sameUrl.row encodingEnv).col .pid)).toOption.map (fun w => w.id) = some 1 := by
      decide +kernel
    rw [hload] at hfound
    exact absurd hfound (by decide +kernel)

end Work

end Lagotto
