/-
Lagotto.Work.LinkTheorems — the links that the JavaScript client builds
(`app/assets/javascripts/d3_helpers.js`), read by `get_id_hash`.

`pathForWork` takes the scheme off a pid that begins with one of a few resolvers.
`get_id_hash` knows most of them without the scheme too. It does not know one of
them at all, and another one only in front of an ARK; what is left of such a pid
is taken for a DOI. `link_reaches_work_iff` says that these are all the
differences.
-/
import Lagotto.Work.FindOrCreateTheorems
import Lagotto.Work.IdHashTheorems

namespace Lagotto

open Text

/-! ## The client -/

/-- The beginnings that `pathForWork` looks for. -/
def linkBases : List String :=
  ["http://doi.org/", "http://www.ncbi.nlm.nih.gov/pubmed/",
   "http://www.ncbi.nlm.nih.gov/pmc/works/PMC", "http://www.ncbi.nlm.nih.gov/pmc/works/PMC",
   "http://arxiv.org/abs/", "http://n2t.net/"]

/-- `id.replace(/^https?:\/\//,'')` -/
def withoutScheme (id : List Char) : List Char :=
  if "http://".toList.isPrefixOf id then id.drop 7
  else if "https://".toList.isPrefixOf id then id.drop 8
  else id

/-- `pathForWork`; `none` is `undefined`. -/
def pathForWork : Option String → String
  | none => ""
  | some id =>
    if linkBases.any (fun base => base.toList.isPrefixOf id.toList) then
      String.ofList (withoutScheme id.toList)
    else id

/-! ## Resolvers without a scheme -/

/-- The resolvers of `linkBases`. -/
def linkHosts : List String :=
  ["doi.org/", "www.ncbi.nlm.nih.gov/pubmed/", "www.ncbi.nlm.nih.gov/pmc/works/PMC",
   "arxiv.org/abs/", "n2t.net/"]

theorem restoreId_host {host : String} (hhost : host ∈ linkHosts) (v : List Char) :
    restoreId (host.toList ++ v) = host.toList ++ restoreId v := by
  have hpercent : ∀ host ∈ linkHosts, '%' ∉ host.toList := by decide
  refine restoreId_append (hpercent host hhost) ?_ v
  intro v
  simp only [linkHosts, List.mem_cons, List.not_mem_nil, or_false] at hhost
  rcases hhost with rfl | rfl | rfl | rfl | rfl <;> rfl

theorem restoreId_link {host : String} (hhost : host ∈ linkHosts) (v : List Char) :
    restoreId (("http://" ++ host).toList ++ v) = ("http://" ++ host).toList ++ restoreId v := by
  have hpercent : ∀ host ∈ linkHosts, '%' ∉ ("http://" ++ host).toList := by decide
  refine restoreId_append (hpercent host hhost) ?_ v
  intro v
  simp only [linkHosts, List.mem_cons, List.not_mem_nil, or_false] at hhost
  rcases hhost with rfl | rfl | rfl | rfl | rfl <;> rfl

/-- A pid is not changed, or it is a link to one of the resolvers. -/
theorem pathForWork_cases (pid : String) :
    (pathForWork (some pid) = pid ∧
        ∀ host ∈ linkHosts, ¬ ("http://" ++ host).toList <+: pid.toList) ∨
      ∃ host ∈ linkHosts, ∃ v : List Char, pid.toList = ("http://" ++ host).toList ++ v ∧
        (pathForWork (some pid)).toList = host.toList ++ v := by
  have hbases : ∀ base ∈ linkBases, ∃ host ∈ linkHosts, base = "http://" ++ host := by decide
  have hhosts : ∀ host ∈ linkHosts, "http://" ++ host ∈ linkBases := by decide
  by_cases hany : linkBases.any (fun base => base.toList.isPrefixOf pid.toList) = true
  · obtain ⟨base, hbase, hstart⟩ := List.any_eq_true.mp hany
    obtain ⟨host, hhost, rfl⟩ := hbases base hbase
    obtain ⟨v, hv⟩ := List.isPrefixOf_iff_prefix.mp hstart
    refine Or.inr ⟨host, hhost, v, hv.symm, ?_⟩
    rw [pathForWork, if_pos hany, String.toList_ofList, ← hv, String.toList_append,
      List.append_assoc]
    rfl
  · refine Or.inl ⟨if_neg hany, ?_⟩
    intro host hhost hstart
    exact hany (List.any_eq_true.mpr ⟨_, hhosts host hhost,
      List.isPrefixOf_iff_prefix.mpr hstart⟩)

/-- What is read behind a beginning that stays as it is. -/
theorem getIdHash_append (env : Env) {id : String} {base v : List Char}
    (hid : id.toList = base ++ v) (hrestore : restoreId (base ++ v) = base ++ restoreId v) :
    getIdHash env (some id) =
      ((idRule (base ++ restoreId v)).apply env (base ++ restoreId v)).map some := by
  simp only [getIdHash, hid, hrestore]

theorem apply_doi (env : Env) (base v : List Char) :
    IdRule.apply env (base ++ v) (.doi base.length) =
      (unescaped v).map (fun doi => (.doi, doi.toLower)) := by
  rw [IdRule.apply, List.drop_left]

theorem apply_rest (env : Env) (c : Column) (base v : List Char) :
    IdRule.apply env (base ++ v) (.rest c base.length) = .ok (c, String.ofList v) := by
  rw [IdRule.apply, List.drop_left]

/-- Most resolvers are known with and without the scheme. -/
theorem apply_known (env : Env) {host : String}
    (hhost : host ∈ ["doi.org/", "www.ncbi.nlm.nih.gov/pubmed/", "arxiv.org/abs/"])
    (v : List Char) :
    (idRule (host.toList ++ v)).apply env (host.toList ++ v) =
      (idRule (("http://" ++ host).toList ++ v)).apply env (("http://" ++ host).toList ++ v) := by
  simp only [List.mem_cons, List.not_mem_nil, or_false] at hhost
  rcases hhost with rfl | rfl | rfl
  · have hpath : idRule ("doi.org/".toList ++ v) = .doi "doi.org/".toList.length := rfl
    have hpid : idRule (("http://" ++ "doi.org/").toList ++ v) =
      .doi ("http://" ++ "doi.org/").toList.length := rfl
    rw [hpath, hpid, apply_doi, apply_doi]
  · have hpath : idRule ("www.ncbi.nlm.nih.gov/pubmed/".toList ++ v) =
      .rest .pmid "www.ncbi.nlm.nih.gov/pubmed/".toList.length := rfl
    have hpid : idRule (("http://" ++ "www.ncbi.nlm.nih.gov/pubmed/").toList ++ v) =
      .rest .pmid ("http://" ++ "www.ncbi.nlm.nih.gov/pubmed/").toList.length := rfl
    rw [hpath, hpid, apply_rest, apply_rest]
  · have hpath : idRule ("arxiv.org/abs/".toList ++ v) =
      .rest .arxiv "arxiv.org/abs/".toList.length := rfl
    have hpid : idRule (("http://" ++ "arxiv.org/abs/").toList ++ v) =
      .rest .arxiv ("http://" ++ "arxiv.org/abs/").toList.length := rfl
    rw [hpath, hpid, apply_rest, apply_rest]

/-- The resolver of ARKs, in front of one. -/
theorem apply_ark (env : Env) (v : List Char) :
    (idRule ("n2t.net/".toList ++ ("ark:".toList ++ v))).apply env
        ("n2t.net/".toList ++ ("ark:".toList ++ v)) =
      (idRule (("http://" ++ "n2t.net/").toList ++ ("ark:".toList ++ v))).apply env
        (("http://" ++ "n2t.net/").toList ++ ("ark:".toList ++ v)) := by
  have hpath : idRule ("n2t.net/".toList ++ ("ark:".toList ++ v)) =
    .rest .ark "n2t.net/".toList.length := rfl
  have hpid : idRule (("http://" ++ "n2t.net/").toList ++ ("ark:".toList ++ v)) =
    .rest .ark ("http://" ++ "n2t.net/").toList.length := rfl
  rw [hpath, hpid, apply_rest, apply_rest]

/-- The resolver of ARKs, in front of something else. -/
theorem idRule_n2t {v : List Char} (h : ¬ "ark:".toList <+: v) :
    idRule ("n2t.net/".toList ++ v) = .doi 0 ∧ idRule ("http://n2t.net/".toList ++ v) = .url := by
  constructor
  · let fits : String × IdRule → Bool :=
      fun rule => rule.1.toList.isPrefixOf ("n2t.net/".toList ++ v)
    have hsplit :
        idRules = idRules.take 4 ++ ("n2t.net/ark:", .rest .ark 8) :: idRules.drop 5 := rfl
    have hbefore : (idRules.take 4).find? fits = none := rfl
    have hafter : (idRules.drop 5).find? fits = none := rfl
    have hark : ¬ fits ("n2t.net/ark:", .rest .ark 8) = true :=
      fun hstart => h (List.isPrefixOf_iff_prefix.mp hstart)
    have hnone : idRules.find? fits = none := by
      rw [hsplit, List.find?_append, hbefore, Option.none_or, List.find?_cons_of_neg hark, hafter]
    unfold idRule
    rw [show idRules.find? (fun rule => rule.1.toList.isPrefixOf ("n2t.net/".toList ++ v)) = none
      from hnone]
  · refine (idRule_of_http (Or.inl ⟨_, rfl⟩)).mpr ?_
    intro rule hrule hstart
    have hfits : rule.1.toList.isPrefixOf ("http://n2t.net/".toList ++ v) = true :=
      List.isPrefixOf_iff_prefix.mpr hstart
    simp only [resolverRules, idRules, List.drop, List.take, List.mem_cons, List.not_mem_nil,
      or_false] at hrule
    rcases hrule with rfl | rfl | rfl | rfl | rfl | rfl
    · cases hfits
    · cases hfits
    · cases hfits
    · cases hfits
    · cases hfits
    · exact h (List.isPrefixOf_iff_prefix.mp hfits)

/-- A pid that is a URL, and a path that is taken for a DOI: they are read alike
only if neither is read at all. -/
theorem apply_doi_eq_url_iff (env : Env) (path url : List Char) :
    IdRule.apply env path (.doi 0) = IdRule.apply env url .url ↔
      unescape path = none ∧
        env.clean (String.ofList url) = .error "invalid byte sequence in UTF-8" := by
  have hpath : path.drop 0 = path := rfl
  rw [IdRule.apply, IdRule.apply, hpath, unescaped]
  cases hread : unescape path with
  | none =>
    cases hclean : env.clean (String.ofList url) with
    | error message => simp [Except.map, eq_comm]
    | ok cleaned => simp [Except.map]
  | some text =>
    cases hclean : env.clean (String.ofList url) with
    | error message => simp [Except.map]
    | ok cleaned => simp [Except.map]

/-! ## The beginning of an ARK -/

theorem literal_text {pat text l t : List Char} {taken : Nat}
    (h : literal pat text l = some (taken, t)) : t = text := (literal_eq_some h).2.2

section Escape

variable {p : List Char} {a b d : Char} (hp : ∀ c ∈ p, c ≠ '%' ∧ c ≠ d)

include hp

theorem literal_escape_of_mem (c : Char) (hc : c ∈ p) (rest : List Char) :
    literal ['%', a, b] [d] (c :: rest) = none := by
  rw [literal_eq_none, List.cons_prefix_cons]
  exact fun hstart => (hp c hc).1 hstart.1.symm

theorem literal_escape_text (c : Char) (hc : c ∈ p) (l : List Char) (taken : Nat)
    (text : List Char) (h : literal ['%', a, b] [d] l = some (taken, text)) :
    ∃ e rest, text = e :: rest ∧ e ≠ c :=
  ⟨d, [], literal_text h, fun heq => (hp c hc).2 heq.symm⟩

/-- Characters that are neither a percent sign nor put in for an escape. -/
theorem append_prefix_gsub_literal_iff {s l : List Char} :
    p ++ s <+: gsub (literal ['%', a, b] [d]) l ↔
      ∃ rest, l = p ++ rest ∧ s <+: gsub (literal ['%', a, b] [d]) rest :=
  append_prefix_gsub_iff (literal_proper (by simp)) (literal_escape_of_mem hp)
    (literal_escape_text hp)

theorem prefix_gsub_literal_iff {l : List Char} :
    p <+: gsub (literal ['%', a, b] [d]) l ↔ p <+: l :=
  prefix_gsub_iff (literal_proper (by simp)) (literal_escape_of_mem hp) (literal_escape_text hp)

end Escape

theorem append_prefix_iff {p s l : List Char} :
    p ++ s <+: l ↔ ∃ rest, l = p ++ rest ∧ s <+: rest := by
  constructor
  · rintro ⟨t, rfl⟩
    exact ⟨s ++ t, List.append_assoc p s t, List.prefix_append s t⟩
  · rintro ⟨rest, rfl, h⟩
    exact (List.prefix_append_right_inj p).mpr h

theorem prefix_gsub_httpSlashes_iff {p l : List Char} (hp : 'h' ∉ p) :
    p <+: gsub httpSlashes l ↔ p <+: l := by
  refine prefix_gsub_iff httpSlashes_proper ?_ ?_
  · intro c hc rest
    exact httpSlashes_of_ne (fun heq => hp (heq ▸ hc)) rest
  · intro c hc l taken text h
    obtain ⟨scheme, n, word, rest, hscheme, -, -, -, -, rfl⟩ := slashMatch_of_httpSlashes h
    rcases hscheme with rfl | rfl
    · exact ⟨'h', _, rfl, fun heq => hp (heq ▸ hc)⟩
    · exact ⟨'h', _, rfl, fun heq => hp (heq ▸ hc)⟩

theorem colon_prefix_unescapeColons_iff (l : List Char) :
    [':'] <+: unescapeColons l ↔ [':'] <+: l ∨ ['%', '3', 'A'] <+: l := by
  by_cases hcode : ['%', '3', 'A'] <+: l
  · have hmatch : literal ['%', '3', 'A'] [':'] l = some (3, [':']) := if_pos hcode
    rw [unescapeColons, gsub_of_some (literal_proper (by simp)) hmatch]
    simp [hcode]
  · cases l with
    | nil => simp [unescapeColons]
    | cons c l =>
      rw [unescapeColons, gsub_of_none (literal_eq_none.mpr hcode)]
      simp [hcode]

theorem code_prefix_unescapeSlashes_iff (l : List Char) :
    ['%', '3', 'A'] <+: unescapeSlashes l ↔ ['%', '3', 'A'] <+: l := by
  have htail : ∀ r, ['3', 'A'] <+: unescapeSlashes r ↔ ['3', 'A'] <+: r :=
    fun r => prefix_gsub_literal_iff (by simp)
  rw [unescapeSlashes, cons_prefix_gsub_iff (literal_proper (by simp))
    (fun l taken text h => ⟨'/', [], literal_text h, by decide⟩)]
  constructor
  · rintro ⟨rest, rfl, -, hrest⟩
    rw [List.cons_prefix_cons]
    exact ⟨rfl, (htail rest).mp hrest⟩
  · rintro ⟨rest, rfl⟩
    refine ⟨'3' :: 'A' :: rest, rfl, ?_, (htail _).mpr ⟨rest, rfl⟩⟩
    rw [literal_eq_none]
    simp

/-- The colon of an ARK is there, or it is escaped. -/
theorem ark_prefix_restoreId_iff (v : List Char) :
    "ark:".toList <+: restoreId v ↔ "ark:".toList <+: v ∨ "ark%3A".toList <+: v := by
  have hcolons : ∀ l, ['a', 'r', 'k'] ++ [':'] <+: unescapeColons l ↔
      ∃ rest, l = ['a', 'r', 'k'] ++ rest ∧ [':'] <+: unescapeColons rest :=
    fun l => append_prefix_gsub_literal_iff (by simp)
  have hslashes : ∀ s l, ['a', 'r', 'k'] ++ s <+: unescapeSlashes l ↔
      ∃ rest, l = ['a', 'r', 'k'] ++ rest ∧ s <+: unescapeSlashes rest :=
    fun s l => append_prefix_gsub_literal_iff (by simp)
  have hcolon : ∀ l, [':'] <+: unescapeSlashes l ↔ [':'] <+: l :=
    fun l => prefix_gsub_literal_iff (by simp)
  calc "ark:".toList <+: restoreId v
      ↔ ['a', 'r', 'k'] ++ [':'] <+: unescapeColons (unescapeSlashes v) :=
        prefix_gsub_httpSlashes_iff (by decide)
    _ ↔ ['a', 'r', 'k'] ++ [':'] <+: unescapeSlashes v ∨
          ['a', 'r', 'k'] ++ ['%', '3', 'A'] <+: unescapeSlashes v := by
        simp only [hcolons, colon_prefix_unescapeColons_iff, append_prefix_iff, and_or_left,
          exists_or]
    _ ↔ ['a', 'r', 'k'] ++ [':'] <+: v ∨ ['a', 'r', 'k'] ++ ['%', '3', 'A'] <+: v := by
        simp only [hslashes, hcolon, code_prefix_unescapeSlashes_iff, append_prefix_iff]

/-! ## Links -/

/-- The pids whose links are read as the pids are: they do not begin with the
resolver that `get_id_hash` does not know, and an ARK follows that of the
ARKs. -/
def Linkable (pid : String) : Prop :=
  ¬ "http://www.ncbi.nlm.nih.gov/pmc/works/PMC".toList <+: pid.toList ∧
    ∀ v, pid.toList = "http://n2t.net/".toList ++ v →
      "ark:".toList <+: v ∨ "ark%3A".toList <+: v

/-- A pid that cannot be read either way: neither the cleaner nor the database
accepts its bytes. -/
def Unreadable (env : Env) (pid : String) : Prop :=
  unescape (restoreId (pid.toList.drop 7)) = none ∧
    env.clean (String.ofList (restoreId pid.toList)) = .error "invalid byte sequence in UTF-8"

theorem map_some_inj {ε α : Type} {x y : Except ε α} :
    x.map some = y.map some ↔ x = y := by
  constructor
  · intro h
    cases x with
    | error e =>
      cases y with
      | error e' => simpa [Except.map] using h
      | ok b => simp [Except.map] at h
    | ok a =>
      cases y with
      | error e' => simp [Except.map] at h
      | ok b => simpa [Except.map] using h
  · intro h
    rw [h]

section Hosts

variable {env : Env} {pid : String} {v : List Char}

/-- The two readings of a link to a resolver. -/
theorem link_eq_iff {host : String} (hhost : host ∈ linkHosts)
    (hpid : pid.toList = ("http://" ++ host).toList ++ v)
    (hpath : (pathForWork (some pid)).toList = host.toList ++ v) :
    getIdHash env (some (pathForWork (some pid))) = getIdHash env (some pid) ↔
      (idRule (host.toList ++ restoreId v)).apply env (host.toList ++ restoreId v) =
        (idRule (("http://" ++ host).toList ++ restoreId v)).apply env
          (("http://" ++ host).toList ++ restoreId v) := by
  rw [getIdHash_append env hpath (restoreId_host hhost v),
    getIdHash_append env hpid (restoreId_link hhost v), map_some_inj]

/-- A resolver that is not known without the scheme. -/
theorem link_eq_iff_unreadable {host : String} (hhost : host ∈ linkHosts)
    (hpid : pid.toList = ("http://" ++ host).toList ++ v)
    (hpath : (pathForWork (some pid)).toList = host.toList ++ v)
    (hdoi : idRule (host.toList ++ restoreId v) = .doi 0)
    (hurl : idRule (("http://" ++ host).toList ++ restoreId v) = .url) :
    getIdHash env (some (pathForWork (some pid))) = getIdHash env (some pid) ↔
      Unreadable env pid := by
  have hdrop : pid.toList.drop 7 = host.toList ++ v := by
    rw [hpid, String.toList_append, List.append_assoc]
    rfl
  rw [link_eq_iff hhost hpid hpath, hdoi, hurl, apply_doi_eq_url_iff, Unreadable, hdrop, hpid,
    restoreId_host hhost, restoreId_link hhost]

/-- The resolvers that are known with and without the scheme. -/
theorem linkable_of_known {host : String}
    (hhost : host ∈ ["doi.org/", "www.ncbi.nlm.nih.gov/pubmed/", "arxiv.org/abs/"])
    (hpid : pid.toList = ("http://" ++ host).toList ++ v) : Linkable pid := by
  have hother : ∀ base ∈ ["http://www.ncbi.nlm.nih.gov/pmc/works/PMC", "http://n2t.net/"],
      ¬ base.toList <+: pid.toList := by
    intro base hbase hstart
    rw [hpid] at hstart
    have hfits := List.isPrefixOf_iff_prefix.mpr hstart
    simp only [List.mem_cons, List.not_mem_nil, or_false] at hhost hbase
    rcases hhost with rfl | rfl | rfl <;> rcases hbase with rfl | rfl <;> cases hfits
  refine ⟨hother _ (by decide), ?_⟩
  intro u hu
  exact absurd ⟨u, hu.symm⟩ (hother "http://n2t.net/" (by decide))

/-- The resolver of ARKs. -/
theorem linkable_n2t_iff (hpid : pid.toList = ("http://" ++ "n2t.net/").toList ++ v) :
    Linkable pid ↔ "ark:".toList <+: restoreId v := by
  rw [ark_prefix_restoreId_iff]
  constructor
  · intro h
    exact h.2 v hpid
  · intro h
    constructor
    · intro hstart
      rw [hpid] at hstart
      cases List.isPrefixOf_iff_prefix.mpr hstart
    · intro u hu
      have hsame : v = u := List.append_cancel_left (hpid.symm.trans hu)
      exact hsame ▸ h

end Hosts

/-- **A link is read as the pid is exactly if its resolver is known without the
scheme**, or if neither is read at all. -/
theorem link_reaches_work_iff (env : Env) (pid : String) :
    getIdHash env (some (pathForWork (some pid))) = getIdHash env (some pid) ↔
      Linkable pid ∨ Unreadable env pid := by
  rcases pathForWork_cases pid with ⟨hsame, hnone⟩ | ⟨host, hhost, v, hpid, hpath⟩
  · have hlinkable : Linkable pid := by
      refine ⟨hnone "www.ncbi.nlm.nih.gov/pmc/works/PMC" (by decide), ?_⟩
      intro v hv
      exact absurd ⟨v, hv.symm⟩ (hnone "n2t.net/" (by decide))
    rw [hsame]
    exact iff_of_true rfl (Or.inl hlinkable)
  · by_cases hknown : host ∈ ["doi.org/", "www.ncbi.nlm.nih.gov/pubmed/", "arxiv.org/abs/"]
    · rw [link_eq_iff hhost hpid hpath]
      exact iff_of_true (apply_known env hknown _) (Or.inl (linkable_of_known hknown hpid))
    · have hrest : ∀ host ∈ linkHosts,
          host ∉ ["doi.org/", "www.ncbi.nlm.nih.gov/pubmed/", "arxiv.org/abs/"] →
            host = "www.ncbi.nlm.nih.gov/pmc/works/PMC" ∨ host = "n2t.net/" := by decide
      rcases hrest host hhost hknown with rfl | rfl
      · have hnot : ¬ Linkable pid := fun h => h.1 ⟨v, hpid.symm⟩
        rw [link_eq_iff_unreadable hhost hpid hpath rfl rfl, or_iff_right hnot]
      · by_cases hark : "ark:".toList <+: restoreId v
        · rw [link_eq_iff hhost hpid hpath]
          refine iff_of_true ?_ (Or.inl ((linkable_n2t_iff hpid).mpr hark))
          obtain ⟨t, ht⟩ := hark
          rw [← ht]
          exact apply_ark env t
        · have hnot : ¬ Linkable pid := fun h => hark ((linkable_n2t_iff hpid).mp h)
          obtain ⟨hdoi, hurl⟩ := idRule_n2t hark
          rw [link_eq_iff_unreadable hhost hpid hpath hdoi hurl, or_iff_right hnot]

/-- A work known by the address of a page of the resolver. -/
def pageOfResolver : Work :=
  { col := fun c => if c = .canonicalUrl then some "http://n2t.net/e/about.html" else none }

/-- Its link is taken for a DOI. -/
theorem resolver_page_read_as_doi :
    pageOfResolver.pidFor plainEnv = some "http://n2t.net/e/about.html" ∧
      pathForWork (some "http://n2t.net/e/about.html") = "n2t.net/e/about.html" ∧
      getIdHash plainEnv (some "n2t.net/e/about.html") =
        .ok (some (.doi, "n2t.net/e/about.html")) ∧
      getIdHash plainEnv (some "http://n2t.net/e/about.html") =
        .ok (some (.canonicalUrl, "http://n2t.net/e/about.html")) := by
  refine ⟨by decide +kernel, by decide +kernel, ?_, ?_⟩
  · decide +kernel
  · decide +kernel

end Lagotto
