/-
Lagotto.Source.WikipediaTheorems — what a search in several Wikipedias
collects.

Each wiki has a list of articles for the query and answers with 50 of them
from an offset on. The first page of a language comes from its own wiki. The
further pages are asked with options that have neither host nor namespace, so
they come from the English Wikipedia, as many as the wiki of the language would
have, and their titles are given the host of the language. `collected` is that
list, and `getData_run` says it is what `get_data` returns. It is the list of
the wiki itself for English, for at most 50 hits, and otherwise only where the
two wikis happen to agree from the 51st article on.
-/
import Lagotto.Source.PagingTheorems

namespace Lagotto.Wikipedia

open Interaction
open Relational

/-! ## Wikis -/

/-- An article a search finds. -/
structure Article where
  title : String
  timestamp : Option String
  deriving DecidableEq

/-- The event for an article of a host. -/
def Article.hit (host : String) (a : Article) : Hit where
  title := a.title
  url := "http://" ++ host ++ "/wiki/" ++ underscored a.title
  timestamp := a.timestamp

/-- An element of `"search"` for the article. -/
structure Article.IsElement (a : Article) (v : Value) : Prop where
  title : v.fetch (.str "title") .nil = .str a.title
  timestamp : v.fetch (.str "timestamp") .nil = (a.timestamp.map Value.str).getD .nil

/-- The elements of `"search"`. -/
def search (v : Value) : List Value :=
  ((v.fetch (.str "query") (.hash [])).fetch (.str "search") (.arr [])).toArray

/-- The answer of a wiki with these articles, from an offset on. -/
structure IsPage (articles : List Article) (offset : Nat) (v : Value) : Prop where
  isHash : v.isHash = true
  total : totalHits v = articles.length
  search : List.Forall₂ Article.IsElement ((articles.drop offset).take 50) (search v)

/-- The namespace of a language. -/
def namespaceOf (lang : String) : String := if lang = "commons" then "6" else "0"

/-- The articles of every host, by namespace. -/
abbrev Wikis := String → String → List Article

/-- The articles of the wiki of a language. -/
def Wikis.own (wikis : Wikis) (lang : String) : List Article :=
  wikis (hostOf lang) (namespaceOf lang)

/-- The articles of the wiki that is asked by default. -/
def Wikis.english (wikis : Wikis) : List Article := wikis "en.wikipedia.org" "0"

/-- The wikis of the languages and the English one answer every query for the
work, from any offset on. -/
def Wikis.Serve (wikis : Wikis) (langs : List String) (work : Work) (web : Web) : Prop :=
  ∀ q : Query, (q.host, q.namespaceId) ∈
      ("en.wikipedia.org", "0") :: langs.map (fun lang => (hostOf lang, namespaceOf lang)) →
    0 ≤ q.sroffset → ∀ results, ∃ v, web results (urlFor q work) = .body v ∧
      IsPage (wikis q.host q.namespaceId) q.sroffset.toNat v

/-- Titles and time stamps are kept. -/
theorem Article.hit_injective (host : String) : Function.Injective (Article.hit host) := by
  rintro ⟨title, timestamp⟩ ⟨title', timestamp'⟩ h
  simp only [Article.hit, Hit.mk.injEq] at h
  rw [h.1, h.2.2]

theorem parseHit_of_isElement {a : Article} {v : Value} (h : a.IsElement v) (host : String) :
    parseHit host v = .ok (a.hit host) := by
  unfold parseHit
  rw [h.title]
  cases ht : a.timestamp with
  | none => simp [h.timestamp, ht, Article.hit]
  | some t => simp [h.timestamp, ht, Article.hit]

theorem parseRelatedWorks_of_isPage {articles : List Article} {offset : Nat} {v : Value}
    (h : IsPage articles offset v) (host : String) :
    parseRelatedWorks v host = .ok (((articles.drop offset).take 50).map (Article.hit host)) := by
  rw [parseRelatedWorks, if_pos h.isHash]
  show (search v).mapM (parseHit host) = _
  have hsearch := h.search
  generalize search v = events at hsearch
  generalize (articles.drop offset).take 50 = found at hsearch
  induction hsearch with
  | nil => rfl
  | cons hhead _ ih =>
    rw [List.mapM_cons, parseHit_of_isElement hhead, ih]
    rfl

/-! ## One language -/

section Language

variable {env : Env} {web : Web} {rs : RetrievalStatus} {work₀ : Work} {langs : List String}
variable {Known : Work → Session → Prop} {wikis : Wikis}

/-- What the further pages add, up to order and repetition. -/
theorem morePages_run
    (hsteady : Steady env web rs (getQueryUrl env) (fun q => urlFor q work₀) Known)
    (hserve : wikis.Serve langs work₀ web) (source : Source) (host continueAt : String)
    {pages : List Nat} {hits : List Hit} {work : Work} {s : Session} (hknown : Known work s) :
    ∃ hits' work' s', (morePages env source host continueAt
        (pages.map (fun n : Nat => (n : Int))) hits work).run (handle env web rs) s =
          (.ok (hits', work'), s') ∧ Known work' s' ∧
      ∀ hit, hit ∈ hits' ↔ hit ∈ hits ++
        (pages.flatMap (fun n => (wikis.english.drop (n * 50)).take 50)).map
          (Article.hit host) := by
  induction pages generalizing hits work s with
  | nil => exact ⟨hits, work, s, rfl, hknown, by simp⟩
  | cons page pages ih =>
    have hoffset : (0 : Int) ≤ page * 50 := by omega
    obtain ⟨v, work', s', hpage, hknown', hrun, -⟩ := run_page hsteady hknown
      (hserve { sroffset := page * 50, continueAt := continueAt } List.mem_cons_self hoffset)
      (fun found => (source.getResult found.2 found.1).bind fun result =>
        (Program.ofExcept (parseRelatedWorks result host)).bind fun more =>
          morePages env source host continueAt (pages.map (fun n : Nat => (n : Int)))
            ((hits ++ more).eraseDups) found.2)
      (fun work result => (Program.ofExcept (parseRelatedWorks result host)).bind fun more =>
          morePages env source host continueAt (pages.map (fun n : Nat => (n : Int)))
            ((hits ++ more).eraseDups) work) (fun _ => rfl)
    rw [parseRelatedWorks_of_isPage hpage] at hrun
    obtain ⟨hits', work'', s'', hrest, hknown'', hmem⟩ := ih hknown'
    refine ⟨hits', work'', s'', hrun.trans hrest, hknown'', fun hit => ?_⟩
    have htoNat : ((page : Int) * 50).toNat = page * 50 := by omega
    simp only [hmem, List.mem_append, List.mem_eraseDups, List.flatMap_cons, List.map_append,
      htoNat, Wikis.english, or_assoc]

/-- The articles that are collected for a language. -/
def Wikis.collected (wikis : Wikis) (lang : String) : List Article :=
  (wikis.own lang).take 50 ++
    (wikis.english.drop 50).take (((wikis.own lang).length + 49) / 50 * 50 - 50)

/-- The further pages, taken together. -/
theorem flatMap_further (l : List Article) (n : Nat) :
    (List.range' 1 n).flatMap (fun k => (l.drop (k * 50)).take 50) = (l.drop 50).take (n * 50) := by
  have hwindows := flatMap_windows 50 50 n l
  have hstart : ∀ k, (1 + k) * 50 = 50 + k * 50 := by omega
  rw [List.range'_eq_map_range, List.flatMap_map]
  simp only [hstart, hwindows]

theorem searchLanguage_run
    (hsteady : Steady env web rs (getQueryUrl env) (fun q => urlFor q work₀) Known)
    (hserve : wikis.Serve langs work₀ web) (source : Source) {lang : String} (hlang : lang ∈ langs)
    {work : Work} {s : Session} (hknown : Known work s) :
    ∃ hits work' s', (searchLanguage env source lang work).run (handle env web rs) s =
        (.ok (hits, work'), s') ∧ Known work' s' ∧
      ∀ hit, hit ∈ hits ↔ hit ∈ (wikis.collected lang).map (Article.hit (hostOf lang)) := by
  have hwiki : (hostOf lang, namespaceOf lang) ∈
      ("en.wikipedia.org", "0") :: langs.map (fun lang => (hostOf lang, namespaceOf lang)) :=
    List.mem_cons_of_mem _ (List.mem_map_of_mem hlang)
  let q : Query := { host := hostOf lang, namespaceId := namespaceOf lang }
  obtain ⟨work', s', hquery, hknown'⟩ := hsteady.asks q work s hknown
  obtain ⟨v, hweb, hpage⟩ := hserve q hwiki le_rfl s'.results
  have hget : (Fetch.get (urlFor q work₀)).run (handle env web rs) s' =
      (.ok v, { s' with results := s'.results ++ [v] }) :=
    (Program.run_call _ _).trans (handle_get hweb)
  have hfirst : ((wikis.own lang).drop q.sroffset.toNat).take 50 = (wikis.own lang).take 50 := rfl
  have hquery' : (getQueryUrl env { host := hostOf lang, namespaceId :=
      if lang = "commons" then "6" else "0" } work).run (handle env web rs) s =
        (.ok (some (urlFor q work₀), work'), s') := hquery
  rw [searchLanguage, Program.run_bind_of_ok hquery']
  dsimp only
  rw [Program.run_bind_of_ok hget, if_pos hpage.isHash, parseRelatedWorks_of_isPage hpage]
  have htotal : totalHits v = (wikis.own lang).length := hpage.total
  simp only [Program.ofExcept, Program.bind, htotal, rows]
  by_cases hmore : 50 < (wikis.own lang).length
  · rw [if_pos (by omega)]
    obtain ⟨hits, work'', s'', hrun, hknown'', hmem⟩ := morePages_run hsteady hserve source
      (hostOf lang) _ (hsteady.reads work' s' v hknown')
    refine ⟨hits, work'', s'', hrun, hknown'', fun hit => ?_⟩
    have hpages : ((((wikis.own lang).length : Int) + 50 - 1) / 50).toNat =
        ((wikis.own lang).length + 49) / 50 := by omega
    rw [hmem, hpages, flatMap_further, Nat.sub_mul, Wikis.collected, List.map_append]
    rfl
  · rw [if_neg (by omega)]
    refine ⟨_, work', _, rfl, hsteady.reads work' s' v hknown', fun hit => ?_⟩
    have hnone : ((wikis.own lang).length + 49) / 50 * 50 - 50 = 0 := by omega
    rw [Wikis.collected, hnone, List.take_zero, List.append_nil]
    rfl

end Language

/-! ## All languages -/

/-- What the hash has for a language. -/
def hitsOf (sum : List (String × List Hit)) (lang : String) : Option (List Hit) :=
  (sum.find? (fun entry => entry.1 == lang)).map Prod.snd

theorem hitsOf_setHits (sum : List (String × List Hit)) (lang other : String) (hits : List Hit) :
    hitsOf (setHits sum lang hits) other =
      if other = lang then some hits else hitsOf sum other := by
  unfold setHits
  split
  next hold =>
    -- the keys stay as they are, so the same entry is found before and after
    have hkeys : (fun entry : String × List Hit => entry.1 == other) ∘
        (fun entry => if entry.1 == lang then (lang, hits) else entry) =
          fun entry => entry.1 == other := by
      funext entry
      by_cases h : entry.1 = lang
      · simp [h]
      · simp [h]
    rw [hitsOf, List.find?_map, hkeys]
    cases hfind : sum.find? (fun entry => entry.1 == other) with
    | none =>
      have hne : other ≠ lang := by
        rintro rfl
        obtain ⟨entry, hentry, hkey⟩ := List.any_eq_true.mp hold
        exact List.find?_eq_none.mp hfind entry hentry hkey
      simp [hne, hitsOf, hfind]
    | some entry =>
      have hkey : entry.1 = other := by simpa using List.find?_some hfind
      by_cases h : other = lang
      · simp [hkey, h]
      · simp [hkey, h, hitsOf, hfind]
  next hnew =>
    have hnone : sum.find? (fun entry => entry.1 == lang) = none := by
      rw [List.find?_eq_none]
      intro entry hentry hkey
      exact hnew (List.any_eq_true.mpr ⟨entry, hentry, hkey⟩)
    by_cases h : other = lang
    · simp [hitsOf, List.find?_append, h, hnone]
    · have hkey : (lang == other) = false := by simpa using Ne.symm h
      simp [hitsOf, List.find?_append, h, hkey]

theorem get_toData_str {sum : List (String × List Hit)} {lang : String} {hits : List Hit}
    (h : hitsOf sum lang = some hits) :
    (toData sum).get (.str lang) = .arr (hits.map Hit.toValue) := by
  obtain ⟨entry, hfind, rfl⟩ := Option.map_eq_some_iff.mp h
  unfold toData Value.get
  dsimp only
  rw [List.find?_map]
  have hkeys : ∀ f : String × List Hit → Key × Value, (∀ e, (f e).1 = .str e.1) →
      (fun e : Key × Value => decide (e.1 = .str lang)) ∘ f = fun e => e.1 == lang := by
    intro f hf
    funext e
    simp [hf, beq_eq_decide]
  rw [hkeys _ (fun e => rfl), hfind]
  rfl

theorem Hit.toValue_injective : Function.Injective Hit.toValue := by
  rintro ⟨title, url, timestamp⟩ ⟨title', url', timestamp'⟩ h
  cases timestamp <;> cases timestamp' <;> simp_all [Hit.toValue]

section Languages

variable {env : Env} {web : Web} {rs : RetrievalStatus} {work₀ : Work}
variable {Known : Work → Session → Prop} {wikis : Wikis}

/-- Every language ends with what was collected for it. -/
theorem searchAll_run
    (hsteady : Steady env web rs (getQueryUrl env) (fun q => urlFor q work₀) Known)
    (source : Source) {all langs : List String} (hserve : wikis.Serve all work₀ web)
    (hlangs : ∀ lang ∈ langs, lang ∈ all) {sum : List (String × List Hit)} {work : Work}
    {s : Session} (hknown : Known work s) :
    ∃ sum' s', (searchAll env source langs sum work).run (handle env web rs) s = (.ok sum', s') ∧
      (∀ lang ∈ langs, ∃ hits, hitsOf sum' lang = some hits ∧
        ∀ hit, hit ∈ hits ↔ hit ∈ (wikis.collected lang).map (Article.hit (hostOf lang))) ∧
      ∀ lang, lang ∉ langs → hitsOf sum' lang = hitsOf sum lang := by
  -- a language that is listed twice is searched twice, and the second time counts
  induction langs generalizing sum work s with
  | nil => exact ⟨sum, s, rfl, by simp, fun _ _ => rfl⟩
  | cons lang langs ih =>
    obtain ⟨hits, work', s', hlanguage, hknown', hmem⟩ := searchLanguage_run hsteady hserve source
      (hlangs lang List.mem_cons_self) hknown
    obtain ⟨sum', s'', hrest, hfound, hkept⟩ := ih
      (fun l hl => hlangs l (List.mem_cons_of_mem _ hl)) hknown'
    refine ⟨sum', s'', ?_, fun l hl => ?_, fun l hl => ?_⟩
    · rw [searchAll, Program.run_bind_of_ok hlanguage]
      exact hrest
    · by_cases hagain : l ∈ langs
      · exact hfound l hagain
      · obtain rfl : l = lang := (List.mem_cons.mp hl).resolve_right hagain
        refine ⟨hits, ?_, hmem⟩
        rw [hkept l hagain, hitsOf_setHits, if_pos rfl]
    · have hne : l ≠ lang := fun h => hl (h ▸ List.mem_cons_self)
      rw [hkept l (fun h => hl (List.mem_cons_of_mem _ h)), hitsOf_setHits, if_neg hne]

/-- What `get_data` returns: for every language, the articles collected. -/
theorem getData_run
    (hsteady : Steady env web rs (getQueryUrl env) (fun q => urlFor q work₀) Known)
    (source : Source) (hserve : wikis.Serve (languages source) work₀ web) {work : Work}
    (hdoi : present (work.col .doi) = true) {s : Session} (hknown : Known work s) :
    ∃ data s', (getData env source work).run (handle env web rs) s = (.ok data, s') ∧
      ∀ lang ∈ languages source, ∀ v, v ∈ (data.get (.str lang)).toArray ↔
        ∃ a ∈ wikis.collected lang, (a.hit (hostOf lang)).toValue = v := by
  obtain ⟨sum, s', hall, hfound, -⟩ := searchAll_run hsteady source hserve (fun _ h => h) hknown
  refine ⟨toData sum, s', ?_, fun lang hlang v => ?_⟩
  · rw [getData, if_neg (by simp [hdoi]), Program.run_bind_of_ok hall]
    rfl
  · obtain ⟨hits, hhits, hmem⟩ := hfound lang hlang
    simp [get_toData_str hhits, Value.toArray, hmem]

/-- The articles collected for a language are those of its wiki: it is
English, or its wiki has no further page, or what the English Wikipedia has
there instead makes no difference. -/
def Wikis.SameFurther (wikis : Wikis) (lang : String) : Prop :=
  lang = "en" ∨ (wikis.own lang).length ≤ 50 ∨ ∀ a, a ∈ wikis.own lang ↔ a ∈ wikis.collected lang

/-- English asks itself, and without further pages no other wiki is asked. -/
theorem Wikis.SameFurther.mem_iff {lang : String} (h : wikis.SameFurther lang) (a : Article) :
    a ∈ wikis.own lang ↔ a ∈ wikis.collected lang := by
  unfold Wikis.collected
  rcases h with rfl | hfits | h
  · have hown : wikis.own "en" = wikis.english := by
      have hhost : hostOf "en" = "en.wikipedia.org" := by decide
      rw [Wikis.own, hhost]
      rfl
    rw [hown, List.take_of_length_le (l := wikis.english.drop 50) (by rw [List.length_drop]; omega),
      List.take_append_drop]
  · have hnone : ((wikis.own lang).length + 49) / 50 * 50 - 50 = 0 := by omega
    rw [hnone, List.take_zero, List.append_nil, List.take_of_length_le hfits]
  · exact h a

/-- **The hits of every language are those of its own wiki, exactly if for
every language the further pages make no difference.** -/
theorem getData_complete_iff_sameFurther
    (hsteady : Steady env web rs (getQueryUrl env) (fun q => urlFor q work₀) Known)
    (source : Source) (hserve : wikis.Serve (languages source) work₀ web) {work : Work}
    (hdoi : present (work.col .doi) = true) {s : Session} (hknown : Known work s) :
    (∃ data s', (getData env source work).run (handle env web rs) s = (.ok data, s') ∧
      ∀ lang ∈ languages source, ∀ v, v ∈ (data.get (.str lang)).toArray ↔
        ∃ a ∈ wikis.own lang, (a.hit (hostOf lang)).toValue = v) ↔
      ∀ lang ∈ languages source, wikis.SameFurther lang := by
  obtain ⟨data, s', hrun, hdata⟩ := getData_run hsteady source hserve hdoi hknown
  have hinj : ∀ lang, Function.Injective (fun a : Article => (a.hit (hostOf lang)).toValue) :=
    fun lang => Hit.toValue_injective.comp (Article.hit_injective _)
  constructor
  · rintro ⟨data', t, hrun', hcomplete⟩ lang hlang
    rw [hrun] at hrun'
    obtain ⟨rfl, rfl⟩ : data = data' ∧ s' = t := by simpa using hrun'
    refine .inr (.inr fun a => ?_)
    have hiff := (hcomplete lang hlang _).symm.trans (hdata lang hlang
      (a.hit (hostOf lang)).toValue)
    constructor
    · intro ha
      obtain ⟨b, hb, heq⟩ := hiff.mp ⟨a, ha, rfl⟩
      rwa [← hinj lang heq]
    · intro ha
      obtain ⟨b, hb, heq⟩ := hiff.mpr ⟨a, ha, rfl⟩
      rwa [← hinj lang heq]
  · intro hsame
    refine ⟨data, s', hrun, fun lang hlang v => (hdata lang hlang v).trans ?_⟩
    simp only [(hsame lang hlang).mem_iff]

end Languages

/-! ## A German article too many -/

/-- An element of `"search"`. -/
def Article.toValue (a : Article) : Value :=
  .hash
    [(.str "title", .str a.title), (.str "timestamp", (a.timestamp.map Value.str).getD .nil)]

/-- The answer of a wiki. -/
def pageFrom (articles : List Article) (offset : Nat) : Value :=
  .hash [(.str "query", .hash
    [(.str "searchinfo", .hash [(.str "totalhits", .int articles.length)]),
     (.str "search", .arr (((articles.drop offset).take 50).map Article.toValue))])]

theorem isPage_pageFrom (articles : List Article) (offset : Nat) :
    IsPage articles offset (pageFrom articles offset) where
  isHash := rfl
  total := by simp [totalHits, pageFrom, Value.fetch, Value.toI]
  search := by
    have hsearch : search (pageFrom articles offset) =
        ((articles.drop offset).take 50).map Article.toValue := by
      simp [search, pageFrom, Value.fetch, Value.toArray]
    rw [hsearch, List.forall₂_map_right_iff, List.forall₂_same]
    intro a _
    exact ⟨by simp [Article.toValue, Value.fetch], by simp [Article.toValue, Value.fetch]⟩

/-- A URL up to the offset. -/
def beforeOffset (host namespaceId : String) (work : Work) : String :=
  "http://" ++ host ++ "/w/api.php?action=query&list=search&format=json&srsearch=" ++
    queryString work ++ "&srnamespace=" ++ namespaceId ++
    "&srwhat=text&srinfo=totalhits&srprop=timestamp&srlimit=50&sroffset="

/-- The number after so many characters. -/
def numberAt (start : Nat) (url : String) : Nat :=
  Nat.ofDigitChars 10 ((url.toList.drop start).takeWhile Char.isDigit) 0

theorem numberAt_append (before after : String) (n : Nat)
    (hafter : after.toList.head?.all (fun c => !c.isDigit)) :
    numberAt before.toList.length (before ++ toString n ++ after) = n := by
  have hdigits : ∀ c ∈ Nat.toDigits 10 n, c.isDigit = true := fun c hc =>
    Nat.isDigit_of_mem_toDigits (by decide) (by decide) hc
  have hstop : after.toList.takeWhile Char.isDigit = [] := by
    cases hchars : after.toList with
    | nil => rfl
    | cons c cs =>
      have hc : c.isDigit = false := by simpa [hchars] using hafter
      simp [hc]
  simp only [numberAt, String.toList_append, List.append_assoc, List.drop_left,
    Nat.toString_eq_ofList_toDigits, String.toList_ofList]
  rw [List.takeWhile_append_of_pos hdigits, hstop, List.append_nil,
    Nat.ofDigitChars_ten_toDigits]

/-- A work that is mentioned. -/
def mentioned : Work where
  id := 1
  col := fun
    | .doi => some "10.1371/journal.pone.0000001"
    | .canonicalUrl => some "http://journals.plos.org/plosone/article?id=1"
    | _ => none

def articles (n : Nat) : List Article :=
  (List.range n).map (fun k => { title := "Artikel " ++ toString k, timestamp := none })

/-- Only the German Wikipedia has articles, `n` of them. -/
def germanOnly (n : Nat) : Wikis := fun host _ =>
  if host = "de.wikipedia.org" then articles n else []

def germanWeb (n : Nat) : Web := fun _ url =>
  .body (if (url.toList.drop 7).take 2 = ['d', 'e'] then
    pageFrom (articles n)
      (numberAt (beforeOffset "de.wikipedia.org" "0" mentioned).toList.length url)
  else pageFrom [] 0)

def wikipedia : Source := { type := .wikipedia, name := "wikipedia", title := "Wikipedia" }

/-- The host comes after the scheme. -/
theorem take_append_scheme (host a b c d e f g h : String) (hhost : 2 ≤ host.toList.length) :
    (("http://" ++ host ++ a ++ b ++ c ++ d ++ e ++ f ++ g ++ h).toList.drop 7).take 2 =
      host.toList.take 2 := by
  have hscheme : "http://".toList.length = 7 := by decide
  simp only [String.toList_append, List.append_assoc]
  rw [List.drop_left' hscheme, List.take_append_of_le_length hhost]

theorem take_urlFor (q : Query) (work : Work) (h : 2 ≤ q.host.toList.length) :
    ((urlFor q work).toList.drop 7).take 2 = q.host.toList.take 2 :=
  take_append_scheme _ _ _ _ _ _ _ _ _ h

theorem hosts_wikipedia : ∀ wiki ∈ ("en.wikipedia.org", "0") ::
      (languages wikipedia).map (fun lang => (hostOf lang, namespaceOf lang)),
    wiki = ("de.wikipedia.org", "0") ∨
      2 ≤ wiki.1.toList.length ∧ wiki.1.toList.take 2 ≠ ['d', 'e'] := by
  decide +kernel

theorem germanOnly_serve (n : Nat) :
    (germanOnly n).Serve (languages wikipedia) mentioned (germanWeb n) := by
  have hlength : 2 ≤ "de.wikipedia.org".toList.length := by decide
  have hstart : "de.wikipedia.org".toList.take 2 = ['d', 'e'] := by decide
  rintro ⟨host, namespaceId, sroffset, continueAt⟩ hwiki hoffset results
  rcases hosts_wikipedia _ hwiki with hgerman | ⟨hlong, hother⟩
  · obtain ⟨rfl, rfl⟩ : host = "de.wikipedia.org" ∧ namespaceId = "0" := by simpa using hgerman
    obtain ⟨offset, rfl⟩ := Int.eq_ofNat_of_zero_le hoffset
    refine ⟨_, rfl, ?_⟩
    rw [take_urlFor _ _ hlength, if_pos hstart]
    have hnumber : numberAt (beforeOffset "de.wikipedia.org" "0" mentioned).toList.length
        (urlFor ⟨"de.wikipedia.org", "0", (offset : Int), continueAt⟩ mentioned) = offset := by
      have hafter := numberAt_append (beforeOffset "de.wikipedia.org" "0" mentioned)
        ("&continue=" ++ continueAt) offset (by
          rw [String.toList_append, List.head?_append]
          rfl)
      rw [← String.append_assoc] at hafter
      exact hafter
    rw [hnumber]
    exact isPage_pageFrom _ _
  · have hne : host ≠ "de.wikipedia.org" := by
      rintro rfl
      exact hother hstart
    refine ⟨_, rfl, ?_⟩
    rw [take_urlFor _ _ hlong, if_neg hother]
    simp only [germanOnly, if_neg hne]
    have hpage := isPage_pageFrom [] 0
    exact ⟨hpage.isHash, hpage.total, by simpa using hpage.search⟩

theorem mentioned_steady (n : Nat) : Steady plainEnv (germanWeb n) { workId := 1, sourceId := 1 }
    (getQueryUrl plainEnv) (fun q => urlFor q mentioned) (fun work _ => work = mentioned) :=
  steady_of_done (fun q => by
    have hurl : mentioned.getUrl plainEnv = .done (true, mentioned) := by
      rw [Work.getUrl, if_pos (by decide)]
    rw [getQueryUrl, hurl]
    rfl)

theorem length_articles (n : Nat) : (articles n).length = n := by simp [articles]

/-- Three German articles are all found, and nothing else. -/
theorem three_german_articles :
    ∃ data s', (getData plainEnv wikipedia mentioned).run
        (handle plainEnv (germanWeb 3) { workId := 1, sourceId := 1 }) { db := {} } =
          (.ok data, s') ∧
      ∀ lang ∈ languages wikipedia, ∀ v, v ∈ (data.get (.str lang)).toArray ↔
        ∃ a ∈ (germanOnly 3).own lang, (a.hit (hostOf lang)).toValue = v := by
  refine (getData_complete_iff_sameFurther (mentioned_steady 3) wikipedia (germanOnly_serve 3)
    (by decide) rfl).mpr (fun lang _ => .inr (.inl ?_))
  unfold Wikis.own germanOnly
  split
  · rw [length_articles]
    decide
  · exact Nat.zero_le _

/-- The last of 51 German articles is not found: its page is asked of the
English Wikipedia. -/
theorem german_article_missing :
    ∃ data s' a, (getData plainEnv wikipedia mentioned).run
        (handle plainEnv (germanWeb 51) { workId := 1, sourceId := 1 }) { db := {} } =
          (.ok data, s') ∧
      "de" ∈ languages wikipedia ∧ a ∈ (germanOnly 51).own "de" ∧
      (a.hit (hostOf "de")).toValue ∉ (data.get (.str "de")).toArray := by
  have hde : "de" ∈ languages wikipedia := by decide +kernel
  obtain ⟨data, s', hrun, hdata⟩ := getData_run (mentioned_steady 51) wikipedia
    (germanOnly_serve 51) (by decide) (s := { db := {} }) rfl
  have hhost : hostOf "de" = "de.wikipedia.org" := by decide
  have hown : (germanOnly 51).own "de" = articles 51 := by
    rw [Wikis.own, hhost]
    rfl
  have henglish : (germanOnly 51).english = [] := by simp [germanOnly, Wikis.english]
  refine ⟨data, s', { title := "Artikel 50", timestamp := none }, hrun, hde, ?_, fun hmem => ?_⟩
  · rw [hown]
    decide +kernel
  · obtain ⟨b, hb, heq⟩ := (hdata "de" hde _).mp hmem
    rw [Hit.toValue_injective.comp (Article.hit_injective _) heq, Wikis.collected, hown,
      henglish] at hb
    exact absurd hb (by decide +kernel)

end Lagotto.Wikipedia
