/-
Lagotto.Source.F1000Theorems — which recommendations of a feed are stored.

`recommend` is what an import does for one article: a new revision of the
document of its DOI, with the recommendation in place of the entries for the
same month (`put_eq_recommend`). The loop does this for the articles before the
first one without a DOI (`parseItems_articles`), and since each write makes a
new revision, an article that is left out is missing in the documents
(`foldl_recommend_eq_iff`).
-/
import Lagotto.Source.F1000

namespace Lagotto.F1000

open Documents

variable {urlDb : String} {clock : Clock}

/-! ## One article -/

/-- The DOI an article is stored under. -/
def Article.entry (a : Article) : Option (Article × String) := a.doi.map (fun doi => (a, doi))

/-- The document of the DOI gets the recommendation, in place of entries for the
same month and year. -/
def recommend (urlDb : String) (clock : Clock) (couch : Couch (List Recommendation))
    (entry : Article × String) : Couch (List Recommendation) :=
  fun url =>
    if url = Couchable.documentUrl urlDb entry.2 then
      some ⟨(couch.rev url).getD 0 + 1, replace Recommendation.period
        (recommendation clock entry.1 entry.2) ((couch.body url).getD [])⟩
    else couch url

/-- The requests for an article store its recommendation. -/
theorem put_eq_recommend {found : Except Couchable.ErrorHash (Document (List Recommendation))}
    {couch : Couch (List Recommendation)} {a : Article} {doi : String}
    (hfound : Couchable.getResult couch (Couchable.documentUrl urlDb doi) none = .ok found) :
    (Couchable.putLagottoData couch (Couchable.documentUrl urlDb doi)
        (updated found (recommendation clock a doi)).1
        (updated found (recommendation clock a doi)).2 none).2 =
      recommend urlDb clock couch (a, doi) := by
  simp only [Couchable.getResult] at hfound
  funext url
  cases hdocument : couch (Couchable.documentUrl urlDb doi) with
  | none | some document =>
    simp only [hdocument, Except.ok.injEq] at hfound
    subst hfound
    simp only [updated, Couchable.putLagottoData, Store.put, Store.rev, hdocument, recommend,
      Store.body]
    by_cases hurl : url = Couchable.documentUrl urlDb doi
    · simp [hurl, hdocument, replace]
    · simp [hurl]

/-! ## Revisions -/

/-- How often a document has been written. -/
def revision (couch : Couch (List Recommendation)) (url : String) : Nat := (couch.rev url).getD 0

theorem revision_recommend (couch : Couch (List Recommendation)) (entry : Article × String)
    (url : String) :
    revision (recommend urlDb clock couch entry) url =
      if url = Couchable.documentUrl urlDb entry.2 then revision couch url + 1
      else revision couch url := by
  simp only [revision, Store.rev, recommend]
  split <;> rfl

theorem revision_le_foldl (urlDb : String) (clock : Clock) (entries : List (Article × String))
    (couch : Couch (List Recommendation)) (url : String) :
    revision couch url ≤ revision (entries.foldl (recommend urlDb clock) couch) url := by
  induction entries generalizing couch with
  | nil => exact le_rfl
  | cons entry rest ih =>
    have hstep : revision couch url ≤ revision (recommend urlDb clock couch entry) url := by
      rw [revision_recommend]
      split <;> omega
    exact hstep.trans (ih (recommend urlDb clock couch entry))

/-- What is stored makes a difference. -/
theorem foldl_recommend_eq_iff (entries : List (Article × String))
    (couch : Couch (List Recommendation)) :
    entries.foldl (recommend urlDb clock) couch = couch ↔ entries = [] := by
  cases entries with
  | nil => simp
  | cons entry rest =>
    simp only [List.foldl_cons, reduceCtorEq, iff_false]
    intro heq
    have hle := revision_le_foldl urlDb clock rest (recommend urlDb clock couch entry)
      (Couchable.documentUrl urlDb entry.2)
    rw [heq, revision_recommend, if_pos rfl] at hle
    omega

/-! ## The loop -/

/-- How the loop ends at the first article without a DOI. -/
def ending : List Article → Except Raised Unit
  | [] => .ok ()
  | a :: _ =>
    if a.fields.isEmpty then .error ⟨"NoMethodError", "undefined method `[]' for nil:NilClass"⟩
    else .ok ()

/-- The loop stores the articles before the first one without a DOI. -/
theorem parseItems_articles (articles : List Article) (couch : Couch (List Recommendation)) :
    parseItems urlDb clock (articles.map Article.item) couch =
      (ending (articles.dropWhile (·.doi.isSome)),
        ((articles.takeWhile (·.doi.isSome)).filterMap Article.entry).foldl
          (recommend urlDb clock) couch) := by
  induction articles generalizing couch with
  | nil => rfl
  | cons a rest ih =>
    cases hdoi : a.doi with
    | none =>
      -- the loop ends here
      simp only [List.map_cons, parseItems, List.dropWhile_cons, List.takeWhile_cons, hdoi,
        Option.isSome_none, Bool.false_eq_true, if_false, List.filterMap_nil, List.foldl_nil,
        Article.item, ending]
      cases a.fields.isEmpty with
      | true => simp only [if_true, Item.doi]
      | false => simp only [Bool.false_eq_true, if_false, Item.doi, hdoi, Option.map_none]
    | some doi =>
      have hitem : a.item = .article a := by
        unfold Article.item
        split
        next hempty =>
          rw [List.isEmpty_iff] at hempty
          simp [Article.doi, Article.get, hempty] at hdoi
        next => rfl
      have hfound : ∃ found,
          Couchable.getResult couch (Couchable.documentUrl urlDb doi) none = .ok found := by
        unfold Couchable.getResult
        cases couch (Couchable.documentUrl urlDb doi) with
        | none => exact ⟨_, rfl⟩
        | some document => exact ⟨_, rfl⟩
      obtain ⟨found, hfound⟩ := hfound
      simp only [List.map_cons, parseItems, hitem, Item.doi, hdoi, Option.map_some, hfound,
        put_eq_recommend hfound, ih, List.dropWhile_cons, List.takeWhile_cons, Option.isSome_some,
        if_true, Article.entry, List.filterMap_cons, List.foldl_cons]

theorem ending_eq_ok_iff (articles : List Article) :
    ending articles = .ok () ↔ ∀ a, articles.head? = some a → a.fields ≠ [] := by
  cases articles with
  | nil => simp [ending]
  | cons a rest =>
    simp only [ending, List.isEmpty_iff, List.head?_cons, Option.some.injEq, forall_eq']
    split
    next h => simp [h]
    next h => simp [h]

/-! ## Feeds -/

/-- Each article with a DOI is stored, one after the other, and nothing else. -/
def Stores (urlDb : String) (clock : Clock) (articles : List Article)
    (couch : Couch (List Recommendation)) : Prop :=
  parseFeed urlDb clock articles couch =
    (.ok (), (articles.filterMap Article.entry).foldl (recommend urlDb clock) couch)

theorem recommendations_of_length {articles : List Article} (h : articles.length ≠ 1) :
    recommendations articles = articles.map Article.item := by
  cases articles with
  | nil => rfl
  | cons a rest =>
    cases rest with
    | nil => exact absurd rfl h
    | cons b rest => rfl

theorem filterMap_entry_eq_nil_iff (articles : List Article) :
    articles.filterMap Article.entry = [] ↔ ∀ a ∈ articles, a.doi = none := by
  simp only [List.filterMap_eq_nil_iff, Article.entry, Option.map_eq_none_iff]

/-- A feed with two or more articles, or none. -/
theorem stores_iff_of_length {articles : List Article} (h : articles.length ≠ 1)
    (couch : Couch (List Recommendation)) :
    Stores urlDb clock articles couch ↔
      (∀ a ∈ articles.dropWhile (·.doi.isSome), a.doi = none) ∧
        ∀ a, (articles.dropWhile (·.doi.isSome)).head? = some a → a.fields ≠ [] := by
  unfold Stores parseFeed
  rw [recommendations_of_length h, parseItems_articles, Prod.mk.injEq, ending_eq_ok_iff, and_comm,
    ← filterMap_entry_eq_nil_iff]
  refine and_congr_left (fun _ => ?_)
  -- the articles are those that were stored and those behind them
  have hsplit : articles.filterMap Article.entry =
      (articles.takeWhile (·.doi.isSome)).filterMap Article.entry ++
        (articles.dropWhile (·.doi.isSome)).filterMap Article.entry := by
    rw [← List.filterMap_append, List.takeWhile_append_dropWhile]
  rw [hsplit, List.foldl_append, eq_comm, foldl_recommend_eq_iff]

/-- The single article of a feed. -/
theorem stores_singleton_iff (a : Article) (couch : Couch (List Recommendation)) :
    Stores urlDb clock [a] couch ↔ a.fields = [] := by
  unfold Stores parseFeed recommendations
  cases hfields : a.fields with
  | nil =>
    have hdoi : a.doi = none := by simp [Article.doi, Article.get, hfields]
    simp [hfields, parseItems, Article.entry, hdoi]
  | cons field rest => simp [hfields, parseItems, Item.doi]

/-- A feed is stored exactly if it is not a single article, no article with a
DOI comes after one without, and the first one without has other fields. -/
theorem recommendations_stored_iff (urlDb : String) (clock : Clock) (articles : List Article)
    (couch : Couch (List Recommendation)) :
    Stores urlDb clock articles couch ↔
      (articles.length = 1 → ∀ a ∈ articles, a.fields = []) ∧
        (articles.length ≠ 1 →
          (∀ a ∈ articles.dropWhile (·.doi.isSome), a.doi = none) ∧
            ∀ a, (articles.dropWhile (·.doi.isSome)).head? = some a → a.fields ≠ []) := by
  by_cases hlength : articles.length = 1
  · obtain ⟨a, rfl⟩ := List.length_eq_one_iff.mp hlength
    simp [stores_singleton_iff]
  · rw [stores_iff_of_length hlength]
    simp [hlength]

/-- An article with an id, a score and perhaps a DOI. -/
def sample (id : String) (doi : Option String) : Article where
  fields := [("Id", some id), ("Doi", doi), ("TotalScore", some "3")]
  distinct := by
    simp only [List.map_cons, List.map_nil]
    decide +kernel

/-- The import of a feed with one article raises, and behind an article without
a DOI nothing is stored. -/
theorem article_not_stored :
    let clock : Clock := ⟨2015, 6, "2015-06-01T00:00:00Z"⟩
    let urlDb := "http://127.0.0.1:5984/f1000/"
    let doi := "10.1371/journal.pmed.0020059"
    let single := [sample "4085" (some doi)]
    let gap := [sample "4084" none, sample "4085" (some doi)]
    ¬ Stores urlDb clock single Store.empty ∧ ¬ Stores urlDb clock gap Store.empty ∧
      (parseFeed urlDb clock single Store.empty).1 =
        .error ⟨"TypeError", "no implicit conversion of String into Integer"⟩ ∧
      ((parseFeed urlDb clock gap Store.empty).2.body
        (Couchable.documentUrl urlDb doi)) = none := by
  intro clock urlDb doi single gap
  have hsingle : (parseFeed urlDb clock single Store.empty).1 =
      .error ⟨"TypeError", "no implicit conversion of String into Integer"⟩ := rfl
  have hgap : (parseFeed urlDb clock gap Store.empty).2.body (Couchable.documentUrl urlDb doi) =
      none := by
    decide +kernel
  refine ⟨?_, ?_, hsingle, hgap⟩
  · intro hstores
    rw [hstores] at hsingle
    cases hsingle
  · intro hstores
    rw [hstores] at hgap
    exact absurd hgap (by decide +kernel)

end Lagotto.F1000
