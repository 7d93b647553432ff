/-
Lagotto.Work.RowTheorems — the row that is stored for a record.

The columns of the row are computed from those of the record one by one
(`col_row`); the pid is computed from the columns of the row
(`pidFor_congr`: only what is present matters). From that follow the two
facts about saving again: a row is its own row (`row_row`), and assigning
values the row already has, in whatever spelling, gives the same row back
(`row_assign_of_agrees`). Both need the cleaner and the sanitizer to leave
their own output alone.
-/
import Lagotto.Work.Validation

namespace Lagotto

open Text

@[simp] theorem presence_presence (v : Option String) : presence (presence v) = presence v := by
  unfold presence
  split
  next => rfl
  next => rfl

theorem presence_of_present {v : Option String} (h : present v = true) : presence v = v := by
  rw [presence, if_pos h]

theorem presence_of_blank {v : Option String} (h : present v = false) : presence v = none := by
  rw [presence, if_neg (by simp [h])]

theorem exists_of_present {v : Option String} (h : present v = true) : ∃ s, v = some s := by
  cases v with
  | none => cases h
  | some s => exact ⟨s, rfl⟩

@[simp] theorem present_presence (v : Option String) : present (presence v) = present v := by
  cases h : present v with
  | true => rw [presence_of_present h, h]
  | false => rw [presence_of_blank h, present_none]

/-! ## One column -/

/-- `normalize_doi` on the column. -/
def loweredDoi (v : Option String) : Option String :=
  if present v then v.map String.toLower else v

/-- `normalize_url` on the column. -/
def cleanedUrl (env : Env) (v : Option String) : Option String :=
  match v with
  | none => none
  | some url =>
    if blank url then some url
    else
      match env.clean url with
      | .error _ => some url
      | .ok cleaned => if startsHttp cleaned then some cleaned else some url

/-- What the callbacks make of a column other than the pid. -/
def normalCol (env : Env) (c : Column) (v : Option String) : Option String :=
  match c with
  | .doi => loweredDoi v
  | .canonicalUrl => cleanedUrl env v
  | _ => v

theorem char_toLower_toLower (c : Char) : c.toLower.toLower = c.toLower := by
  unfold Char.toLower
  split
  next hupper =>
    split
    next hagain =>
      exfalso
      revert hupper hagain
      simp only [ge_iff_le, UInt32.le_iff_toNat_le]
      simp
      omega
    next => rfl
  next => rfl

theorem toLower_toLower (s : String) : s.toLower.toLower = s.toLower := by
  show (s.map Char.toLower).map Char.toLower = s.map Char.toLower
  rw [String.map_map]
  congr 1
  funext c
  exact char_toLower_toLower c

theorem toList_toLower (s : String) : s.toLower.toList = s.toList.map Char.toLower :=
  String.toList_map

theorem isDigit_toLower (c : Char) : c.toLower.isDigit = c.isDigit := by
  unfold Char.toLower
  split
  next hupper =>
    rw [Bool.eq_iff_iff]
    unfold Char.isDigit
    simp only [ge_iff_le, UInt32.le_iff_toNat_le, Bool.and_eq_true, decide_eq_true_eq] at hupper ⊢
    simp at hupper ⊢
    omega
  next => rfl

theorem eq_newline_of_toLower {c : Char} (h : c.toLower = '\n') : c = '\n' := by
  unfold Char.toLower at h
  split at h
  next hupper =>
    simp only [ge_iff_le, UInt32.le_iff_toNat_le] at hupper
    have hval := congrArg (fun c : Char => c.val.toNat) h
    simp at hval hupper
    omega
  next => exact h

/-- The format of a DOI does not depend on the case. -/
theorem doiFormat_toLower {s : String} (h : doiFormat s = true) : doiFormat s.toLower = true := by
  have hdigit : Char.isDigit ∘ Char.toLower = Char.isDigit := funext isDigit_toLower
  unfold doiFormat at *
  rw [toList_toLower]
  split at h
  next rest heq =>
    rw [heq, List.map_cons, List.map_cons, List.map_cons]
    show (_ && _) = true
    rw [List.takeWhile_map, List.dropWhile_map, hdigit, List.length_map]
    obtain ⟨hlength, hslash⟩ := Bool.and_eq_true_iff.mp h
    refine Bool.and_eq_true_iff.mpr ⟨hlength, ?_⟩
    split at hslash
    next c more hrest =>
      rw [hrest]
      have hne : c ≠ '\n' := by simpa using hslash
      simpa using fun hc => hne (eq_newline_of_toLower hc)
    next => cases hslash
  next => cases h

/-- Lowering what is left of a lowered column changes nothing. -/
theorem loweredDoi_again (v : Option String) :
    presence (loweredDoi (presence (loweredDoi v))) = presence (loweredDoi v) := by
  cases h : present (loweredDoi v) with
  | false => rw [presence_of_blank h, loweredDoi, if_neg (by simp), presence_of_blank present_none]
  | true =>
    rw [presence_of_present h]
    have hlow : loweredDoi (loweredDoi v) = loweredDoi v := by
      cases hv : present v with
      | false =>
        have : loweredDoi v = v := by rw [loweredDoi, if_neg (by simp [hv])]
        rw [this, this]
      | true =>
        rw [loweredDoi, if_pos h]
        cases v with
        | none => cases hv
        | some s =>
          rw [loweredDoi, if_pos hv]
          simp [toLower_toLower]
    rw [hlow, presence_of_present h]

/-- A cleaned URL stays as it is. -/
theorem cleanedUrl_cleanedUrl {env : Env}
    (hclean : ∀ url cleaned, env.clean url = .ok cleaned → env.clean cleaned = .ok cleaned)
    (v : Option String) : cleanedUrl env (cleanedUrl env v) = cleanedUrl env v := by
  cases v with
  | none => rfl
  | some url =>
    by_cases hblank : blank url = true
    · simp [cleanedUrl, hblank]
    · cases hurl : env.clean url with
      | error message => simp [cleanedUrl, hblank, hurl]
      | ok cleaned =>
        by_cases hhttp : startsHttp cleaned = true
        · simp only [cleanedUrl, hblank, hurl, hhttp, if_true, Bool.false_eq_true, if_false]
          by_cases hc : blank cleaned = true
          · simp [hc]
          · simp [hc, hclean url cleaned hurl, hhttp]
        · simp [cleanedUrl, hblank, hurl, hhttp]

theorem cleanedUrl_again {env : Env}
    (hclean : ∀ url cleaned, env.clean url = .ok cleaned → env.clean cleaned = .ok cleaned)
    (v : Option String) :
    presence (cleanedUrl env (presence (cleanedUrl env v))) = presence (cleanedUrl env v) := by
  cases h : present (cleanedUrl env v) with
  | false => rw [presence_of_blank h, cleanedUrl, presence_of_blank present_none]
  | true => rw [presence_of_present h, cleanedUrl_cleanedUrl hclean, presence_of_present h]

/-- So does every normalised column. -/
theorem normalCol_again {env : Env}
    (hclean : ∀ url cleaned, env.clean url = .ok cleaned → env.clean cleaned = .ok cleaned)
    (c : Column) (v : Option String) :
    presence (normalCol env c (presence (normalCol env c v))) = presence (normalCol env c v) := by
  cases c with
  | doi => exact loweredDoi_again v
  | canonicalUrl => exact cleanedUrl_again hclean v
  | _ => exact presence_presence v

namespace Work

/-! ## The columns of a row -/

/-- Only the DOI is lowered. -/
theorem col_normalizeDoi (w : Work) (c : Column) :
    w.normalizeDoi.col c = if c = .doi then loweredDoi (w.col c) else w.col c := by
  unfold normalizeDoi loweredDoi
  by_cases hc : c = .doi
  · subst hc
    rw [if_pos rfl]
    split
    · rw [col_setCol_self]
    · rfl
  · rw [if_neg hc]
    split
    · rw [col_setCol_of_ne _ _ hc]
    · rfl

/-- Only the URL is cleaned. -/
theorem col_normalizeUrl (env : Env) (w : Work) (c : Column) :
    (w.normalizeUrl env).1.col c =
      if c = .canonicalUrl then cleanedUrl env (w.col c) else w.col c := by
  unfold normalizeUrl
  by_cases hc : c = .canonicalUrl
  · subst hc
    rw [if_pos rfl]
    cases hv : w.col .canonicalUrl with
    | none => simp [cleanedUrl, hv]
    | some url =>
      by_cases hblank : blank url = true
      · simp [cleanedUrl, hblank, hv]
      · cases hurl : env.clean url with
        | error message => simp [cleanedUrl, hblank, hurl, hv]
        | ok cleaned =>
          by_cases hhttp : startsHttp cleaned = true
          · simp [cleanedUrl, hblank, hurl, hhttp]
          · simp [cleanedUrl, hblank, hurl, hhttp, hv]
  · rw [if_neg hc]
    split
    · rfl
    · split
      · rfl
      · split
        · rfl
        · split
          · rw [col_setCol_of_ne _ _ hc]
          · rfl

/-- `set_pid` writes the pid only. -/
theorem col_setPid_of_ne (env : Env) (w : Work) {c : Column} (hc : c ≠ .pid) :
    (w.setPid env).1.col c = w.col c := by
  unfold setPid
  split
  · rw [col_setCol_of_ne _ _ hc]
  · rfl

theorem col_setPid_pid (env : Env) (w : Work) :
    (w.setPid env).1.col .pid = (w.pidFor env).or (w.col .pid) := by
  unfold setPid
  split
  next pid h => rw [h, col_setCol_self, Option.some_or]
  next h => rw [h, Option.none_or]

/-- The record the pid is computed from. -/
def identified (env : Env) (w : Work) : Work :=
  ((w.sanitizeTitle env).normalizeUrl env).1.normalizeDoi

theorem beforeValidation_fst (env : Env) (w : Work) :
    (w.beforeValidation env).1 = ((w.identified env).setPid env).1 := rfl

theorem col_identified (env : Env) (w : Work) (c : Column) :
    (w.identified env).col c = normalCol env c (w.col c) := by
  rw [identified, col_normalizeDoi, col_normalizeUrl]
  have hsan : (w.sanitizeTitle env).col c = w.col c := rfl
  rw [hsan]
  cases c <;> simp [normalCol]

theorem col_normalise_eq (env : Env) (w : Work) :
    (w.normalise env).col = ((w.identified env).setPid env).1.col := by
  unfold normalise
  simp only [beforeValidation_fst]
  split <;> rfl

/-- What validation leaves in a column, the pid apart. -/
theorem col_normalise (env : Env) (w : Work) {c : Column} (hc : c ≠ .pid) :
    (w.normalise env).col c = normalCol env c (w.col c) := by
  rw [col_normalise_eq, col_setPid_of_ne env _ hc, col_identified]

/-- A column of the row. -/
theorem col_row (env : Env) (w : Work) {c : Column} (hc : c ≠ .pid) :
    (w.row env).col c = presence (normalCol env c (w.col c)) := by
  have h : (w.row env).col c = presence ((w.normalise env).col c) := rfl
  rw [h, col_normalise env w hc]

/-- The pid of the row. -/
theorem col_row_pid (env : Env) (w : Work) :
    (w.row env).col .pid = presence (((w.identified env).pidFor env).or (w.col .pid)) := by
  have h : (w.row env).col .pid = presence ((w.normalise env).col .pid) := rfl
  rw [h, col_normalise_eq, col_setPid_pid, col_identified]
  rfl

/-! ## The row as a whole -/

theorem normalizeUrl_eq (env : Env) (w : Work) :
    (w.normalizeUrl env).1 = { w with col := (w.normalizeUrl env).1.col } := by
  unfold normalizeUrl
  split
  · rfl
  · split
    · rfl
    · split
      · rfl
      · split <;> rfl

theorem normalizeDoi_eq (w : Work) : w.normalizeDoi = { w with col := w.normalizeDoi.col } := by
  unfold normalizeDoi
  split <;> rfl

theorem setPid_eq (env : Env) (w : Work) :
    (w.setPid env).1 = { w with col := (w.setPid env).1.col } := by
  unfold setPid
  split <;> rfl

/-- The callbacks write the identifiers and the title. -/
theorem beforeValidation_eq (env : Env) (w : Work) :
    (w.beforeValidation env).1 =
      { w with col := (w.beforeValidation env).1.col, title := w.title.map env.sanitize } := by
  rw [beforeValidation_fst, setPid_eq, identified, normalizeDoi_eq, normalizeUrl_eq]
  rfl

/-- Saving writes the identifiers, the title, the date and blanks. -/
theorem row_eq (env : Env) (w : Work) :
    w.row env =
      { w with
        col := (w.row env).col
        title := presence (w.title.map env.sanitize)
        publishedOn := (w.checkPublishedOn env).toOption.or w.publishedOn
        registrationAgency := presence w.registrationAgency } := by
  have hdate : (w.beforeValidation env).1.checkPublishedOn env = w.checkPublishedOn env := by
    rw [beforeValidation_eq]
    rfl
  have hnormal : w.normalise env =
      { w with
        col := (w.normalise env).col
        title := w.title.map env.sanitize
        publishedOn := (w.checkPublishedOn env).toOption.or w.publishedOn } := by
    unfold normalise
    simp only [hdate]
    cases hd : w.checkPublishedOn env with
    | ok date =>
      rw [beforeValidation_eq]
      rfl
    | error message =>
      rw [beforeValidation_eq]
      rfl
  unfold row
  rw [hnormal]
  rfl

/-- The callbacks do not touch the key. -/
@[simp] theorem id_row (env : Env) (w : Work) : (w.row env).id = w.id := by
  rw [row_eq]

/-! ## Saving again -/

/-- What an identifier URL is made of. -/
theorem asUrl_eq (w : Work) (base : String) (c : Column) :
    w.asUrl base c = (presence (w.col c)).map (base ++ ·) := by
  unfold asUrl
  cases hv : w.col c with
  | none => rfl
  | some s =>
    cases h : present (some s) with
    | false => rw [if_neg (by simp), presence_of_blank h, Option.map_none]
    | true => rw [if_pos rfl, presence_of_present h, Option.map_some, Option.getD_some]

/-- A blank string and nil are the same to `find? present`. -/
theorem find_present_cons (v : Option String) (rest : List (Option String)) :
    (v :: rest).find? present = (presence v :: rest).find? present := by
  cases h : present v with
  | true => rw [presence_of_present h]
  | false => rw [presence_of_blank h, List.find?_cons_of_neg (by simp [h]),
      List.find?_cons_of_neg (by simp)]

/-- Only the present identifiers count for the pid. -/
theorem pidFor_congr {env : Env} {w v : Work}
    (h : ∀ c, c ≠ .pid → presence (w.col c) = presence (v.col c)) :
    w.pidFor env = v.pidFor env := by
  have hurl : ∀ base c, c ≠ .pid → w.asUrl base c = v.asUrl base c := by
    intro base c hc
    rw [asUrl_eq, asUrl_eq, h c hc]
  have hrest : ∀ u : Work, [u.col .canonicalUrl, u.arxivAsUrl, u.arkAsUrl].find? present =
      [presence (u.col .canonicalUrl), u.arxivAsUrl, u.arkAsUrl].find? present :=
    fun u => find_present_cons _ _
  have hsplit : ∀ u : Work, u.pidFor env =
      (([u.doiAsUrl env, u.pmidAsUrl, u.pmcidAsUrl].find? present).or
        ([u.col .canonicalUrl, u.arxivAsUrl, u.arkAsUrl].find? present)).join := by
    intro u
    rw [← List.find?_append]
    rfl
  rw [hsplit, hsplit, hrest, hrest, h .canonicalUrl (by decide)]
  simp only [doiAsUrl, pmidAsUrl, pmcidAsUrl, arxivAsUrl, arkAsUrl, hurl _ .doi (by decide),
    hurl _ .pmid (by decide), hurl _ .pmcid (by decide), hurl _ .arxiv (by decide),
    hurl _ .ark (by decide)]

/-- Records whose attributes are the same once normalised have the same row.
The pid and the date of a record only count where they are not computed. -/
theorem row_congr {env : Env} {w v : Work} (hid : w.id = v.id)
    (hcol : ∀ c, c ≠ .pid →
      presence (normalCol env c (w.col c)) = presence (normalCol env c (v.col c)))
    (hpid : (v.identified env).pidFor env = none →
      presence (w.col .pid) = presence (v.col .pid))
    (htitle : presence (w.title.map env.sanitize) = presence (v.title.map env.sanitize))
    (hyear : w.year = v.year) (hmonth : w.month = v.month) (hday : w.day = v.day)
    (hpublished : (v.checkPublishedOn env).toOption = none → w.publishedOn = v.publishedOn)
    (hpublisher : w.publisherId = v.publisherId) (htype : w.workTypeId = v.workTypeId)
    (hagency : presence w.registrationAgency = presence v.registrationAgency)
    (hcsl : w.csl = v.csl) (htracked : w.tracked = v.tracked) : w.row env = v.row env := by
  have hdate : w.checkPublishedOn env = v.checkPublishedOn env := by
    unfold checkPublishedOn
    rw [hyear, hmonth, hday]
  have hfor : (w.identified env).pidFor env = (v.identified env).pidFor env :=
    pidFor_congr (fun c hc => by rw [col_identified, col_identified, hcol c hc])
  have hcols : (w.row env).col = (v.row env).col := by
    funext c
    by_cases hc : c = .pid
    · subst hc
      rw [col_row_pid, col_row_pid, hfor]
      cases hv : (v.identified env).pidFor env with
      | some pid => rfl
      | none => rw [Option.none_or, Option.none_or, hpid hv]
    · rw [col_row env w hc, col_row env v hc, hcol c hc]
  have hdates : (w.checkPublishedOn env).toOption.or w.publishedOn =
      (v.checkPublishedOn env).toOption.or v.publishedOn := by
    rw [hdate]
    cases hv : (v.checkPublishedOn env).toOption with
    | some date => rfl
    | none => rw [Option.none_or, Option.none_or, hpublished hv]
  rw [row_eq, row_eq env v]
  ext1 <;> simp only [hid, hcols, htitle, hyear, hmonth, hday, hdates, hpublisher, htype, hagency,
    hcsl, htracked]

section Again

variable {env : Env}
  (hclean : ∀ url cleaned, env.clean url = .ok cleaned → env.clean cleaned = .ok cleaned)
  (hsanitize : ∀ title, env.sanitize (env.sanitize title) = env.sanitize title)

include hsanitize in
theorem title_again (t : Option String) :
    presence ((presence (t.map env.sanitize)).map env.sanitize) =
      presence (t.map env.sanitize) := by
  cases h : present (t.map env.sanitize) with
  | false => rw [presence_of_blank h, Option.map_none, presence_of_blank present_none]
  | true =>
    rw [presence_of_present h, Option.map_map]
    cases t with
    | none => cases h
    | some title =>
      rw [Option.map_some, Function.comp_apply, hsanitize]
      exact presence_of_present h

include hclean hsanitize in
/-- **A row is its own row.** -/
theorem row_row (w : Work) : (w.row env).row env = w.row env := by
  have hcol : ∀ c, c ≠ .pid → presence (normalCol env c ((w.row env).col c)) =
      presence (normalCol env c (w.col c)) := by
    intro c hc
    rw [col_row env w hc, normalCol_again hclean]
  refine row_congr (id_row env w) hcol ?_ ?_ ?_ ?_ ?_ ?_ ?_ ?_ ?_ ?_ ?_
  · intro hnone
    rw [col_row_pid, hnone, Option.none_or, presence_presence]
  · rw [row_eq]
    exact title_again hsanitize w.title
  · rw [row_eq]
  · rw [row_eq]
  · rw [row_eq]
  · intro hnone
    rw [row_eq]
    show (w.checkPublishedOn env).toOption.or w.publishedOn = w.publishedOn
    rw [hnone, Option.none_or]
  · rw [row_eq]
  · rw [row_eq]
  · rw [row_eq]
    exact presence_presence _
  · rw [row_eq]
  · rw [row_eq]

end Again

end Work

namespace Params

/-- Every value the parameters give is, once normalised, the one the row has. -/
structure Agrees (env : Env) (p : Params) (w : Work) : Prop where
  col : ∀ c v, c ≠ .pid → p.col c = some v → presence (normalCol env c v) = w.col c
  title : ∀ v, p.title = some v → presence (v.map env.sanitize) = w.title
  year : ∀ v, p.year = some v → v = w.year
  month : ∀ v, p.month = some v → v = w.month
  day : ∀ v, p.day = some v → v = w.day
  publisherId : ∀ v, p.publisherId = some v → v = w.publisherId
  workTypeId : ∀ v, p.workTypeId = some v → v = w.workTypeId
  registrationAgency : ∀ v, p.registrationAgency = some v → presence v = w.registrationAgency
  csl : ∀ v, p.csl = some v → v = w.csl
  tracked : ∀ v, p.tracked = some v → v.toBoolean = w.tracked

/-- The parameters agree with the row they were saved into. -/
theorem agrees_row (env : Env) (p : Params) (w : Work) : p.Agrees env ((w.assign p).row env) where
  col := by
    intro c v hc hv
    rw [Work.col_row env _ hc]
    simp [Work.assign, hv]
  title := by
    intro v hv
    rw [Work.row_eq]
    simp [Work.assign, hv]
  year := by
    intro v hv
    rw [Work.row_eq]
    simp [Work.assign, hv]
  month := by
    intro v hv
    rw [Work.row_eq]
    simp [Work.assign, hv]
  day := by
    intro v hv
    rw [Work.row_eq]
    simp [Work.assign, hv]
  publisherId := by
    intro v hv
    rw [Work.row_eq]
    simp [Work.assign, hv]
  workTypeId := by
    intro v hv
    rw [Work.row_eq]
    simp [Work.assign, hv]
  registrationAgency := by
    intro v hv
    rw [Work.row_eq]
    simp [Work.assign, hv]
  csl := by
    intro v hv
    rw [Work.row_eq]
    simp [Work.assign, hv]
  tracked := by
    intro v hv
    rw [Work.row_eq]
    simp [Work.assign, hv]

end Params

namespace Work

theorem getD_of_agrees {α : Type} {o : Option α} {a : α} (h : ∀ v, o = some v → v = a) :
    o.getD a = a := by
  cases o with
  | none => rfl
  | some v => exact h v rfl

/-- **Saving what is already there changes nothing.** -/
theorem row_assign_of_agrees {env : Env} {w : Work} (hrow : w.row env = w) {p : Params}
    (hpid : p.col .pid = none) (h : p.Agrees env w) : (w.assign p).row env = w := by
  conv_rhs => rw [← hrow]
  refine row_congr rfl ?_ ?_ ?_ ?_ ?_ ?_ ?_ ?_ ?_ ?_ ?_ ?_
  · intro c hc
    show presence (normalCol env c ((p.col c).getD (w.col c))) = _
    cases hv : p.col c with
    | none => rfl
    | some v =>
      have hw : presence (normalCol env c (w.col c)) = w.col c := by
        rw [← col_row env w hc, hrow]
      rw [Option.getD_some, h.col c v hc hv, hw]
  · intro _
    show presence ((p.col .pid).getD (w.col .pid)) = _
    rw [hpid, Option.getD_none]
  · show presence ((p.title.getD w.title).map env.sanitize) = _
    cases hv : p.title with
    | none => rfl
    | some v =>
      have hw : presence (w.title.map env.sanitize) = w.title := by
        have := congrArg Work.title hrow
        rw [row_eq] at this
        exact this
      rw [Option.getD_some, h.title v hv, hw]
  · exact getD_of_agrees h.year
  · exact getD_of_agrees h.month
  · exact getD_of_agrees h.day
  · exact fun _ => rfl
  · exact getD_of_agrees h.publisherId
  · exact getD_of_agrees h.workTypeId
  · show presence (p.registrationAgency.getD w.registrationAgency) = _
    cases hv : p.registrationAgency with
    | none => rfl
    | some v =>
      have hw : presence w.registrationAgency = w.registrationAgency := by
        have := congrArg Work.registrationAgency hrow
        rw [row_eq] at this
        exact this
      rw [Option.getD_some, h.registrationAgency v hv, hw]
  · exact getD_of_agrees h.csl
  · show (p.tracked.map Value.toBoolean).getD w.tracked = w.tracked
    cases hv : p.tracked with
    | none => rfl
    | some v => exact h.tracked v hv

end Work

end Lagotto
