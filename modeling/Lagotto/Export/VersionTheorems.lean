/-
Lagotto.Export.VersionTheorems — which version of an API snapshot a deposition
is linked to.

The previous version of an export is the finished export of the same name that
was created last. All exports of snapshots have the same name, whatever their
endpoint, and exports need not be finished in the order in which they were
created. `Exported` is what an attempt does to the archive: it writes to its own
record, and the depositions it makes are linked to what the lookup finds in the
archive as it was before. Where that is an older export of the same endpoint
(`InLine`), in every attempt, links lead to older exports of the same endpoint,
so they have no cycles.
-/
import Mathlib.Logic.Relation
import Lagotto.Export.StateTheorems

namespace Lagotto.Export

open Interaction
open Relational
open StateMachine
open Program (wp_of_obeys obeys_bind obeys_raising obeys_rescue exec_of_wp)

variable {env : ZenodoEnv} {w w₀ : Archive} {e : ZenodoRecord} {id : Nat}

/-! ## Lookup -/

/-- A deposition with the relation was linked to an export, by its DOI. -/
theorem Deposition.linked (d : Deposition) {identifier : Option String}
    (h : ⟨"isNewVersionOf", identifier⟩ ∈ d.attributes.relatedIdentifiers) :
    ∃ p remote, d.previousVersion = some p ∧ p.remoteDeposition = some remote ∧
      remote.doi = identifier := by
  obtain ⟨attributes, madeFor, previousVersion, hbuilt⟩ := d
  cases previousVersion with
  | none =>
    cases hbuilt
    simp at h
  | some p =>
    cases hremote : p.remoteDeposition with
    | none => simp [ZenodoRecord.depositionAttributes, ZenodoRecord.relatedIdentifiers, hremote,
        bind, Except.bind] at hbuilt
    | some remote =>
      simp only [ZenodoRecord.depositionAttributes, ZenodoRecord.relatedIdentifiers, hremote,
        bind, Except.bind, pure, Except.pure, Except.ok.injEq] at hbuilt
      subst hbuilt
      have hidentifier : identifier = remote.doi := by simpa using h
      exact ⟨p, remote, rfl, hremote, hidentifier.symm⟩

/-- The lookup finds an export that was created last. -/
theorem findPreviousVersionOf_spec {p : ZenodoRecord} (h : w.findPreviousVersionOf env e = some p) :
    p ∈ w.exports.rows ∧ e.isVersionOf p = true ∧
      ∀ x ∈ w.exports.rows, e.isVersionOf x = true → x.createdAt ≤ p.createdAt := by
  let newestFirst : ZenodoRecord → ZenodoRecord → Prop := fun x y => y.createdAt ≤ x.createdAt
  have htotal : Std.Total newestFirst := ⟨fun x y => Int.le_total y.createdAt x.createdAt⟩
  have htrans : IsTrans ZenodoRecord newestFirst := ⟨fun _ _ _ hxy hyz => Int.le_trans hyz hxy⟩
  have hsorted := List.pairwise_insertionSort newestFirst
    (env.scan (w.exports.rows.filter e.isVersionOf))
  have hmem : ∀ x, x ∈ (env.scan (w.exports.rows.filter e.isVersionOf)).insertionSort newestFirst ↔
      x ∈ w.exports.rows ∧ e.isVersionOf x = true := by
    intro x
    rw [List.mem_insertionSort, (env.scan_perm _).mem_iff, List.mem_filter]
  obtain ⟨rest, hrest⟩ := List.head?_eq_some_iff.mp h
  rw [hrest] at hsorted hmem
  obtain ⟨hrow, hversion⟩ := (hmem p).mp List.mem_cons_self
  refine ⟨hrow, hversion, fun x hx hxversion => ?_⟩
  rcases List.mem_cons.mp ((hmem x).mpr ⟨hx, hxversion⟩) with rfl | hlater
  · exact Int.le_refl _
  · exact (List.pairwise_cons.mp hsorted).1 x hlater

/-! ## What an attempt does -/

/-- What identifies an export, and never changes. -/
def ZenodoRecord.card (e : ZenodoRecord) : Nat × Option String × Time :=
  (e.id, e.endpoint, e.createdAt)

/-- The archive in the course of an attempt. -/
structure Exported (env : ZenodoEnv) (w₀ : Archive) (e : ZenodoRecord) (w : Archive) : Prop where
  others : w.exports.rows.filter (fun x => x.id != e.id) =
    w₀.exports.rows.filter (fun x => x.id != e.id)
  cards : w.exports.rows.map (·.card) = w₀.exports.rows.map (·.card)
  depositions : ∀ d ∈ w.depositions, d ∈ w₀.depositions ∨
    d.madeFor = e ∧ d.previousVersion = w₀.findPreviousVersionOf env e

theorem exported_refl (env : ZenodoEnv) (w : Archive) (e : ZenodoRecord) : Exported env w e w :=
  ⟨rfl, rfl, fun _ hd => .inl hd⟩

/-- An export looks for others than itself. -/
theorem Exported.findPreviousVersionOf (h : Exported env w₀ e w) :
    w.findPreviousVersionOf env e = w₀.findPreviousVersionOf env e := by
  have hversions : ∀ rows : List ZenodoRecord, rows.filter e.isVersionOf =
      (rows.filter (fun x => x.id != e.id)).filter e.isVersionOf := by
    intro rows
    rw [List.filter_filter]
    refine List.filter_congr (fun x _ => ?_)
    simp only [ZenodoRecord.isVersionOf]
    cases x.id != e.id <;> simp
  unfold Archive.findPreviousVersionOf
  rw [hversions, h.others, ← hversions]

theorem Exported.update (h : Exported env w₀ e w) {f : ZenodoRecord → ZenodoRecord}
    (hendpoint : ∀ x, (f x).endpoint = x.endpoint) (hcreated : ∀ x, (f x).createdAt = x.createdAt) :
    Exported env w₀ e (w.update e.id f) where
  others := by
    rw [← h.others]
    show (w.exports.rows.map _).filter _ = _
    rw [List.filter_map]
    have hids : (fun x : ZenodoRecord => x.id != e.id) ∘
        Table.updateRow (fun x => Row.id x == e.id) f = fun x => x.id != e.id := by
      funext x
      show (Row.id (Table.updateRow (fun x => Row.id x == e.id) f x) != e.id) = _
      rw [Table.id_updateRow]
      rfl
    rw [hids]
    conv_rhs => rw [← List.map_id (w.exports.rows.filter _)]
    refine List.map_congr_left (fun x hx => ?_)
    have hne : (Row.id x == e.id) = false := by
      simpa [Row.id, ZenodoRecord.id] using (List.mem_filter.mp hx).2
    rw [Table.updateRow, hne]
    rfl
  cards := by
    rw [← h.cards]
    show (w.exports.rows.map _).map _ = _
    rw [List.map_map]
    refine List.map_congr_left (fun x _ => ?_)
    show (Row.id (Table.updateRow (fun x => Row.id x == e.id) f x), _, _) = _
    rw [Table.id_updateRow]
    unfold Table.updateRow
    split
    · exact congrArg (Prod.mk _) (congrArg₂ Prod.mk (hendpoint x) (hcreated x))
    · rfl
  depositions := h.depositions

/-- The calls of an attempt. -/
def OwnCall (env : ZenodoEnv) (w₀ : Archive) (e : ZenodoRecord) : ZenodoCall → Prop
  | .touch id _ => id = e.id
  | .findPreviousVersionOf e' => e' = e
  | .createDeposition d => d.madeFor = e ∧ d.previousVersion = w₀.findPreviousVersionOf env e
  | .save id _ => id = e.id
  | .recordFailure id => id = e.id
  | _ => True

/-- The lookup answers as it would have before. -/
def Answered (env : ZenodoEnv) (w₀ : Archive) (e : ZenodoRecord) :
    (r : ZenodoCall) → Except ZenodoError r.Answer → Prop
  | .findPreviousVersionOf _, .ok x => x = w₀.findPreviousVersionOf env e
  | _, _ => True

theorem exported_zenodoEffect {r : ZenodoCall} (hr : OwnCall env w₀ e r)
    (h : Exported env w₀ e w) : Exported env w₀ e (zenodoEffect env r w).2 := by
  cases r with
  | touch id stamp =>
    cases hr
    exact h.update (fun _ => rfl) (fun _ => rfl)
  | save id deposition =>
    cases hr
    exact h.update (fun _ => rfl) (fun _ => rfl)
  | recordFailure id =>
    cases hr
    exact h.update (fun _ => rfl) (fun _ => rfl)
  | createDeposition d =>
    refine ⟨h.others, h.cards, fun d' hd' => ?_⟩
    rcases List.mem_append.mp hd' with hd' | hd'
    · exact h.depositions d' hd'
    · rw [List.mem_singleton.mp hd']
      exact .inr hr
  | _ => exact h

theorem exported_zenodoHandle (r : ZenodoCall) (w : Archive) (hr : OwnCall env w₀ e r)
    (h : Exported env w₀ e w) : Exported env w₀ e (zenodoHandle env r w).2 :=
  zenodoHandle_preserves h (exported_zenodoEffect hr h)

theorem answered_zenodoHandle (r : ZenodoCall) (w : Archive) (hr : OwnCall env w₀ e r)
    (h : Exported env w₀ e w) : Answered env w₀ e r (zenodoHandle env r w).1 := by
  cases r with
  | findPreviousVersionOf e' =>
    cases hr
    unfold zenodoHandle
    split
    · exact h.findPreviousVersionOf
    · trivial
  | _ => trivial

/-- A program that keeps to these calls. -/
def IsOwn {α : Type} (env : ZenodoEnv) (w₀ : Archive) (e : ZenodoRecord) (p : ZenodoM α) : Prop :=
  p.Obeys (Answered env w₀ e) (OwnCall env w₀ e) (fun _ => True)

theorem isOwn_zenodo {r : ZenodoCall} (hr : OwnCall env w₀ e r) : IsOwn env w₀ e (zenodo r) :=
  obeys_raising hr fun _ _ => trivial

theorem IsOwn.bind {α β : Type} {p : ZenodoM α} {f : α → ZenodoM β} (hp : IsOwn env w₀ e p)
    (hf : ∀ a, IsOwn env w₀ e (f a)) : IsOwn env w₀ e (p.bind f) :=
  obeys_bind hp fun a _ => hf a

theorem allowsUpload_own (env : ZenodoEnv) (w₀ : Archive) (e : ZenodoRecord) :
    AllowsUpload (Answered env w₀ e) (OwnCall env w₀ e) e where
  fileExists _ := trivial
  findPreviousVersionOf := rfl
  createDeposition _ hmade hprevious := ⟨hmade, hprevious⟩
  createDepositionFile _ _ := trivial
  publishDeposition _ := trivial
  getDeposition _ := trivial
  save _ := rfl

theorem isOwn_exportNow : IsOwn env w₀ e e.exportNow := by
  unfold ZenodoRecord.exportNow
  split
  · exact trivial
  · refine obeys_rescue ?_ (fun ex => ?_)
    · refine (isOwn_zenodo (r := .build) trivial).bind (fun _ => ?_)
      refine (isOwn_zenodo (r := .touch e.id .startedExportingAt) rfl).bind (fun _ => ?_)
      have hupload := allowsUpload_own env w₀ e
      refine obeys_bind (hupload.ensureFilesExists _) (fun _ _ => ?_)
      refine obeys_bind hupload.performUpload (fun _ _ => ?_)
      exact isOwn_zenodo rfl
    · exact (isOwn_zenodo (r := .recordFailure e.id) rfl).bind (fun _ => trivial)

/-- However an attempt ends. -/
theorem exported_exportAttempt (env : ZenodoEnv) (hfind : w.find id = some e) :
    Exported env w e (exportAttempt env id w).2 := by
  obtain ⟨hok, herror⟩ := exec_of_wp
    (wp_of_obeys exported_zenodoHandle answered_zenodoHandle isOwn_exportNow
      (exported_refl env w e))
  simp only [exportAttempt, hfind]
  cases hresult : (e.exportNow.exec (zenodoHandle env) w).1 with
  | ok u => exact (hok u hresult).2
  | error ex => exact herror ex hresult

/-- There is nothing left to do for an export that is finished. -/
theorem exportAttempt_of_finished (env : ZenodoEnv) (hfind : w.find id = some e)
    (hfinished : e.finished = true) : (exportAttempt env id w).2 = w := by
  simp only [exportAttempt, hfind, ZenodoRecord.exportNow, hfinished, if_true]
  rfl

/-! ## Links -/

/-- The archive has a record for it. -/
def Known (w : Archive) (e : ZenodoRecord) : Prop := e.card ∈ w.exports.rows.map (·.card)

/-- A deposition for a snapshot is linked to an older export of the same
endpoint, if to any. -/
structure LinkedBack (w : Archive) (d : Deposition) : Prop where
  madeFor : Known w d.madeFor
  previous : ∀ p, d.previousVersion = some p → Known w p
  older : d.madeFor.endpoint.isSome = true → ∀ p, d.previousVersion = some p →
    p.endpoint = d.madeFor.endpoint ∧ p.createdAt < d.madeFor.createdAt

/-- Where an attempt is made for the export of a snapshot, every other finished
export of snapshots is older, and if it is of another endpoint, there is a more
recent one of the same endpoint. -/
def InLine (w : Archive) : ZenodoAction → Prop
  | .exportNow _ id => ∀ e, w.find id = some e → e.finished = false → e.endpoint.isSome = true →
    ∀ x ∈ w.exports.rows, e.isVersionOf x = true →
      x.createdAt < e.createdAt ∧
        (x.endpoint ≠ e.endpoint → ∃ y ∈ w.exports.rows, e.isVersionOf y = true ∧
          y.endpoint = e.endpoint ∧ x.createdAt < y.createdAt)
  | _ => True

instance decidableInLine (w : Archive) : ∀ action, Decidable (InLine w action)
  | .exportToZenodo _ _ _ => isTrue trivial
  | .exportReport _ _ => isTrue trivial
  | .exportNow _ id => inferInstanceAs (Decidable (∀ e ∈ w.find id, e.finished = false →
      e.endpoint.isSome = true → ∀ x ∈ w.exports.rows, e.isVersionOf x = true →
        x.createdAt < e.createdAt ∧
          (x.endpoint ≠ e.endpoint → ∃ y ∈ w.exports.rows, e.isVersionOf y = true ∧
            y.endpoint = e.endpoint ∧ x.createdAt < y.createdAt)))

theorem LinkedBack.mono {w' : Archive} {d : Deposition}
    (hcards : ∀ card ∈ w.exports.rows.map (·.card), card ∈ w'.exports.rows.map (·.card))
    (h : LinkedBack w d) : LinkedBack w' d :=
  ⟨hcards _ h.madeFor, fun p hp => hcards _ (h.previous p hp), h.older⟩

/-- The version the lookup finds is the right one. -/
theorem older_of_inLine {p : ZenodoRecord} (hfind : w.find id = some e)
    (hline : InLine w (.exportNow env id)) (hfinished : e.finished = false)
    (hsnapshot : e.endpoint.isSome = true) (hp : w.findPreviousVersionOf env e = some p) :
    p.endpoint = e.endpoint ∧ p.createdAt < e.createdAt := by
  obtain ⟨hrow, hversion, hlast⟩ := findPreviousVersionOf_spec hp
  obtain ⟨holder, hmore⟩ := hline e hfind hfinished hsnapshot p hrow hversion
  refine ⟨?_, holder⟩
  by_contra hother
  obtain ⟨y, hy, hyversion, -, hlater⟩ := hmore hother
  exact absurd (hlast y hy hyversion) (Int.not_le.mpr hlater)

def AllLinkedBack (w : Archive) : Prop := ∀ d ∈ w.depositions, LinkedBack w d

theorem allLinkedBack_insert (h : AllLinkedBack w) (row : ZenodoRecord) :
    AllLinkedBack { w with exports := w.exports.insert row } :=
  fun d hd => (h d hd).mono fun card hcard => by
    rw [Table.rows_insert, List.map_append]
    exact List.mem_append_left _ hcard

theorem allLinkedBack_exportAttempt (h : AllLinkedBack w) (hline : InLine w (.exportNow env id)) :
    AllLinkedBack (exportAttempt env id w).2 := by
  cases hfind : w.find id with
  | none =>
    simp only [exportAttempt, hfind]
    exact h
  | some e =>
    cases hfinished : e.finished with
    | true =>
      rw [exportAttempt_of_finished env hfind hfinished]
      exact h
    | false =>
      have hexported := exported_exportAttempt env hfind
      intro d hd
      refine LinkedBack.mono (w := w) (fun card hcard => hexported.cards ▸ hcard) ?_
      rcases hexported.depositions d hd with hd | ⟨rfl, hprevious⟩
      · exact h d hd
      · refine ⟨List.mem_map_of_mem (Table.first_mem hfind), fun p hp => ?_,
          fun hsnapshot p hp => ?_⟩
        · exact List.mem_map_of_mem (findPreviousVersionOf_spec (hprevious.symm.trans hp)).1
        · exact older_of_inLine hfind hline hfinished hsnapshot (hprevious.symm.trans hp)

theorem allLinkedBack_step (w : Archive) (action : ZenodoAction) (h : AllLinkedBack w)
    (hline : InLine w action) : AllLinkedBack (zenodoStep action w) := by
  cases action with
  | exportToZenodo env s path =>
    simp only [zenodoStep]
    split
    · exact h
    · exact allLinkedBack_insert h _
  | exportReport now attributes => exact allLinkedBack_insert h _
  | exportNow env id => exact allLinkedBack_exportAttempt h hline

/-! ## Chains -/

/-- A deposition for one export, of a snapshot, was linked to the other. -/
def NewVersionOf (w : Archive) (a b : Nat) : Prop :=
  ∃ d ∈ w.depositions, d.madeFor.endpoint.isSome = true ∧ d.madeFor.id = a ∧
    ∃ p, d.previousVersion = some p ∧ p.id = b

/-- Links lead to older exports. -/
theorem older_of_transGen (h : AllLinkedBack w) {a b : Nat}
    (hlinks : Relation.TransGen (NewVersionOf w) a b) :
    ∃ x ∈ w.exports.rows, ∃ y ∈ w.exports.rows, x.id = a ∧ y.id = b ∧
      y.createdAt < x.createdAt := by
  have hlink : ∀ {a b}, NewVersionOf w a b → ∃ x ∈ w.exports.rows, ∃ y ∈ w.exports.rows,
      x.id = a ∧ y.id = b ∧ y.createdAt < x.createdAt := by
    rintro a b ⟨d, hd, hsnapshot, rfl, p, hp, rfl⟩
    obtain ⟨x, hx, hxcard⟩ := List.mem_map.mp (h d hd).madeFor
    obtain ⟨y, hy, hycard⟩ := List.mem_map.mp ((h d hd).previous p hp)
    have holder := ((h d hd).older hsnapshot p hp).2
    simp only [ZenodoRecord.card, Prod.mk.injEq] at hxcard hycard
    exact ⟨x, hx, y, hy, hxcard.1, hycard.1, by rw [hxcard.2.2, hycard.2.2]; exact holder⟩
  induction hlinks with
  | single hab => exact hlink hab
  | tail _ hbc ih =>
    obtain ⟨x, hx, y, hy, hxid, hyid, hxy⟩ := ih
    obtain ⟨y', hy', z, hz, hyid', hzid, hyz⟩ := hlink hbc
    obtain rfl : y = y' := w.exports.eq_of_id_eq hy hy' (hyid.trans hyid'.symm)
    exact ⟨x, hx, z, hz, hxid, hzid, Int.lt_trans hyz hxy⟩

/-- Depositions for snapshots are linked to older exports of the same endpoint,
and the links have no cycles. -/
structure WellLinked (w : Archive) : Prop where
  linked : ∀ d ∈ w.depositions, ∀ url, d.madeFor.endpoint = some url → ∀ identifier,
    ⟨"isNewVersionOf", identifier⟩ ∈ d.attributes.relatedIdentifiers →
    ∃ p remote, d.previousVersion = some p ∧ p.remoteDeposition = some remote ∧
      remote.doi = identifier ∧ p.endpoint = some url ∧ p.createdAt < d.madeFor.createdAt
  acyclic : ∀ id, ¬ Relation.TransGen (NewVersionOf w) id id

/-- **Where every attempt finds the exports in line, links lead to older exports
of the same endpoint.** -/
theorem versions_linked_of_inLine {actions : List ZenodoAction}
    (h : Along zenodoStep InLine actions {}) :
    WellLinked (StateMachine.run zenodoStep actions {}) := by
  have hlinked : AllLinkedBack (StateMachine.run zenodoStep actions {}) :=
    invariant_along allLinkedBack_step (by simp [AllLinkedBack]) h
  constructor
  · intro d hd url hurl identifier hidentifier
    obtain ⟨p, remote, hp, hremote, hdoi⟩ := d.linked hidentifier
    obtain ⟨hendpoint, holder⟩ := (hlinked d hd).older (by simp [hurl]) p hp
    exact ⟨p, remote, hp, hremote, hdoi, hendpoint.trans hurl, holder⟩
  · intro id hcycle
    obtain ⟨x, hx, y, hy, hxid, hyid, holder⟩ := older_of_transGen hlinked hcycle
    obtain rfl : x = y := Table.eq_of_id_eq _ hx hy (hxid.trans hyid.symm)
    exact absurd holder (Int.lt_irrefl _)

section Endpoints

/-- The surroundings of a snapshot. -/
def siteAt (now : Time) : Env where
  server _ := .malformed ""
  now := now
  today := "2015-05-05"
  benchmarkLine _ := ""
  defaultSnapshotDir := "snapshots"
  creator := none
  sitenamelong := "Lagotto"
  githubUrl := "https://github.com/lagotto/lagotto"
  readme := ""
  faults _ := none

def snapshotOf (url : String) : ApiSnapshot where
  id := 1
  url := url
  data := { snapshotDir := "snapshots", snapshotDate := "2015-05-05" }
  createdOn := "2015-05-05"

/-- A server that gives every deposition a DOI. -/
def zenodoAt (now : Time) : ZenodoEnv where
  now := now
  files _ := true
  deposition id := { id := id, recordUrl := none, doi := some (toString id) }
  scan rows := rows
  scan_perm _ := .refl _
  faults _ := none

/-- Two snapshots, exported one after the other. -/
def exportBoth (first second : String) : List ZenodoAction :=
  [.exportToZenodo (siteAt 1) (snapshotOf first) "snapshots/a.jsondump", .exportNow (zenodoAt 2) 1,
    .exportToZenodo (siteAt 3) (snapshotOf second) "snapshots/b.jsondump",
    .exportNow (zenodoAt 4) 2]

theorem exportBoth_inLine : Along zenodoStep InLine (exportBoth "/api/works" "/api/works") {} := by
  decide

/-- Of the same endpoint: the second is a new version of the first. -/
theorem works_linked_to_works :
    WellLinked (StateMachine.run zenodoStep (exportBoth "/api/works" "/api/works") {}) ∧
      NewVersionOf (StateMachine.run zenodoStep (exportBoth "/api/works" "/api/works") {}) 2 1 := by
  refine ⟨versions_linked_of_inLine exportBoth_inLine, ?_⟩
  exact ⟨_, List.mem_cons_of_mem _ List.mem_cons_self, rfl, rfl, _, rfl, rfl⟩

/-- Of different endpoints: the sources become a new version of the works. -/
theorem sources_linked_to_works :
    ¬ WellLinked (StateMachine.run zenodoStep (exportBoth "/api/works" "/api/sources") {}) := by
  intro h
  obtain ⟨p, remote, hp, -, -, hendpoint, -⟩ :=
    h.linked _ (List.mem_cons_of_mem _ List.mem_cons_self) "/api/sources" rfl (some "1")
      (List.mem_cons_of_mem _ (List.mem_cons_of_mem _ List.mem_cons_self))
  cases hp
  exact absurd hendpoint (by decide)

end Endpoints

end Lagotto.Export
