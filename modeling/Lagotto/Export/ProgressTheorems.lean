/-
Lagotto.Export.ProgressTheorems — what a chain of snapshot jobs depends on,
and how one call changes it.

Of the whole world only a few things decide how a chain goes on: the row of
the snapshot, the jobs queued for it, its file and the requests made. They
are the `Progress` of a snapshot. Most calls leave it alone (`Quiet`); a
`Triple` is a weakest precondition over `Progress` only, with one rule for
each constructor of a program, so that the proofs about `export!` never look
at the rest of the world.
-/
import Lagotto.Export.ApiSnapshot

namespace Lagotto.Export

open Text Interaction Program

/-- What a chain of jobs depends on and is observed by. -/
structure Progress where
  id : Nat
  url : String
  data : SnapshotData
  finishedExportingAt : Option Time
  file : Option String
  requests : List Request
  queue : List SnapshotJob
  alerts : List (ExportError × SnapshotJob)
  zenodoDataExports : List ZenodoDataExport
  zips : String → Option (List (String × String))

def World.progress (w : World) (id : Nat) (path : String) : Option Progress :=
  (w.snapshots id).map fun s =>
    { id := s.id
      url := s.url
      data := s.data
      finishedExportingAt := s.finishedExportingAt
      file := w.files path
      requests := w.requests
      queue := w.queue
      alerts := w.alerts
      zenodoDataExports := w.zenodoDataExports
      zips := w.zips }

/-- Some call fails. -/
def Env.Faulty (env : Env) : Prop := ∃ r, env.faults r ≠ none

/-- The calls that have no part in the progress of a chain. -/
def Quiet (path : String) : ExportCall → Prop
  | .findSnapshot _ | .dirExists _ | .mkdirP _ | .fileExists _ | .newTempfile _ => True
  | .createFileWriteLog _ | .exportLater _ => True
  | .touch _ stamp => stamp ≠ .finishedExportingAt
  | .rm other => other ≠ path
  | .append other _ => other ≠ path
  | _ => False

section Calls

variable {env : Env} {w : World} {id : Nat} {path : String} {r : ExportCall}

theorem progress_updateSnapshot (i : Nat) (f : ApiSnapshot → ApiSnapshot) :
    (w.updateSnapshot i f).progress id path =
      if i = id then (w.snapshots id).bind fun s =>
        (w.progress id path).map fun P =>
          { P with
            id := (f s).id
            url := (f s).url
            data := (f s).data
            finishedExportingAt := (f s).finishedExportingAt }
      else w.progress id path := by
  by_cases h : i = id
  · subst h
    cases hs : w.snapshots i <;>
      simp [World.progress, World.updateSnapshot, Function.update_self, hs]
  · simp [World.progress, World.updateSnapshot, Function.update_of_ne (Ne.symm h), h]

theorem progress_effect_of_quiet (h : Quiet path r) :
    (effect env r w).2.progress id path = w.progress id path := by
  cases r with
  | touch i stamp =>
    rw [effect, progress_updateSnapshot]
    cases stamp <;> cases hs : w.snapshots id <;>
      simp_all [Quiet, World.progress, ApiSnapshot.touch]
  | rm other =>
    have hne : path ≠ other := Ne.symm h
    simp only [effect]
    split <;> simp [World.progress, Function.update_of_ne hne]
  | append other text =>
    have hne : path ≠ other := Ne.symm h
    simp [effect, World.appendTo, World.progress, Function.update_of_ne hne]
  | _ => first | rfl | exact h.elim

theorem progress_remains_of_quiet (h : Quiet path r) (written : Nat) :
    (remains env written r w).progress id path = w.progress id path := by
  cases r with
  | append other text =>
    show (effect env (.append other _) w).2.progress id path = w.progress id path
    exact progress_effect_of_quiet h
  | _ =>
    simp only [remains]
    split
    · rfl
    · exact progress_effect_of_quiet h

/-- A call that raises only where the surroundings make it raise. -/
theorem wp_call {x : r.answer} {Q : r.answer → World → Prop} {E : ExportError → World → Prop}
    (hx : (effect env r w).1 = .ok x) (hQ : Q x (effect env r w).2)
    (hE : ∀ written, env.faults r = some written → E .failure (remains env written r w)) :
    (call r).wp (handle env) Q E w := by
  refine wp_raising.mpr ?_
  unfold handle
  cases hf : env.faults r with
  | none =>
    refine ⟨fun y hy => ?_, fun e he => ?_⟩
    · rw [hx] at hy
      cases hy
      exact hQ
    · rw [hx] at he
      cases he
  | some written =>
    refine ⟨fun y hy => ?_, fun e he => ?_⟩
    · cases hy
    · cases he
      exact hE written hf

theorem Env.faulty_of_eq_some {written : Nat} (h : env.faults r = some written) : env.Faulty :=
  ⟨r, by rw [h]; simp⟩

end Calls

/-! ## Triples -/

/-- From progress `P` the program comes to a progress in `Q`, or raises at
one in `E`. -/
def Triple {α : Type} (env : Env) (id : Nat) (path : String) (P : Progress) (p : ExportM α)
    (Q : α → Progress → Prop) (E : ExportError → Progress → Prop) : Prop :=
  ∀ w : World, w.progress id path = some P →
    p.wp (handle env) (fun a w' => ∃ P', w'.progress id path = some P' ∧ Q a P')
      (fun e w' => ∃ P', w'.progress id path = some P' ∧ E e P') w

namespace Triple

variable {α β : Type} {env : Env} {id : Nat} {path : String} {P : Progress}
  {Q : α → Progress → Prop} {E : ExportError → Progress → Prop}

theorem done {a : α} (h : Q a P) : Triple env id path P (.done a) Q E :=
  fun _ hw => ⟨P, hw, h⟩

theorem fail {e : ExportError} (h : E e P) : Triple env id path P (.fail e) Q E :=
  fun _ hw => ⟨P, hw, h⟩

theorem bind {R : α → Progress → Prop} {Q : β → Progress → Prop} {p : ExportM α}
    {f : α → ExportM β} (hp : Triple env id path P p R E)
    (hf : ∀ a P', R a P' → Triple env id path P' (f a) Q E) :
    Triple env id path P (p.bind f) Q E := by
  intro w hw
  rw [wp_bind]
  refine wp_mono (hp w hw) ?_ (fun _ _ h => h)
  rintro a w' ⟨P', hw', hR⟩
  exact hf a P' hR w' hw'

theorem rescue {R : ExportError → Progress → Prop} {p : ExportM α}
    {handler : ExportError → ExportM α} (hp : Triple env id path P p Q R)
    (hh : ∀ e P', R e P' → Triple env id path P' (handler e) Q E) :
    Triple env id path P (p.rescue handler) Q E := by
  intro w hw
  rw [wp_rescue]
  refine wp_mono (hp w hw) (fun _ _ h => h) ?_
  rintro e w' ⟨P', hw', hR⟩
  exact hh e P' hR w' hw'

theorem mono {Q' : α → Progress → Prop} {E' : ExportError → Progress → Prop} {p : ExportM α}
    (h : Triple env id path P p Q E) (hQ : ∀ a P', Q a P' → Q' a P')
    (hE : ∀ e P', E e P' → E' e P') : Triple env id path P p Q' E' := by
  intro w hw
  refine wp_mono (h w hw) ?_ ?_
  · rintro a w' ⟨P', hw', hQP⟩
    exact ⟨P', hw', hQ a P' hQP⟩
  · rintro e w' ⟨P', hw', hEP⟩
    exact ⟨P', hw', hE e P' hEP⟩

/-- A call outside the chain. -/
theorem outside {r : ExportCall} (hr : Quiet path r)
    (hok : ∀ w : World, ∃ x, (effect env r w).1 = .ok x) :
    Triple env id path P (call r) (fun _ P' => P' = P)
      (fun _ P' => env.faults r ≠ none ∧ P' = P) := by
  intro w hw
  obtain ⟨x, hx⟩ := hok w
  refine wp_call hx ⟨P, ?_, rfl⟩ fun written hf => ⟨P, ?_, by rw [hf]; simp, rfl⟩
  · rw [progress_effect_of_quiet hr, hw]
  · rw [progress_remains_of_quiet hr, hw]

theorem quiet {r : ExportCall} (hr : Quiet path r)
    (hok : ∀ w : World, ∃ x, (effect env r w).1 = .ok x) :
    Triple env id path P (call r) (fun _ P' => P' = P) (fun _ P' => env.Faulty ∧ P' = P) :=
  mono (outside hr hok) (fun _ _ h => h) (fun _ _ h => ⟨⟨r, h.1⟩, h.2⟩)

/-- A call that takes the chain to `P'`. Where it raises, it has had all of
its effect or none. -/
theorem call {r : ExportCall} {x : r.answer} (P' : Progress)
    (hr : ∀ other text, r ≠ .append other text)
    (heffect : ∀ w : World, w.progress id path = some P →
      (effect env r w).1 = .ok x ∧ (effect env r w).2.progress id path = some P') :
    Triple env id path P (call r) (fun y P₁ => y = x ∧ P₁ = P')
      (fun _ P₁ => ∃ written, env.faults r = some written ∧
        P₁ = if written = 0 then P else P') := by
  intro w hw
  obtain ⟨hx, hP'⟩ := heffect w hw
  refine wp_call hx ⟨P', hP', rfl, rfl⟩ fun written hf => ⟨_, ?_, written, hf, rfl⟩
  have hremains : remains env written r w = if written = 0 then w else (effect env r w).2 := by
    cases r with
    | append other text => exact absurd rfl (hr other text)
    | _ => rfl
  rw [hremains]
  split
  · exact hw
  · exact hP'

end Triple

/-- Text at the end of the file. -/
def Progress.write (text : String) (P : Progress) : Progress :=
  { P with file := some (P.file.getD "" ++ text) }

theorem World.progress_appendTo {w : World} {id : Nat} {path text : String} {P : Progress}
    (hw : w.progress id path = some P) :
    (w.appendTo path text).progress id path = some (P.write text) := by
  obtain ⟨s, hs, rfl⟩ := Option.map_eq_some_iff.mp hw
  simp [World.progress, World.appendTo, Progress.write, hs]

/-- An append may stop after any number of characters. -/
theorem Triple.append {env : Env} {id : Nat} {path : String} {P : Progress} (text : String) :
    Triple env id path P (Export.call (.append path text)) (fun _ P₁ => P₁ = P.write text)
      (fun _ P₁ => ∃ written, env.faults (.append path text) = some written ∧
        P₁ = P.write (String.ofList (text.toList.take written))) := by
  intro w hw
  exact wp_call rfl ⟨_, World.progress_appendTo hw, rfl⟩ fun written hf =>
    ⟨_, World.progress_appendTo hw, written, hf, rfl⟩

end Lagotto.Export
