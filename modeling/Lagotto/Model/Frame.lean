/-
Lagotto.Model.Frame — what a piece of the program leaves alone.

`Db.Frame` is about the part of the database that queueing depends on: the
retrieval statuses with their marks, the `SourceJob`s on the queue, and which
sources there are. Everything between the steps of a job keeps the last two.
-/
import Lagotto.Model.Schema

namespace Lagotto

open Relational

namespace Db

/-- Only retrieval statuses in `touched` are changed or deleted, those that are
new or changed are in `written`, and no `SourceJob` and no source comes or
goes. -/
structure Frame (touched written : RetrievalStatus → Prop) (before after : Db) : Prop where
  statuses : Table.Touches touched written before.retrievalStatuses after.retrievalStatuses
  jobs : after.sourceJobs = before.sourceJobs
  known : ∀ id, (after.stateOf id).isSome = (before.stateOf id).isSome

variable {touched touched' written written' : RetrievalStatus → Prop} {db db₁ db₂ db₃ : Db}

theorem Frame.refl (db : Db) : Frame touched written db db := ⟨.refl _, rfl, fun _ => rfl⟩

theorem Frame.trans (h₁₂ : Frame touched written db₁ db₂) (h₂₃ : Frame touched written db₂ db₃) :
    Frame touched written db₁ db₃ :=
  ⟨h₁₂.statuses.trans h₂₃.statuses, h₂₃.jobs.trans h₁₂.jobs,
    fun id => (h₂₃.known id).trans (h₁₂.known id)⟩

theorem Frame.mono (h : Frame touched written db₁ db₂) (ht : ∀ r, touched r → touched' r)
    (hw : ∀ r, written r → written' r) : Frame touched' written' db₁ db₂ :=
  ⟨h.statuses.mono ht hw, h.jobs, h.known⟩

/-- What leaves queue and sources alone is judged by its retrieval statuses. -/
theorem frame_of_touches
    (hstatuses : Table.Touches touched written db₁.retrievalStatuses db₂.retrievalStatuses)
    (hqueue : db₂.queue = db₁.queue) (hsources : db₂.sources = db₁.sources) :
    Frame touched written db₁ db₂ := by
  refine ⟨hstatuses, ?_, fun id => ?_⟩
  · unfold sourceJobs
    rw [hqueue]
  · unfold stateOf findSource
    rw [hsources]

/-- Marks are only removed: what is still queued was there. -/
theorem Frame.queued (h : Frame touched RetrievalStatus.Unqueued db₁ db₂) {r : RetrievalStatus}
    (hr : r ∈ db₂.retrievalStatuses.rows) (hqueued : ¬ r.Unqueued) :
    r ∈ db₁.retrievalStatuses.rows := by
  rcases h.statuses.origin r hr with h | ⟨hw, _⟩
  · exact h
  · exact absurd hw hqueued

end Db

end Lagotto
