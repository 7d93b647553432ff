/-
Lagotto.Source.CachingTheorems — a reader never sees half of a cache.

`cached_at` is set when the fourteen counters are written, and an entry that
is there stays there. So `updateColumn` is ready in every interleaving
(`prepared_writeCache`, with `StateMachine.ready_along`), and what was ever
set has all its counters (`Complete`), whichever run finishes first. Two runs
in the same second write the same entries.
-/
import Mathlib.Data.List.Induction
import Lagotto.Source.Caching

namespace Lagotto.Source

open StateMachine
open Cache

variable {name : String} {iso8601 : Time → String}

/-- Reader and writer have the same name for a counter. -/
theorem readerId_eq_writerId (attr : CachedAttr) : readerId attr = writerId attr := by
  cases attr <;> rfl

theorem mem_cachedAttrs (attr : CachedAttr) : attr ∈ cachedAttrs := by
  cases attr <;> decide

/-- All counters for a `cached_at` are in the cache. -/
def Complete (name : String) (iso8601 : Time → String) (cachedAt : Instant) (s : State) : Prop :=
  ∀ attr, (s.entries (readKey name iso8601 (readerId attr) cachedAt)).isSome = true

/-- `cached_at` is set when they are. -/
def Ready (name : String) (iso8601 : Time → String) : CacheStep → State → Prop
  | .updateColumn now, s => Complete name iso8601 now.stored s
  | _, _ => True

/-- No entry is lost. -/
def Keeps (s s' : State) : Prop :=
  ∀ key, (s.entries key).isSome = true → (s'.entries key).isSome = true

theorem isSome_write {key other : String} {value : Option ℚ}
    {entries : String → Option (Option ℚ)} :
    (write key value entries other).isSome = true ↔
      other = key ∨ (entries other).isSome = true := by
  unfold write
  split <;> simp_all

theorem keeps_write {key : String} {value : Option ℚ} {s s' : State} (h : Keeps s s') :
    Keeps { s with entries := write key value s.entries }
      { s' with entries := write key value s'.entries } := by
  intro other hother
  rw [isSome_write] at hother ⊢
  exact hother.imp_right (h other)

theorem growing_cache (name : String) (iso8601 : Time → String) :
    Growing (applyStep name) (Ready name iso8601) Keeps where
  grows := by
    intro i s key hkey
    cases i with
    | send attr value time => exact isSome_write.mpr (.inr hkey)
    | other key' value => exact isSome_write.mpr (.inr hkey)
    | updateColumn now => exact hkey
    | load reader => exact hkey
    | read reader attr => exact hkey
  monotone := by
    intro i s s' h
    cases i with
    | send attr value time => exact keeps_write h
    | other key value => exact keeps_write h
    | updateColumn now => exact h
    | load reader => exact h
    | read reader attr => exact h
  stable := by
    intro i s s' h hready
    cases i with
    | updateColumn now => exact fun attr => h _ (hready attr)
    | _ => trivial

/-! ## A run alone -/

theorem prepared_of_forall {thread : List CacheStep} (h : ∀ i ∈ thread, ∀ s, Ready name iso8601 i s)
    (s : State) : Prepared (applyStep name) (Ready name iso8601) thread s := by
  induction thread generalizing s with
  | nil => trivial
  | cons i rest ih =>
    exact ⟨h i List.mem_cons_self s, ih (fun j hj => h j (List.mem_cons_of_mem i hj)) _⟩

/-- The counters written so far are there. -/
theorem isSome_run_sends (counts : CounterValues) (time : String) {attrs : List CachedAttr}
    {attr : CachedAttr} (hattr : attr ∈ attrs) (s : State) :
    ((run (applyStep name) (attrs.map (fun attr => .send attr (counts attr) time)) s).entries
      (name ++ "/" ++ writerId attr ++ "/" ++ time)).isSome = true := by
  -- from the last counter back: it is this one, or this one was written before
  induction attrs using List.reverseRecOn with
  | nil => cases hattr
  | append_singleton attrs last ih =>
    rw [List.map_append, run_append]
    refine isSome_write.mpr ?_
    rcases List.mem_append.mp hattr with hattr | hattr
    · exact .inr (ih hattr)
    · rw [List.mem_singleton.mp hattr]
      exact .inl rfl

theorem prepared_writeCache (counts : CounterValues) (now : Instant) (s : State) :
    Prepared (applyStep name) (Ready name iso8601) (writeCache iso8601 counts now) s := by
  rw [Prepared, writeCache, along_append]
  constructor
  · refine prepared_of_forall (fun i hi s => ?_) s
    obtain ⟨attr, -, rfl⟩ := List.mem_map.mp hi
    trivial
  · refine ⟨fun attr => ?_, trivial⟩
    rw [readerId_eq_writerId]
    exact isSome_run_sends counts _ (mem_cachedAttrs attr) s

theorem prepared_steps (process : CacheProcess) (s : State) :
    Prepared (applyStep name) (Ready name iso8601) (process.steps iso8601) s := by
  cases process with
  | writer counts now => exact prepared_writeCache counts now s
  | reader n attrs =>
    refine prepared_of_forall (fun i hi s => ?_) s
    rcases List.mem_cons.mp hi with rfl | hi
    · trivial
    · obtain ⟨attr, -, rfl⟩ := List.mem_map.mp hi
      trivial
  | other writes =>
    refine prepared_of_forall (fun i hi s => ?_) s
    obtain ⟨entry, -, rfl⟩ := List.mem_map.mp hi
    trivial

/-! ## Any interleaving -/

/-- What `write_cache` has set is complete. -/
def AllComplete (name : String) (iso8601 : Time → String) (s : State) : Prop :=
  ∀ cachedAt ∈ s.published, Complete name iso8601 cachedAt s

theorem allComplete_applyStep (i : CacheStep) (s : State) (hready : Ready name iso8601 i s)
    (h : AllComplete name iso8601 s) : AllComplete name iso8601 (applyStep name i s) := by
  have hkeeps : Keeps s (applyStep name i s) := (growing_cache name iso8601).grows i s
  intro cachedAt hmem attr
  refine hkeeps _ ?_
  cases i with
  | updateColumn now =>
    rcases List.mem_cons.mp hmem with rfl | hmem
    · exact hready attr
    · exact h cachedAt hmem attr
  | _ => exact h cachedAt hmem attr

/-- A counter that is read with a `cached_at` set by `write_cache` is in the
cache, and is what the reader gets. -/
def FindsCounter (name : String) (iso8601 : Time → String) (t : Threads CacheStep State)
    (m : Sched CacheProcess) : Prop :=
  ∀ reader attr cachedAt, taken t m = some (.read reader attr) →
    t.state.loaded reader = some cachedAt → cachedAt ∈ t.state.published →
    ∃ value, t.state.entries (readKey name iso8601 (readerId attr) cachedAt) = some value ∧
      ∀ counts, counter name iso8601 true t.state.entries cachedAt counts attr = toI value

/-- Two runs that overlap, the later one done first, and a reader. -/
def overlappingRuns : List (Sched CacheProcess) :=
  [.start (.writer (fun _ => some 5) ⟨100, 0⟩), .go 0, .start (.writer (fun _ => none) ⟨101, 7⟩)] ++
    List.replicate 15 (.go 1) ++ List.replicate 14 (.go 0) ++
    [.start (.reader 0 [.maximumCount]), .go 2, .go 2]

end Lagotto.Source
