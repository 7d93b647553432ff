/-
Lagotto.Jobs.RateLimiterTheorems — how many requests an hour.

The limit can be exceeded in five ways. Jobs that have passed the check are
not counted until their response is recorded, and the check stops at ten. Only
the first request of `get_data` has a check before it. Two jobs that record at
the same time take one off together. A request that fails is never counted. In
the last second of an hour the window is over already, and a response sets the
number back to `rate_limiting`.

`State.KeepsCount` excludes these: fewer than nine jobs are between check and
recorded response when another one checks, a second request of one `get_data`
is made only where the check would let it pass, recordings do not overlap nor
begin in the last second of an hour, and every request has a response. Nine,
not ten: the first response of a window sets the number to `rate_limiting` and
does not count itself.

`Balanced` is the invariant of such runs. It compares the number remaining
with the requests of the current hour, less those whose response is not
recorded yet; `requests_within_limit` follows.
-/
import Lagotto.Jobs.RateLimiter
import Lagotto.Source.StatableTheorems
import Lagotto.StateMachine.Pool

namespace Lagotto.RateLimiter

open StateMachine

/-! ## Where the jobs are -/

namespace Phase

/-- Past the check, before the request. -/
def admitted : Phase → Bool
  | .checked | .nearLimit | .asleep _ | .fetching false => true
  | _ => false

/-- The request has been made, and is not in the number remaining. -/
def unrecorded : Phase → Bool
  | .sent | .counting | .writing _ => true
  | _ => false

/-- The number has been written, the reset has not. -/
def resetting : Phase → Bool
  | .written => true
  | _ => false

/-- Within the assignments of a response. -/
def recording : Phase → Bool
  | .counting | .writing _ | .written => true
  | _ => false

/-- Past the check, and not in the number remaining. -/
def inFlight (p : Phase) : Bool := p.admitted || p.unrecorded

end Phase

/-- The action keeps the number remaining in step with the requests. -/
def State.KeepsCount (s : Source) (st : State) : Action → Prop
  | .start => True
  | .take job time =>
    (st.jobs[job]? = some .ready → st.jobs.countP Phase.inFlight < 9) ∧
      (st.jobs[job]? = some .sent →
        st.jobs.countP Phase.recording = 0 ∧ time < endOfHour time)
  | .request job _ => st.jobs[job]? = some (.fetching true) →
    10 ≤ s.rateLimitRemaining st.world ∧ st.jobs.countP Phase.inFlight < 9
  | .fail job _ => st.jobs[job]? ≠ some .sent

theorem countP_inFlight (jobs : List Phase) :
    jobs.countP Phase.inFlight = jobs.countP Phase.admitted + jobs.countP Phase.unrecorded := by
  induction jobs with
  | nil => rfl
  | cons p rest ih =>
    simp only [List.countP_cons, ih]
    have hsplit : p.admitted = false ∨ p.unrecorded = false := by
      cases p with
      | fetching asked => exact Or.inr rfl
      | _ => simp [Phase.admitted, Phase.unrecorded]
    rcases hsplit with h | h <;> simp [Phase.inFlight, h] <;> omega

/-! ## The invariant -/

section Invariant

variable (s : Source) (st : State)

structure Balanced : Prop where
  past : ∀ time ∈ st.requests, time ≤ st.world.now
  hours : st.WithinLimit s
  /-- There is room for everyone who has been admitted. -/
  room : requestsIn (hourOf st.world.now) st.requests + st.jobs.countP Phase.admitted ≤
    s.rateLimiting
  few : st.jobs.countP Phase.admitted + st.jobs.countP Phase.unrecorded ≤ 9
  enough : st.jobs.countP Phase.admitted = 0 ∨ 10 ≤ s.rateLimiting
  limit : s.rateLimitRemaining st.world ≤ s.rateLimiting
  /-- The number remaining accounts for the requests that have been recorded,
  save one. -/
  remaining : s.rateLimitRemaining st.world + requestsIn (hourOf st.world.now) st.requests ≤
    s.rateLimiting + 1 + st.jobs.countP Phase.unrecorded
  value : ∀ v, .writing v ∈ st.jobs → v ≤ s.rateLimiting ∧
    v + requestsIn (hourOf st.world.now) st.requests ≤
      s.rateLimiting + st.jobs.countP Phase.unrecorded
  /-- The window in the cache is that of the current hour as soon as a request
  of this hour has been recorded. -/
  reset : requestsIn (hourOf st.world.now) st.requests ≤
      st.jobs.countP Phase.unrecorded + st.jobs.countP Phase.resetting ∨
    (st.world.rateLimits s.name).reset = some (endOfHour st.world.now)
  one : st.jobs.countP Phase.recording ≤ 1

end Invariant

namespace Balanced

variable {s : Source} {st : State}

theorem idle (hs : 0 < s.rateLimiting) (now : ℚ) : Balanced s (State.idle now) where
  past := by simp [State.idle]
  hours := fun hour => hs.le
  room := hs.le
  few := Nat.zero_le _
  enough := Or.inl rfl
  limit := Int.le_refl _
  remaining := by
    show s.rateLimiting + 0 ≤ s.rateLimiting + 1 + 0
    omega
  value := by simp [State.idle]
  reset := Or.inl (Nat.zero_le _)
  one := Nat.zero_le _

/-! The clock. -/

theorem hourOf_mono {t t' : ℚ} (h : t ≤ t') : hourOf t ≤ hourOf t' :=
  Int.ediv_le_ediv (by decide) (Int.floor_le_floor h)

theorem later (h : Balanced s st) {time : ℚ} (htime : st.world.now ≤ time) :
    Balanced s (st.later time) := by
  have hpast : ∀ t ∈ st.requests, t ≤ time := fun t ht => (h.past t ht).trans htime
  rcases (hourOf_mono htime).eq_or_lt with hsame | hnew
  · -- In the same hour nothing changes.
    have hend : endOfHour time = endOfHour st.world.now := by
      simp only [endOfHour, hourOf] at hsame ⊢
      rw [hsame]
    refine ⟨hpast, h.hours, ?_, h.few, h.enough, h.limit, ?_, ?_, ?_, h.one⟩
    · have := h.room
      rw [hsame] at this
      exact this
    · have := h.remaining
      rw [hsame] at this
      exact this
    · have := h.value
      rw [hsame] at this
      exact this
    · have := h.reset
      rw [hsame, ← hend] at this
      exact this
  · have hnone : requestsIn (hourOf time) st.requests = 0 := by
      refine List.countP_eq_zero.mpr (fun t ht heq => ?_)
      have hle := hourOf_mono (h.past t ht)
      rw [beq_iff_eq.mp heq] at hle
      omega
    have hroom := h.room
    have hlimit := h.limit
    have hfew := h.few
    refine ⟨hpast, h.hours, ?_, h.few, h.enough, h.limit, ?_, fun v hv => ?_, Or.inl ?_, h.one⟩
    · show (requestsIn (hourOf time) st.requests : Int) + st.jobs.countP Phase.admitted ≤ _
      rcases h.enough with hnobody | hten <;> omega
    · show s.rateLimitRemaining st.world + (requestsIn (hourOf time) st.requests : Int) ≤ _
      omega
    · obtain ⟨hv, _⟩ := h.value v hv
      refine ⟨hv, ?_⟩
      show v + (requestsIn (hourOf time) st.requests : Int) ≤ _
      omega
    · show requestsIn (hourOf time) st.requests ≤ _
      omega

/-! One job. -/

section Moves

variable {before after : List Phase} {p : Phase}

/-- The counts after a move. -/
theorem counts (hjobs : st.jobs = before ++ p :: after) (p' : Phase) :
    (before ++ p' :: after).countP Phase.admitted + p.admitted.toNat =
        st.jobs.countP Phase.admitted + p'.admitted.toNat ∧
      (before ++ p' :: after).countP Phase.unrecorded + p.unrecorded.toNat =
        st.jobs.countP Phase.unrecorded + p'.unrecorded.toNat ∧
      (before ++ p' :: after).countP Phase.resetting + p.resetting.toNat =
        st.jobs.countP Phase.resetting + p'.resetting.toNat ∧
      (before ++ p' :: after).countP Phase.recording + p.recording.toNat =
        st.jobs.countP Phase.recording + p'.recording.toNat := by
  rw [hjobs]
  exact ⟨Pool.countP_move .., Pool.countP_move .., Pool.countP_move .., Pool.countP_move ..⟩

/-- What is about to be written after a move. -/
theorem value_of_move (h : Balanced s st) (hjobs : st.jobs = before ++ p :: after) {p' : Phase}
    {v : Int} (hv : .writing v ∈ before ++ p' :: after) :
    p' = .writing v ∨ (v ≤ s.rateLimiting ∧
      v + requestsIn (hourOf st.world.now) st.requests ≤
        s.rateLimiting + st.jobs.countP Phase.unrecorded) := by
  by_cases hp' : p' = .writing v
  · exact Or.inl hp'
  · refine Or.inr (h.value v ?_)
    rw [hjobs]
    simp only [List.mem_append, List.mem_cons] at hv ⊢
    rcases hv with hv | hv | hv
    · exact Or.inl hv
    · exact absurd hv.symm hp'
    · exact Or.inr (Or.inr hv)

/-- A job goes on without touching the cache. -/
theorem proceed (h : Balanced s st) (hjobs : st.jobs = before ++ p :: after) {p' : Phase}
    (hadmitted : p'.admitted.toNat ≤ p.admitted.toNat) (hunrecorded : p'.unrecorded = p.unrecorded)
    (hresetting : p'.resetting = p.resetting)
    (hone : p'.recording.toNat ≤ p.recording.toNat ∨ st.jobs.countP Phase.recording = 0)
    (hvalue : ∀ v, p' = .writing v → v ≤ s.rateLimiting ∧
      v + requestsIn (hourOf st.world.now) st.requests ≤
        s.rateLimiting + st.jobs.countP Phase.unrecorded) :
    Balanced s { st with jobs := before ++ p' :: after } := by
  obtain ⟨hA, hS, hW, hR⟩ := counts hjobs p'
  have hroom := h.room
  have hfew := h.few
  have henough := h.enough
  have hremaining := h.remaining
  have hrecording := h.one
  have hleone := p'.recording.toNat_le
  rw [hunrecorded] at hS
  rw [hresetting] at hW
  refine ⟨h.past, h.hours, ?_, ?_, ?_, h.limit, ?_, fun v hv => ?_, ?_, ?_⟩ <;> dsimp only at *
  · omega
  · omega
  · omega
  · omega
  · obtain ⟨hle, hsum⟩ := (h.value_of_move hjobs hv).elim (hvalue v) id
    exact ⟨hle, by omega⟩
  · rcases h.reset with hreset | hreset
    · exact Or.inl (by omega)
    · exact Or.inr hreset
  · omega

/-- A job passes the check, or goes on where it would. -/
theorem passCheck (h : Balanced s st) (hjobs : st.jobs = before ++ p :: after) {p' : Phase}
    (hp : p = .ready ∧ p' = .checked ∨ p = .fetching true ∧ p' = .fetching false)
    (hten : 10 ≤ s.rateLimitRemaining st.world) (hfew : st.jobs.countP Phase.inFlight < 9) :
    Balanced s { st with jobs := before ++ p' :: after } := by
  obtain ⟨hA, hS, hW, hR⟩ := counts hjobs p'
  have hphase : ∀ v, p' ≠ .writing v := by
    rcases hp with ⟨-, rfl⟩ | ⟨-, rfl⟩ <;> simp
  have hkinds : p.admitted = false ∧ p'.admitted = true ∧ p.unrecorded = p'.unrecorded ∧
      p.resetting = p'.resetting ∧ p.recording = p'.recording := by
    rcases hp with ⟨rfl, rfl⟩ | ⟨rfl, rfl⟩ <;> decide
  obtain ⟨hp, hp', hunrecorded, hresetting, hrecording⟩ := hkinds
  rw [hp, hp', Bool.toNat_false, Bool.toNat_true, Nat.add_zero] at hA
  rw [hunrecorded, Nat.add_right_cancel_iff] at hS
  rw [hresetting, Nat.add_right_cancel_iff] at hW
  rw [hrecording, Nat.add_right_cancel_iff] at hR
  have hremaining := h.remaining
  rw [countP_inFlight] at hfew
  refine ⟨h.past, h.hours, ?_, ?_, Or.inr (hten.trans h.limit), h.limit, ?_, fun v hv => ?_, ?_,
    ?_⟩ <;> simp only [hA, hS, hW, hR]
  · omega
  · omega
  · exact h.remaining
  · exact (h.value_of_move hjobs hv).resolve_left (hphase v)
  · exact h.reset
  · exact h.one

/-- A job makes the request it was admitted for. -/
theorem request (h : Balanced s st) (hjobs : st.jobs = before ++ .fetching false :: after) :
    Balanced s { st with
      jobs := before ++ .sent :: after, requests := st.requests ++ [st.world.now] } := by
  obtain ⟨hA, hS, hW, hR⟩ := counts hjobs .sent
  simp only [Phase.admitted, Phase.unrecorded, Phase.resetting, Phase.recording, Bool.toNat_true,
    Bool.toNat_false, Nat.add_zero] at hA hS hW hR
  have hnow : requestsIn (hourOf st.world.now) (st.requests ++ [st.world.now]) =
      requestsIn (hourOf st.world.now) st.requests + 1 := by
    simp [requestsIn]
  have hroom := h.room
  have hfew := h.few
  have henough := h.enough
  have hremaining := h.remaining
  refine ⟨fun t ht => ?_, fun hour => ?_, ?_, ?_, ?_, h.limit, ?_, fun v hv => ?_, ?_, ?_⟩ <;>
    simp only [hS, hW, hR, hnow]
  · rcases List.mem_append.mp ht with ht | ht
    · exact h.past t ht
    · exact (List.mem_singleton.mp ht).le
  · by_cases hhour : hour = hourOf st.world.now
    · rw [hhour, hnow]
      omega
    · have hother : requestsIn hour (st.requests ++ [st.world.now]) =
          requestsIn hour st.requests := by
        simp [requestsIn, Ne.symm hhour]
      rw [hother]
      exact h.hours hour
  · omega
  · omega
  · omega
  · omega
  · obtain ⟨hle, hsum⟩ := (h.value_of_move hjobs hv).resolve_left (by simp)
    exact ⟨hle, by omega⟩
  · exact h.reset.imp_left (fun hreset => by omega)
  · exact h.one

/-- A job writes the number remaining. No other job is about to do so. -/
theorem writeRemaining (h : Balanced s st) {v : Int}
    (hjobs : st.jobs = before ++ .writing v :: after) :
    Balanced s { st with
      world := s.writeRateLimitRemaining v st.world, jobs := before ++ .written :: after } := by
  obtain ⟨hA, hS, hW, hR⟩ := counts hjobs .written
  simp only [Phase.admitted, Phase.unrecorded, Phase.resetting, Phase.recording, Bool.toNat_true,
    Bool.toNat_false, Nat.add_zero, Nat.add_right_cancel_iff] at hA hS hW hR
  have hremaining : s.rateLimitRemaining (s.writeRateLimitRemaining v st.world) = v := by
    simp [Source.rateLimitRemaining, Source.writeRateLimitRemaining]
  have hcache : ((s.writeRateLimitRemaining v st.world).rateLimits s.name).reset =
      (st.world.rateLimits s.name).reset := by
    simp [Source.writeRateLimitRemaining]
  have hnow : (s.writeRateLimitRemaining v st.world).now = st.world.now := rfl
  obtain ⟨hle, hsum⟩ := h.value v (by rw [hjobs]; simp)
  have hfew := h.few
  refine ⟨h.past, h.hours, ?_, ?_, ?_, ?_, ?_, fun v' hv' => ?_, ?_, ?_⟩ <;>
    simp only [hA, hW, hR, hremaining, hcache, hnow]
  · exact h.room
  · omega
  · exact h.enough
  · exact hle
  · omega
  · have hother : Phase.writing v' ∈ before ∨ Phase.writing v' ∈ after := by
      simpa using hv'
    have hone := h.one
    rw [hjobs] at hone
    cases Pool.alone hone rfl hother
  · exact h.reset.imp_left (fun hreset => by omega)
  · exact h.one

/-- A job writes the reset, and `get_data` goes on. -/
theorem writeReset (h : Balanced s st) (hjobs : st.jobs = before ++ .written :: after) :
    Balanced s { st with
      world := s.setRateLimitReset none st.world, jobs := before ++ .fetching true :: after } := by
  obtain ⟨hA, hS, hW, hR⟩ := counts hjobs (.fetching true)
  simp only [Phase.admitted, Phase.unrecorded, Phase.resetting, Phase.recording, Bool.toNat_true,
    Bool.toNat_false, Nat.add_zero] at hA hS hW hR
  have hremaining : s.rateLimitRemaining (s.setRateLimitReset none st.world) =
      s.rateLimitRemaining st.world := by
    simp [Source.rateLimitRemaining, Source.setRateLimitReset, Source.writeRateLimitReset]
  have hcache : ((s.setRateLimitReset none st.world).rateLimits s.name).reset =
      some (endOfHour st.world.now) := by
    simp [Source.setRateLimitReset, Source.writeRateLimitReset]
  have hnow : (s.setRateLimitReset none st.world).now = st.world.now := rfl
  have hone := h.one
  refine ⟨h.past, h.hours, ?_, ?_, ?_, ?_, ?_, fun v hv => ?_, Or.inr hcache, ?_⟩ <;>
    simp only [hA, hS, hremaining, hnow]
  · exact h.room
  · exact h.few
  · exact h.enough
  · exact h.limit
  · exact h.remaining
  · exact (h.value_of_move hjobs hv).resolve_left (by simp)
  · omega

end Moves

/-- A job goes to sleep, or ends. -/
theorem fallAsleep (h : Balanced s st) {before after : List Phase} {p : Phase}
    (hjobs : st.jobs = before ++ p :: after) (hadmitted : p.admitted = true)
    (hunrecorded : p.unrecorded = false) (hresetting : p.resetting = false) (wait : ℚ) :
    Balanced s { st with jobs := before ++ Phase.fallAsleep wait st.world :: after } := by
  have hle : ∀ p' : Phase, p'.admitted.toNat ≤ p.admitted.toNat :=
    fun p' => by rw [hadmitted]; exact p'.admitted.toNat_le
  unfold Phase.fallAsleep
  split
  · exact h.proceed hjobs (hle _) hunrecorded.symm hresetting.symm (Or.inl (Nat.zero_le _))
      (by simp)
  · exact h.proceed hjobs (hle _) hunrecorded.symm hresetting.symm (Or.inl (Nat.zero_le _))
      (by simp)

/-- A response finds the window open, or over; then none of this hour has been
recorded yet. -/
theorem startRecording (h : Balanced s st) {before after : List Phase}
    (hjobs : st.jobs = before ++ .sent :: after) (hnone : st.jobs.countP Phase.recording = 0)
    (hinside : st.world.now < endOfHour st.world.now) :
    Balanced s { st with
      jobs := before ++ ((Phase.sent.step s st.world).1 :: after) } := by
  by_cases hopen : st.world.now < s.rateLimitReset st.world
  · rw [Phase.step, if_pos hopen]
    exact h.proceed hjobs (Nat.zero_le _) rfl rfl (Or.inr hnone) (by simp)
  rw [Phase.step, if_neg hopen]
  refine h.proceed hjobs (Nat.zero_le _) rfl rfl (Or.inr hnone) ?_
  intro v hv
  cases hv
  have hresetting : st.jobs.countP Phase.resetting = 0 := by
    refine List.countP_eq_zero.mpr (fun q hq hreset => ?_)
    refine List.countP_eq_zero.mp hnone q hq ?_
    cases q with
    | written => rfl
    | _ => cases hreset
  refine ⟨Int.le_refl _, ?_⟩
  rcases h.reset with hfew | hcached
  · omega
  · rw [Source.rateLimitReset, hcached] at hopen
    exact absurd hinside hopen

/-- The next step of a job. -/
theorem move (h : Balanced s st) {job : Nat} {p : Phase} (hjob : st.jobs[job]? = some p)
    (hcheck : (s.checkForRateLimits st.world).1 = decide (s.rateLimitRemaining st.world < 10))
    (hready : p = .ready → st.jobs.countP Phase.inFlight < 9)
    (hsent : p = .sent →
      st.jobs.countP Phase.recording = 0 ∧ st.world.now < endOfHour st.world.now) :
    Balanced s (st.move s job p) := by
  obtain ⟨before, after, hjobs, hset⟩ := Pool.exists_split hjob
  rw [State.move, hset]
  cases p with
  | ready =>
    show Balanced s { st with jobs := before ++ (if (s.checkForRateLimits st.world).1 then .ended
      else .checked) :: after }
    rw [hcheck]
    split
    next => exact h.proceed hjobs (Nat.zero_le _) rfl rfl (Or.inl (Nat.zero_le _)) (by simp)
    next hten => exact h.passCheck hjobs (Or.inl ⟨rfl, rfl⟩) (by simpa using hten) (hready rfl)
  | checked =>
    show Balanced s { st with jobs := before ++ (if s.rateLimitRemaining st.world < 50 then
      .nearLimit else Phase.fallAsleep (3600 / s.rateLimiting) st.world) :: after }
    split
    next => exact h.proceed hjobs (Nat.le_refl _) rfl rfl (Or.inl (Nat.zero_le _)) (by simp)
    next => exact h.fallAsleep hjobs rfl rfl rfl _
  | nearLimit => exact h.fallAsleep hjobs rfl rfl rfl _
  | asleep wakeUp =>
    show Balanced s { st with jobs := before ++ (if wakeUp ≤ st.world.now then .fetching false
      else .asleep wakeUp) :: after }
    split
    next => exact h.proceed hjobs (Nat.le_refl _) rfl rfl (Or.inl (Nat.zero_le _)) (by simp)
    next => exact h.proceed hjobs (Nat.le_refl _) rfl rfl (Or.inl (Nat.zero_le _)) (by simp)
  | fetching asked =>
    show Balanced s { st with jobs := before ++ .ready :: after }
    exact h.proceed hjobs (Nat.zero_le _) rfl rfl (Or.inl (Nat.zero_le _)) (by simp)
  | sent => exact h.startRecording hjobs (hsent rfl).1 (hsent rfl).2
  | counting =>
    have hremaining := h.remaining
    have hlimit := h.limit
    refine h.proceed hjobs (Nat.zero_le _) rfl rfl (Or.inl (Nat.le_refl _)) ?_
    intro v hv
    cases hv
    omega
  | writing v => exact h.writeRemaining hjobs
  | written => exact h.writeReset hjobs
  | ended =>
    show Balanced s { st with jobs := before ++ .ended :: after }
    exact h.proceed hjobs (Nat.zero_le _) rfl rfl (Or.inl (Nat.zero_le _)) (by simp)

/-- A request, with or without a check before it. -/
theorem send (h : Balanced s st) {job : Nat} {p : Phase} (hjob : st.jobs[job]? = some p)
    (hagain : p = .fetching true →
      10 ≤ s.rateLimitRemaining st.world ∧ st.jobs.countP Phase.inFlight < 9) :
    Balanced s (st.send job p) := by
  obtain ⟨before, after, hjobs, hset⟩ := Pool.exists_split hjob
  cases p with
  | fetching asked =>
    rw [State.send, hset]
    cases asked with
    | false => exact h.request hjobs
    | true =>
      obtain ⟨hten, hfew⟩ := hagain rfl
      exact (h.passCheck hjobs (Or.inr ⟨rfl, rfl⟩) hten hfew).request rfl
  | _ => exact h

/-- A job begins. -/
theorem start (h : Balanced s st) : Balanced s { st with jobs := st.jobs ++ [.ready] } := by
  have hcount : ∀ kind : Phase → Bool, kind .ready = false →
      (st.jobs ++ [Phase.ready]).countP kind = st.jobs.countP kind := by
    intro kind hready
    rw [List.countP_append, List.countP_singleton, hready]
    rfl
  have hA := hcount Phase.admitted rfl
  have hS := hcount Phase.unrecorded rfl
  have hW := hcount Phase.resetting rfl
  have hR := hcount Phase.recording rfl
  refine ⟨h.past, h.hours, ?_, ?_, ?_, h.limit, ?_, fun v hv => ?_, ?_, ?_⟩ <;>
    simp only [hA, hS, hW, hR]
  · exact h.room
  · exact h.few
  · exact h.enough
  · exact h.remaining
  · exact h.value v (by simpa using hv)
  · exact h.reset
  · exact h.one

/-- What happens to a job, once it is known for every phase. -/
theorem onJob (h : Balanced s st) {job : Nat} {time : ℚ} {f : State → Nat → Phase → State}
    (hf : ∀ p, st.jobs[job]? = some p → Balanced s (st.later time) →
      Balanced s (f (st.later time) job p)) :
    Balanced s (st.onJob job time f) := by
  unfold State.onJob
  split
  next htime =>
    cases hjob : st.jobs[job]? with
    | none => exact h.later htime
    | some p => exact hf p hjob (h.later htime)
  next => exact h

/-- Every action that keeps the count. -/
theorem step (h : Balanced s st) (action : Action) (hcount : st.KeepsCount s action) :
    Balanced s (State.step s action st) := by
  cases action with
  | start => exact h.start
  | take job time =>
    refine h.onJob fun p hjob hlater => hlater.move hjob rfl (fun hp => hcount.1 ?_)
      (fun hp => hcount.2 ?_)
    · rw [hjob, hp]
    · rw [hjob, hp]
  | request job time =>
    refine h.onJob fun p hjob hlater => hlater.send hjob (fun hp => hcount ?_)
    rw [hjob, hp]
  | fail job time =>
    refine h.onJob fun p hjob hlater => ?_
    cases p with
    | sent => exact absurd hjob hcount
    | _ => exact hlater

end Balanced

/-! ## Runs -/

/-- Jobs that keep the count stay within the limit. -/
theorem requests_within_limit (s : Source) (hs : 0 < s.rateLimiting) (now : ℚ)
    (actions : List Action)
    (hcount : Along (State.step s) (State.KeepsCount s) actions (State.idle now)) :
    (run (State.step s) actions (State.idle now)).WithinLimit s := by
  have h : Balanced s (run (State.step s) actions (State.idle now)) :=
    invariant_along (fun _ action h hc => h.step action hc) (Balanced.idle hs now) hcount
  exact h.hours

instance (s : Source) (st : State) (action : Action) : Decidable (st.KeepsCount s action) := by
  cases action <;> unfold State.KeepsCount <;> infer_instance

/-- Two jobs check, wait and make their requests side by side, and record one
after the other; the first of them asks for another page. -/
def sideBySide : List Action :=
  [.start, .start, .take 0 0, .take 1 0, .take 0 0, .take 1 0, .take 0 2, .take 1 2,
    .request 0 2, .request 1 2] ++
    List.replicate 4 (.take 1 3) ++ List.replicate 4 (.take 0 3) ++
    [.request 0 4, .take 1 4, .take 1 4]

theorem sideBySide_within_limit :
    (run (State.step Source.citeulike) sideBySide (State.idle 0)).requests = [2, 2, 4] ∧
      (run (State.step Source.citeulike) sideBySide (State.idle 0)).WithinLimit
        Source.citeulike :=
  ⟨by decide +kernel,
    requests_within_limit Source.citeulike (by decide) 0 sideBySide (by decide +kernel)⟩

/-- A source with a limit of ten. -/
def scarce : Source := { Source.citeulike with config := { rateLimiting := some 10 } }

/-- Eleven jobs are let through the check before one of them makes its request,
and wait for the last second of the hour. -/
def elevenAtOnce : List Action :=
  List.replicate 11 .start ++
    (List.range 11).flatMap (fun job => List.replicate 3 (.take job 3595)) ++
    (List.range 11).flatMap (fun job => [.take job 3599, .request job 3599])

/-- Eleven requests in one hour, and the limit is ten. -/
theorem eleven_of_ten :
    ¬ (run (State.step scarce) elevenAtOnce (State.idle 3595)).WithinLimit scarce := by
  intro h
  have hhour := h 0
  revert hhour
  decide +kernel

end Lagotto.RateLimiter
