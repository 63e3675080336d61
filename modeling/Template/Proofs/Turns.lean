import Template.Proofs.Schedule

/-!
# `Template.Proofs.Turns` — rounds are a schedule

`Plan.together` is one of the schedules of `Template.Proofs.Schedule`: without the flags by which news travels
from round to round, a job is a thread, and a turn of the job is a row of moves of the thread. That takes an
invariant (`Job.Flagged`): a flag is only set once it is settled that the job is called off, so that whatever
is done because of a flag might as well have been done without it.
-/

namespace Template

open Job

variable {σ ε α : Type}

namespace Job

mutual

/-- A job without its flags. -/
def thread : Job σ ε α → Thread σ ε α
  | pending plan _ => .waiting plan
  | group build standing members => .group build standing.error (threads members)
  | ended ending => .ended ending
  | noticed ending => .noticed ending

/-- Jobs without their flags. -/
def threads : List (Job σ ε α) → List (Thread σ ε α)
  | [] => []
  | job :: rest => job.thread :: threads rest

end

end Job

/-- What a group knows is justified: it was cancelled from outside (`off`) if it says so, and looks up because
    of that or after an error. -/
structure Standing.Flagged (off : Bool) (standing : Standing ε) : Prop where
  cancelled : standing.cancelled = true → off = true
  lookUp : standing.lookUp.isSome = true → (off || standing.error.isSome) = true

namespace Job

mutual

/-- The flags of a job are justified, in a group that was called off or not: only then is it cancelled or
    about to be, and a group whose member's error was noticed has an error. -/
def Flagged (off : Bool) : Job σ ε α → Prop
  | pending _ cancelled => cancelled = true → off = true
  | group _ standing members =>
    standing.Flagged off ∧ (∀ e, noticed (.error e) ∈ members → standing.error.isSome = true) ∧
      FlaggedAll standing.isOff members
  | ended ending => ending = .cancelled → off = true
  | noticed ending => ending = .cancelled → off = true

/-- The flags of jobs are justified. -/
def FlaggedAll (off : Bool) : List (Job σ ε α) → Prop
  | [] => True
  | job :: rest => job.Flagged off ∧ FlaggedAll off rest

end

end Job

/-! ## What a group knows after a turn -/

namespace Standing

variable {standing : Standing ε} {failure : Option (Nat × ε)}

theorem Flagged.mono {off off' : Bool} (h : off = true → off' = true) (hs : standing.Flagged off) :
    standing.Flagged off' := by
  refine ⟨fun hc => h (hs.cancelled hc), ?_⟩
  intro hl
  have := hs.lookUp hl
  rw [Bool.or_eq_true] at this ⊢
  exact this.imp_left h

theorem Flagged.off_of_isOff {off : Bool} (hs : standing.Flagged off) (h : standing.isOff = true) :
    (off || standing.error.isSome) = true := by
  unfold isOff at h
  rw [Bool.or_eq_true] at h ⊢
  exact h.symm.imp_left hs.cancelled

theorem error_review (cancel : Bool) :
    (standing.review cancel failure).error = (standing.error <|> failure.map (·.2)) := rfl

/-- A group that has seen an error does not forget it. -/
theorem isSome_error_review (cancel : Bool) (h : standing.error.isSome = true) :
    (standing.review cancel failure).error.isSome = true := by
  rw [error_review]
  cases he : standing.error with
  | none => rw [he] at h; cases h
  | some e => rfl

theorem error_of_not_isOff (h : ¬ standing.isOff = true) : standing.error = none := by
  cases he : standing.error with
  | none => rfl
  | some e => simp [isOff, he] at h

theorem isOff_review (cancel : Bool) (h : standing.isOff = true) :
    (standing.review cancel failure).isOff = true := by
  unfold isOff at h ⊢
  rw [Bool.or_eq_true] at h ⊢
  rcases h with h | h
  · exact .inl (isSome_error_review cancel h)
  · right
    show (standing.cancelled || _) = true
    rw [h, Bool.true_or]

/-- A group that is called off in a turn is off after it. -/
theorem isOff_of_strike? (cancel : Bool) (h : (standing.strike? failure).isSome = true) :
    (standing.review cancel failure).isOff = true := by
  unfold strike? at h
  split at h
  · cases h
  · rename_i hoff
    have herror := error_of_not_isOff hoff
    -- it looks up, and is cancelled from now on, or has seen its first failure in this turn
    unfold isOff
    cases hl : standing.lookUp with
    | some place => simp [review, hl, herror]
    | none =>
      cases hf : failure with
      | none => rw [hl, hf] at h; cases h
      | some failed => simp [review, herror]

theorem Flagged.reviewed {off off' cancel : Bool} (hs : standing.Flagged off)
    (h : off = true → off' = true) (hc : cancel = true → off' = true) :
    (standing.review cancel failure).Flagged off' := by
  constructor
  · intro hcancelled
    have hcases : standing.cancelled = true ∨
        (standing.lookUp.isSome = true ∧ standing.error.isNone = true) := by
      simpa [review] using hcancelled
    rcases hcases with hcancelled | ⟨hl, he⟩
    · exact h (hs.cancelled hcancelled)
    · -- it looked up without an error of its own, so the error is one around it
      have := hs.lookUp hl
      rw [Option.isNone_iff_eq_none] at he
      rw [he, Option.isSome_none, Bool.or_false] at this
      exact h this
  · intro hl
    rw [error_review]
    unfold review at hl
    dsimp only at hl
    split at hl
    · cases hl
    · split at hl
      · rename_i hcancel
        rw [hc hcancel, Bool.true_or]
      · split at hl
        · cases hl
        · cases failure with
          | none => cases hl
          | some failed => cases standing.error <;> simp

/-- When a group is called off in a turn, it was cancelled from outside, or there is the failure of the member
    at that place. -/
theorem off_of_strike? {off : Bool} (hs : standing.Flagged off) {place : Nat}
    (h : standing.strike? failure = some place) :
    off = true ∨ ∃ e, failure = some (place, e) := by
  unfold strike? at h
  split at h
  · cases h
  · rename_i hoff
    have herror := error_of_not_isOff hoff
    cases hl : standing.lookUp with
    | some other =>
      have := hs.lookUp (by rw [hl]; rfl)
      rw [herror, Option.isSome_none, Bool.or_false] at this
      exact .inl this
    | none =>
      cases hf : failure with
      | none => rw [hl, hf] at h; cases h
      | some failed =>
        rw [hl, hf] at h
        cases h
        exact .inr ⟨failed.2, rfl⟩

theorem Flagged.not_cancelled {off : Bool} (hs : standing.Flagged off) (value : α) :
    standing.ending value = .cancelled → off = true := by
  intro hending
  unfold ending at hending
  split at hending
  · cases hending
  · split at hending
    · exact hs.cancelled ‹_›
    · cases hending

end Standing

/-! ## Flags stay justified -/

namespace Job

theorem flaggedAll_iff {off : Bool} {jobs : List (Job σ ε α)} :
    FlaggedAll off jobs ↔ ∀ job ∈ jobs, job.Flagged off := by
  induction jobs with
  | nil => simp [FlaggedAll]
  | cons job rest ih => simp [FlaggedAll, ih]

theorem Flagged.mono {off off' : Bool} (h : off = true → off' = true) {job : Job σ ε α}
    (hj : job.Flagged off) : job.Flagged off' := by
  cases job with
  | pending plan cancelled => exact fun hc => h (hj hc)
  | group build standing members => exact ⟨hj.1.mono h, hj.2⟩
  | ended ending => exact fun he => h (hj he)
  | noticed ending => exact fun he => h (hj he)

theorem flagged_cancelLate {off : Bool} (hoff : off = true) {job : Job σ ε α} (hj : job.Flagged off) :
    job.cancelLate.Flagged off := by
  cases job with
  | pending plan cancelled => exact fun _ => hoff
  | group build standing members =>
    refine ⟨⟨hj.1.cancelled, ?_⟩, hj.2⟩
    intro _
    rw [hoff, Bool.true_or]
  | ended ending => exact hj
  | noticed ending => exact hj

/-- A turn of a script that goes on: its flags are down, and its move is the one of its thread. -/
theorem begin_work (script : Script σ ε α) (world : World σ) :
    (begin (.work script) world).2 = (script.advance world).2 ∧
      (begin (.work script) world).1.thread = .ofProgress (script.advance world).1 ∧
      ((∃ result, (begin (.work script) world).1 = ended (.ofResult result)) ∨
        ∃ rest, (begin (.work script) world).1 = pending (.work rest) false) := by
  simp only [begin]
  rcases script.advance world with ⟨⟨error | value⟩ | rest, after⟩
  · exact ⟨rfl, rfl, .inl ⟨.error error, rfl⟩⟩
  · exact ⟨rfl, rfl, .inl ⟨.ok value, rfl⟩⟩
  · exact ⟨rfl, rfl, .inr ⟨rest, rfl⟩⟩

theorem flagged_begin (off : Bool) (plan : Plan σ ε α) (world : World σ) :
    (begin plan world).1.Flagged off := by
  cases plan with
  | work script =>
    rcases (begin_work script world).2.2 with ⟨result, hended⟩ | ⟨rest, hpending⟩
    · rw [hended]
      intro h
      cases result <;> cases h
    · rw [hpending]
      intro h
      cases h
  | split build parts =>
    cases parts with
    | nil => exact fun h => nomatch h
    | cons part parts =>
      refine ⟨⟨?_, ?_⟩, ?_, ?_⟩
      · intro h
        cases h
      · intro h
        cases h
      · intro e he
        obtain ⟨other, -, hother⟩ := List.mem_map.mp he
        cases hother
      · rw [flaggedAll_iff]
        intro job hjob
        obtain ⟨other, -, rfl⟩ := List.mem_map.mp hjob
        intro h
        cases h

/-- Only what has ended is noticed in a turn. -/
theorem turn_eq_noticed {cancel : Bool} {job : Job σ ε α} {world : World σ} {ending : Ending ε α}
    (h : (job.turn cancel world).1 = noticed ending) : job = ended ending ∨ job = noticed ending := by
  cases job with
  | pending plan cancelled =>
    rw [turn] at h
    split at h
    · cases h
    · cases plan with
      | work script =>
        rcases (begin_work script world).2.2 with ⟨result, hended⟩ | ⟨rest, hpending⟩
        · rw [hended] at h
          cases h
        · rw [hpending] at h
          cases h
      | split build parts => cases parts <;> cases h
  | group build standing members =>
    rw [turn] at h
    split at h
    · cases h
    · dsimp only at h
      split at h <;> cases h
  | ended other => cases h; exact .inl rfl
  | noticed other => cases h; exact .inr rfl

theorem cancelLate_eq_noticed {job : Job σ ε α} {ending : Ending ε α}
    (h : job.cancelLate = noticed ending) : job = noticed ending := by
  cases job with
  | noticed other => exact h
  | _ => cases h

theorem firstFailure?_cons {job : Job σ ε α} (h : ∀ e, job ≠ ended (.error e))
    (rest : List (Job σ ε α)) :
    firstFailure? (job :: rest) = (firstFailure? rest).map fun (place, e) => (place + 1, e) := by
  rw [firstFailure?]
  exact h

/-- The members of a group of which one is noticed to have failed. -/
theorem error_of_mem_turnAll {strike : Option Nat} {place : Nat} {jobs : List (Job σ ε α)}
    {world : World σ} {e : ε} (h : noticed (.error e) ∈ (turnAll strike place jobs world).1) :
    noticed (.error e) ∈ jobs ∨ (firstFailure? jobs).isSome = true := by
  induction jobs generalizing place world with
  | nil => exact .inl h
  | cons job rest ih =>
    rw [turnAll] at h
    rcases List.mem_cons.mp h with h | h
    · have hturn : (job.turn (strike.any (· ≤ place)) world).1 = noticed (.error e) := by
        split at h
        · exact cancelLate_eq_noticed h.symm
        · exact h.symm
      rcases turn_eq_noticed hturn with rfl | rfl
      · exact .inr rfl
      · exact .inl List.mem_cons_self
    · rcases ih h with h | h
      · exact .inl (List.mem_cons_of_mem _ h)
      · right
        by_cases hjob : ∃ own, job = ended (.error own)
        · obtain ⟨own, rfl⟩ := hjob
          rfl
        · rw [firstFailure?_cons (not_exists.mp hjob), Option.isSome_map]
          exact h

/-- A group after a round, with members whose flags are justified. -/
theorem flagged_round {off off' cancel : Bool} (h : off = true → off' = true)
    (hc : cancel = true → off' = true) {build : List α → α} {standing : Standing ε}
    {members : List (Job σ ε α)} (hj : (group build standing members).Flagged off)
    {strike : Option Nat} {world : World σ}
    (hnext : FlaggedAll (standing.review cancel (firstFailure? members)).isOff
      (turnAll strike 0 members world).1) :
    (group build (standing.review cancel (firstFailure? members))
      (turnAll strike 0 members world).1).Flagged off' := by
  obtain ⟨hstanding, hseen, -⟩ := hj
  refine ⟨hstanding.reviewed h hc, ?_, hnext⟩
  intro e he
  rcases error_of_mem_turnAll he with he | he
  · exact Standing.isSome_error_review cancel (hseen e he)
  · rw [Standing.error_review]
    cases standing.error with
    | none => simpa using he
    | some first => rfl

mutual

/-- **Flags stay justified in a turn**, in which the job may be called off. -/
theorem flagged_turn {off off' : Bool} (cancel : Bool) (h : off = true → off' = true)
    (hc : cancel = true → off' = true) (job : Job σ ε α) (hj : job.Flagged off) (world : World σ) :
    (job.turn cancel world).1.Flagged off' := by
  match job with
  | pending plan cancelled =>
    rw [turn]
    split
    · -- cancelled, by its flag or in this turn
      rename_i hcancel
      intro _
      rw [Bool.or_eq_true] at hcancel
      exact hcancel.elim (fun hcancelled => h (hj hcancelled)) hc
    · exact flagged_begin off' plan world
  | group build standing members =>
    have hround := flagged_round h hc hj (flaggedAll_turnAll (Standing.isOff_review cancel)
      (Standing.isOff_of_strike? cancel) 0 members hj.2.2 world)
    rw [turn]
    -- all members were noticed before, are noticed in this turn, or the group goes on
    split
    · exact fun hending => h (hj.1.not_cancelled _ hending)
    · dsimp only
      split
      · exact hround.1.not_cancelled _
      · exact hround
  | ended ending => exact fun he => h (hj he)
  | noticed ending => exact fun he => h (hj he)

theorem flaggedAll_turnAll {off off' : Bool} {strike : Option Nat} (h : off = true → off' = true)
    (hc : strike.isSome = true → off' = true) (place : Nat) (jobs : List (Job σ ε α))
    (hj : FlaggedAll off jobs) (world : World σ) :
    FlaggedAll off' (turnAll strike place jobs world).1 := by
  match jobs with
  | [] => trivial
  | job :: rest =>
    have hany : ∀ {p : Nat → Bool}, strike.any p = true → off' = true := by
      intro p hp
      cases strike with
      | none => cases hp
      | some place => exact hc rfl
    have hturn := flagged_turn (strike.any (· ≤ place)) h hany job hj.1 world
    rw [turnAll]
    refine ⟨?_, flaggedAll_turnAll h hc (place + 1) rest hj.2 _⟩
    split
    · exact flagged_cancelLate (hany ‹_›) hturn
    · exact hturn

end

/-- A group that goes on after a round. -/
theorem flagged_next {off off' : Bool} (cancel : Bool) (h : off = true → off' = true)
    (hc : cancel = true → off' = true) {build : List α → α} {standing : Standing ε}
    {members : List (Job σ ε α)} (hj : (group build standing members).Flagged off) (world : World σ) :
    (group build (standing.review cancel (firstFailure? members))
      (turnAll (standing.strike? (firstFailure? members)) 0 members world).1).Flagged off' :=
  flagged_round h hc hj (flaggedAll_turnAll (Standing.isOff_review cancel)
    (Standing.isOff_of_strike? cancel) 0 members hj.2.2 world)

/-! ## A turn is a row of moves -/

open Thread (Move Moves)

theorem thread_cancelLate (job : Job σ ε α) : job.cancelLate.thread = job.thread := by
  cases job <;> rfl

theorem all_isNoticed_threads (jobs : List (Job σ ε α)) :
    (threads jobs).all Thread.isNoticed = jobs.all isNoticed := by
  induction jobs with
  | nil => rfl
  | cons job rest ih =>
    rw [threads, List.all_cons, List.all_cons, ih]
    cases job <;> rfl

/-- Members that were all noticed, none with an error and none cancelled, make up their values. -/
theorem threads_of_values {jobs : List (Job σ ε α)} (h : jobs.all isNoticed = true)
    (hf : FlaggedAll false jobs) (he : ∀ e, noticed (.error e) ∉ jobs) :
    threads jobs = (jobs.filterMap value?).map fun value => .noticed (.value value) := by
  induction jobs with
  | nil => rfl
  | cons job rest ih =>
    rw [List.all_cons, Bool.and_eq_true] at h
    have hrest := ih h.2 hf.2 fun e hmem => he e (List.mem_cons_of_mem _ hmem)
    cases job with
    | noticed ending =>
      cases ending with
      | value value => rw [threads, hrest]; rfl
      | error e => exact absurd List.mem_cons_self (he e)
      | cancelled => cases hf.1 rfl
    | _ => cases h.1

/-- A group whose members have all been noticed ends as it says. -/
theorem moves_ending {off : Bool} {build : List α → α} {standing : Standing ε}
    {members : List (Job σ ε α)} (hj : (group build standing members).Flagged off)
    (hall : members.all isNoticed = true) (world : World σ) :
    Moves off (group build standing members).thread world
      (.ended (standing.ending (build (members.filterMap value?)))) world := by
  obtain ⟨hstanding, hseen, hmembers⟩ := hj
  have hthreads : (threads members).all Thread.isNoticed = true := by rwa [all_isNoticed_threads]
  rw [thread]
  unfold Standing.ending
  cases herror : standing.error with
  | some e => exact .single (.fails off build e hthreads world)
  | none =>
    dsimp only
    split
    · rw [hstanding.cancelled ‹_›]
      exact .single (.stops build hthreads world)
    · rename_i hcancelled
      have hoff : standing.isOff = false := by
        simp [Standing.isOff, herror, hcancelled]
      rw [hoff] at hmembers
      rw [threads_of_values hall hmembers fun e hmem => by simp [herror] at hseen; exact hseen e hmem]
      exact .single (.completes off build _ world)

theorem threads_map_ofPlan (parts : List (Plan σ ε α)) :
    threads (parts.map ofPlan) = parts.map Thread.waiting := by
  induction parts with
  | nil => rfl
  | cons part rest ih =>
    rw [List.map_cons, threads, ih]
    rfl

/-- The first turn of a plan, and every further turn of a script. -/
theorem moves_begin (off : Bool) (plan : Plan σ ε α) (world : World σ) :
    Moves off (.waiting plan) world (begin plan world).1.thread (begin plan world).2 := by
  cases plan with
  | work script =>
    obtain ⟨hworld, hthread, -⟩ := begin_work script world
    rw [hworld, hthread]
    exact .single (.go off script world)
  | split build parts =>
    refine .head (.divide off build parts world) ?_
    cases parts with
    | nil => exact .single (.completes off build [] world)
    | cons part parts =>
      rw [← threads_map_ofPlan]
      exact .refl _ _

/-- A group that is called off where a failure is noticed is called off behind a member that has not
    failed. -/
theorem strike_behind {off : Bool} {strike : Option Nat} {place : Nat} {job : Job σ ε α}
    {rest : List (Job σ ε α)} (hjob : ∀ e, job ≠ ended (.error e))
    (hs : ∀ s, strike = some s →
      off = true ∨ ∃ k e, firstFailure? (job :: rest) = some (k, e) ∧ s = place + k) :
    ∀ s, strike = some s → off = true ∨ ∃ k e, firstFailure? rest = some (k, e) ∧ s = place + 1 + k := by
  intro s hstrike
  rcases hs s hstrike with hoff | ⟨k, e, hfirst, rfl⟩
  · exact .inl hoff
  · rw [firstFailure?_cons hjob, Option.map_eq_some_iff] at hfirst
    obtain ⟨⟨k', e'⟩, hfirst, hk⟩ := hfirst
    cases hk
    exact .inr ⟨k', _, hfirst, by omega⟩

/-- The job at whose place a group is called off is one whose failure is noticed there, and is not called off
    by its own failure. -/
theorem off_of_cancel {off : Bool} {strike : Option Nat} {place : Nat} {job : Job σ ε α}
    {rest : List (Job σ ε α)} (hjob : ∀ e, job ≠ ended (.error e))
    (hs : ∀ s, strike = some s →
      off = true ∨ ∃ k e, firstFailure? (job :: rest) = some (k, e) ∧ s = place + k)
    (hc : strike.any (· ≤ place) = true) : off = true := by
  cases strike with
  | none => cases hc
  | some s =>
    rcases strike_behind hjob hs s rfl with hoff | ⟨k, e, -, rfl⟩
    · exact hoff
    · rw [Option.any_some, decide_eq_true_iff] at hc
      omega

/-- The first member of a group in a turn, without flags, and then the others. -/
theorem threads_turnAll_cons (strike : Option Nat) (place : Nat) (job : Job σ ε α)
    (rest : List (Job σ ε α)) (world : World σ) :
    threads (turnAll strike place (job :: rest) world).1 =
      (job.turn (strike.any (· ≤ place)) world).1.thread ::
        threads (turnAll strike (place + 1) rest (job.turn (strike.any (· ≤ place)) world).2).1 ∧
    (turnAll strike place (job :: rest) world).2 =
      (turnAll strike (place + 1) rest (job.turn (strike.any (· ≤ place)) world).2).2 := by
  rw [turnAll]
  refine ⟨?_, rfl⟩
  rw [threads]
  split
  · rw [thread_cancelLate]
  · rfl

/-- The first error that is known after the end of one member has been noticed, and then those of the rest. -/
theorem error_of_noticed (error : Option ε) (ending : Ending ε α) (rest : List (Job σ ε α)) :
    (error <|> (firstFailure? (ended ending :: rest)).map (·.2)) =
      ((error <|> ending.error?) <|> (firstFailure? rest).map (·.2)) := by
  cases error with
  | some e => rfl
  | none =>
    cases ending with
    | error e => rfl
    | _ =>
      rw [firstFailure?_cons (by simp), Option.map_map]
      rfl

theorem all_isNoticed_drop_turnAll {strike : Option Nat} {place : Nat} {jobs : List (Job σ ε α)}
    {world : World σ} {k : Nat} (h : (jobs.drop k).all isNoticed = true) :
    ((turnAll strike place jobs world).1.drop k).all isNoticed = true := by
  induction jobs generalizing place world k with
  | nil => exact h
  | cons job rest ih =>
    cases k with
    | zero =>
      rw [List.drop_zero] at h ⊢
      rwa [turnAll_of_noticed strike place h]
    | succ k =>
      rw [turnAll]
      exact ih h

/-- A group that looks up and sees all members noticed has no other members. -/
theorem all_isNoticed_of_sees {standing : Standing ε} {strike : Option Nat} {place : Nat}
    {members : List (Job σ ε α)} {world : World σ}
    (h : seesAllNoticed standing members (turnAll strike place members world).1 = true) :
    (turnAll strike place members world).1.all isNoticed = true := by
  unfold seesAllNoticed at h
  split at h
  · cases h
  · rename_i k _
    rw [Bool.and_eq_true] at h
    rw [← List.take_append_drop k (turnAll strike place members world).1, List.all_append, h.1,
      all_isNoticed_drop_turnAll h.2]
    rfl

/-- Where a group is called off in a turn, it has been called off already, or its first failure is noticed. -/
theorem off_of_strike? {off : Bool} {standing : Standing ε} (hs : standing.Flagged off)
    {members : List (Job σ ε α)} (s : Nat)
    (h : standing.strike? (firstFailure? members) = some s) :
    (off || standing.error.isSome) = true ∨ ∃ k e, firstFailure? members = some (k, e) ∧ s = 0 + k := by
  rcases Standing.off_of_strike? hs h with hoff | ⟨e, he⟩
  · exact .inl (by rw [hoff, Bool.true_or])
  · exact .inr ⟨s, e, he, (Nat.zero_add s).symm⟩

mutual

/-- **A turn of a job that has not ended is a row of moves of its thread.** -/
theorem moves_turn {off cancel : Bool} (hc : cancel = true → off = true) (job : Job σ ε α)
    (hj : job.Flagged off) (hended : ∀ ending, job ≠ ended ending) (world : World σ) :
    Moves off job.thread world (job.turn cancel world).1.thread (job.turn cancel world).2 := by
  match job with
  | pending plan cancelled =>
    rw [turn]
    split
    · rename_i hcancel
      rw [Bool.or_eq_true] at hcancel
      obtain rfl : off = true := hcancel.elim hj hc
      exact .single (.cancel plan world)
    · exact moves_begin off plan world
  | group build standing members =>
    have hround := flagged_next cancel id hc hj world
    have hmoves :=
      moves_turnAll build standing.error hj.1.off_of_isOff (off_of_strike? hj.1) [] hj.2.2 world
    rw [turn]
    split
    · exact moves_ending hj ‹_› world
    · dsimp only
      split
      · exact hmoves.trans (moves_ending hround (all_isNoticed_of_sees ‹_›) _)
      · exact hmoves
  | noticed ending => exact .refl _ _
  | ended ending => exact absurd rfl (hended ending)

/-- **A turn of the members of a group is a row of moves of the group.** The members in `before` have had
    their turn. If the group is called off at some place, it has been called off already, or this is the place
    where the first failure is noticed. -/
theorem moves_turnAll {off : Bool} (build : List α → α) (error : Option ε) {offMembers : Bool}
    {strike : Option Nat} (ho : offMembers = true → (off || error.isSome) = true) {place : Nat}
    {jobs : List (Job σ ε α)}
    (hs : ∀ s, strike = some s →
      (off || error.isSome) = true ∨ ∃ k e, firstFailure? jobs = some (k, e) ∧ s = place + k)
    (before : List (Thread σ ε α)) (hj : FlaggedAll offMembers jobs) (world : World σ) :
    Moves off (.group build error (before ++ threads jobs)) world
      (.group build (error <|> (firstFailure? jobs).map (·.2))
        (before ++ threads (turnAll strike place jobs world).1)) (turnAll strike place jobs world).2 := by
  match jobs with
  | [] =>
    rw [firstFailure?, Option.map_none, show (error <|> none) = error by cases error <;> rfl]
    exact .refl _ _
  | job :: rest =>
    obtain ⟨hthreads, hworld⟩ := threads_turnAll_cons strike place job rest world
    rw [hthreads, hworld, threads]
    by_cases hjob : ∃ ending, job = ended ending
    · -- its end is noticed, and the first error may be the one that it ended with
      obtain ⟨ending, rfl⟩ := hjob
      have hs' : ∀ s, strike = some s → (off || (error <|> ending.error?).isSome) = true ∨
          ∃ k e, firstFailure? rest = some (k, e) ∧ s = place + 1 + k := by
        by_cases herror : ∃ own, ending = .error own
        · obtain ⟨own, rfl⟩ := herror
          intro s _
          left
          cases error <;> simp [Ending.error?]
        · exact strike_behind (fun own hown => herror ⟨own, by cases hown; rfl⟩)
            fun s hstrike => (hs s hstrike).imp_left ending.off_of_off
      have hrest := moves_turnAll build (error <|> ending.error?) (fun h => ending.off_of_off (ho h)) hs'
        (before ++ [.noticed ending]) hj.2 world
      rw [error_of_noticed]
      rw [List.append_assoc, List.append_assoc] at hrest
      exact .head (.notice off build error before (threads rest) ending world) hrest
    · -- it has a turn of its own, as a member of the group
      have hfail : ∀ e, job ≠ ended (.error e) := fun e he => hjob ⟨_, he⟩
      have hturn := moves_turn (off_of_cancel hfail hs) job (hj.1.mono ho) (not_exists.mp hjob) world
      have hrest := moves_turnAll build error ho (strike_behind hfail hs)
        (before ++ [(job.turn (strike.any (· ≤ place)) world).1.thread]) hj.2
        (job.turn (strike.any (· ≤ place)) world).2
      rw [firstFailure?_cons hfail, Option.map_map]
      rw [List.append_assoc, List.append_assoc] at hrest
      exact (hturn.member before (threads rest)).trans hrest

end

/-! ## All rounds are a schedule -/

theorem ending_eq_result {standing : Standing ε} (hs : standing.Flagged false) (value : α) :
    standing.ending value = .ofResult (standing.result value) := by
  unfold Standing.ending Standing.result
  cases standing.error with
  | some e => rfl
  | none =>
    dsimp only
    split
    · exact absurd (hs.cancelled ‹_›) Bool.false_ne_true
    · rfl

/-- Round after round, a group that nobody cancels comes to its end. -/
theorem moves_runGroup (build : List α → α) (standing : Standing ε) (members : List (Job σ ε α))
    (world : World σ) (hj : (group build standing members).Flagged false) :
    Moves false (group build standing members).thread world
      (.ended (.ofResult (runGroup build standing members world).1))
      (runGroup build standing members world).2 := by
  fun_induction runGroup build standing members world with
  | case1 standing members world hall =>
    rw [← ending_eq_result hj.1]
    exact moves_ending hj hall world
  | case2 standing members world hall failure next ih =>
    have hmoves :=
      moves_turnAll build standing.error hj.1.off_of_isOff (off_of_strike? hj.1) [] hj.2.2 world
    exact hmoves.trans (ih (flagged_next false id id hj world))

/-- A script that runs alone goes from pause to pause. -/
theorem moves_run (script : Script σ ε α) (world : World σ) :
    Moves false (.waiting (.work script)) world (.ended (.ofResult (script.run world).1))
      (script.run world).2 := by
  induction script using Script.later_wf.induction generalizing world with
  | _ script ih =>
    refine .head (.go false script world) ?_
    rw [Script.run_eq_advance]
    cases hadvance : script.advance world with
    | mk progress after =>
      cases progress with
      | ended result => exact .refl _ _
      | paused rest => exact ih rest (Script.later_of_advance hadvance) after

end Job

/-- **The rounds of a plan are one of its schedules.** -/
theorem Plan.moves_together (plan : Plan σ ε α) (world : World σ) :
    Thread.Moves false (.waiting plan) world (.ended (.ofResult (plan.together world).1))
      (plan.together world).2 := by
  cases plan with
  | work script => exact Job.moves_run script world
  | split build parts =>
    refine .head (.divide false build parts world) ?_
    rw [← Job.threads_map_ofPlan]
    refine Job.moves_runGroup build {} (parts.map ofPlan) world ⟨⟨fun h => h, fun h => h⟩, ?_, ?_⟩
    · intro e he
      obtain ⟨part, -, hpart⟩ := List.mem_map.mp he
      cases hpart
    · rw [Job.flaggedAll_iff]
      intro job hjob
      obtain ⟨part, -, rfl⟩ := List.mem_map.mp hjob
      exact fun h => h

end Template
