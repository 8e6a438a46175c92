import AccelMonitor.Proofs.Benchmark.Answers
import Mathlib.Order.Monotone.Basic

/-!
# Taking Turns

What happens if every worker gets its turns.

An infinite schedule is fair if every worker looks for a job again and again, and goes on
with its job again and again. What else is in it does not matter: jobs are launched, other
workers are at work, handles are asked or dropped, and jobs fail. A busy worker comes to
the end of its job, because a script ends whatever the answers are; so the worker gets back
to the line, and the line moves on. Hence every launched job is executed, and once the line
is closed, every worker leaves.

## Main definitions

* `Fair`: Every worker gets its turns.
* `roundRobin`: A fair schedule.
* `Pool.Unfolds`: The pools and chronicles along a schedule.

## Theorems

* `eventually_of_turn`: What stays until a certain turn ends with that turn.
* `Unfolds.ends`: A busy worker ends its execution.
* `Unfolds.next_taken`, `Unfolds.taken`: Every job is taken.
* `Unfolds.answered`: Every launch is answered.
* `Unfolds.deserted`: A closed pool is deserted in the end.
-/

namespace AccelMonitor

/-- Every worker gets its turns, to look for a job and to go on with one, again and again.
    Nothing is said about how long it has to wait for them or what comes in between. -/
structure Fair (schedule : Nat → PoolStep) (workers : Nat) : Prop where
  takes : ∀ worker, worker < workers → ∀ n, ∃ m, n ≤ m ∧
    ∃ patience, schedule m = .take worker patience
  works : ∀ worker, worker < workers → ∀ n, ∃ m, n ≤ m ∧ schedule m = .work worker

/-- The workers take turns, one after the other. -/
def roundRobin (workers n : Nat) : PoolStep :=
  if n % 2 = 0 then .take (n / 2 % workers) 0 else .work (n / 2 % workers)

theorem fair_roundRobin (workers : Nat) : Fair (roundRobin workers) workers where
  takes worker hworker n := by
    have hle : n ≤ workers * n := Nat.le_mul_of_pos_left n (by omega)
    refine ⟨2 * (workers * n + worker), by omega, 0, ?_⟩
    rw [roundRobin, if_pos (Nat.mul_mod_right ..), Nat.mul_div_cancel_left _ (by omega),
      Nat.mul_add_mod, Nat.mod_eq_of_lt hworker]
  works worker hworker n := by
    have hle : n ≤ workers * n := Nat.le_mul_of_pos_left n (by omega)
    refine ⟨2 * (workers * n + worker) + 1, by omega, ?_⟩
    rw [roundRobin, if_neg (by omega), show (2 * (workers * n + worker) + 1) / 2
      = workers * n + worker by omega, Nat.mul_add_mod, Nat.mod_eq_of_lt hworker]

/-- What stays until a certain turn ends with that turn, if the turn comes again and again. -/
theorem eventually_of_turn {P Q turn : Nat → Prop} (hturn : ∀ n, ∃ m, n ≤ m ∧ turn m)
    (hstay : ∀ n, P n → ¬ turn n → P (n + 1) ∨ Q (n + 1))
    (hact : ∀ n, P n → turn n → Q (n + 1)) {n : Nat} (h : P n) : ∃ m, n ≤ m ∧ Q m := by
  rcases hturn n with ⟨last, hle, hlast⟩
  rcases Nat.exists_eq_add_of_le hle with ⟨d, rfl⟩
  clear hle
  -- By induction on how far away the turn is.
  induction d generalizing n with
  | zero => exact ⟨n + 1, Nat.le_succ n, hact n h hlast⟩
  | succ d ih =>
    by_cases hnow : turn n
    · exact ⟨n + 1, Nat.le_succ n, hact n h hnow⟩
    · rcases hstay n h hnow with hnext | hdone
      · rw [show n + (d + 1) = n + 1 + d by omega] at hlast
        rcases ih hnext hlast with ⟨m, hm, hq⟩
        exact ⟨m, Nat.le_of_succ_le hm, hq⟩
      · exact ⟨n + 1, Nat.le_succ n, hdone⟩

/-- How many jobs have been taken. -/
def Chronicle.begun (c : Chronicle) : Nat :=
  (executions c.events).length

namespace Pool

variable {σ : Type} {sh : Shell σ}

/-- A worker is changed only in its own turn, and not any more once it has left. An idle worker
    waits for a turn to take, a busy one for a turn to work, and between these turns it stays as
    it is, whatever the others do. This is what lets a fair schedule be used worker by worker. -/
theorem worker_step {p : Pool σ} {worker : Nat} {w : Worker} (h : p.workers[worker]? = some w)
    (step : PoolStep) :
    (p.step sh step).workers[worker]? = some w ∨
      (w = .idle ∧ ∃ patience, step = .take worker patience) ∨
      ((∃ t left, w = .busy t left) ∧ step = .work worker) := by
  have hmove := move_step sh p step
  generalize observed sh p step = events, p.step sh step = next at hmove
  -- A move that changes one worker changes no other, so it is this worker's own or none of its.
  have hset : ∀ {other : Nat} {before next : Worker} {own : Prop},
      p.workers[other]? = some before → (other = worker → w = before → own) →
      (p.workers.set other next)[worker]? = some w ∨ own := by
    intro other before next own hbefore hown
    by_cases hsame : other = worker
    · rw [hsame, h] at hbefore
      exact Or.inr (hown hsame (Option.some.inj hbefore))
    · rw [List.getElem?_set_ne hsame]
      exact Or.inl h
  cases hmove with
  | take other patience ticket job rest hworker hline =>
    exact hset hworker fun heq hidle => Or.inl ⟨hidle, patience, heq ▸ rfl⟩
  | leave other patience hworker hline hclosed =>
    exact hset hworker fun heq hidle => Or.inl ⟨hidle, patience, heq ▸ rfl⟩
  | ask other ticket command next hworker =>
    exact hset hworker fun heq hbusy => Or.inr ⟨⟨_, _, hbusy⟩, heq ▸ rfl⟩
  | send other ticket result hworker =>
    exact hset hworker fun heq hbusy => Or.inr ⟨⟨_, _, hbusy⟩, heq ▸ rfl⟩
  | _ => exact Or.inl h

/-- The executions that have begun do not become fewer. -/
theorem begun_record (sh : Shell σ) (p : Pool σ) (step : PoolStep) (c : Chronicle) :
    c.begun ≤ (record sh p step c).begun := by
  have hmove := move_step sh p step
  rw [record]
  generalize observed sh p step = events, p.step sh step = next at hmove
  rw [Chronicle.begun, Chronicle.begun]
  cases hmove with
  | take =>
    rw [executions_concat, recordEvent, List.length_append]
    exact Nat.le_add_right ..
  | ask => rw [executions_concat, recordEvent, List.length_modify]
  | send => rw [executions_concat, recordEvent, List.length_modify]
  | _ => rw [List.append_nil]

/-- A line that is closed stays closed, and nothing is launched any more. -/
theorem closed_step (sh : Shell σ) {p : Pool σ} (h : p.closed = true) (step : PoolStep) :
    (p.step sh step).closed = true ∧ admitted p step = [] := by
  have hmove := move_step sh p step
  generalize observed sh p step = events, p.step sh step = next at hmove
  cases hmove with
  | launch job hopen =>
    rw [hopen] at h
    cases h
  | refuse job _ => exact ⟨h, if_pos h⟩
  | close => exact ⟨rfl, rfl⟩
  | _ => exact ⟨h, rfl⟩

/-- The pools and the chronicles along an infinite schedule. -/
structure Unfolds (sh : Shell σ) (schedule : Nat → PoolStep) (pool : Nat → Pool σ)
    (chronicle : Nat → Chronicle) : Prop where
  pool_succ : ∀ n, pool (n + 1) = (pool n).step sh (schedule n)
  chronicle_succ : ∀ n, chronicle (n + 1) = record sh (pool n) (schedule n) (chronicle n)
  working : ∀ n, Working (chronicle n) (pool n)

namespace Unfolds

variable {schedule : Nat → PoolStep} {pool : Nat → Pool σ} {chronicle : Nat → Chronicle}

theorem length_workers (h : Unfolds sh schedule pool chronicle) (n : Nat) :
    (pool n).workers.length = (pool 0).workers.length := by
  induction n with
  | zero => rfl
  | succ n ih => rw [h.pool_succ, length_workers_step, ih]

theorem begun_mono (h : Unfolds sh schedule pool chronicle) :
    Monotone fun n => (chronicle n).begun := by
  refine monotone_nat_of_le_succ fun n => ?_
  rw [h.chronicle_succ]
  exact begun_record ..

theorem jobs_mono (h : Unfolds sh schedule pool chronicle) :
    Monotone fun n => (chronicle n).jobs.length := by
  refine monotone_nat_of_le_succ fun n => ?_
  rw [h.chronicle_succ, record, List.length_append]
  exact Nat.le_add_right ..

/-- A busy worker comes to the end of its execution, and is without a job then. A script is
    finite whatever the shell answers, and each turn of the worker takes one step of it, so the
    induction is on the script; the time at which the worker gets its turns is not bounded. -/
theorem ends (h : Unfolds sh schedule pool chronicle)
    (hfair : Fair schedule (pool 0).workers.length) {n worker t : Nat} {left : Script JobResult}
    (hbusy : (pool n).workers[worker]? = some (.busy t left)) :
    ∃ m, n ≤ m ∧ (pool m).workers[worker]? = some .idle ∧ (chronicle m).answer? t ≠ none := by
  have hworker : worker < (pool 0).workers.length := by
    rw [← h.length_workers n]
    exact (List.getElem?_eq_some_iff.mp hbusy).1
  have hturns := hfair.works worker hworker
  -- Until its turn comes, the worker stays where it is in its script.
  have hstay : ∀ n t left, (pool n).workers[worker]? = some (.busy t left) →
      schedule n ≠ .work worker → (pool (n + 1)).workers[worker]? = some (.busy t left) := by
    intro n t left hbusy hturn
    rw [h.pool_succ]
    rcases worker_step hbusy (schedule n) with hsame | ⟨hidle, _⟩ | ⟨_, hwork⟩
    · exact hsame
    · cases hidle
    · exact absurd hwork hturn
  have hlength : ∀ n, worker < (pool n).workers.length := fun n => by
    rw [h.length_workers]
    exact hworker
  -- By induction on what is left of the script, over all states in which that can be left.
  induction left generalizing n with
  | done result =>
    refine eventually_of_turn hturns (fun n hn hturn => Or.inl (hstay n t _ hn hturn))
      (fun n hn hturn => ⟨?_, ?_⟩) hbusy
    · rw [h.pool_succ, hturn]
      simp only [Pool.step, hn, work, updateHandle]
      exact List.getElem?_set_self (hlength n)
    · rcases (h.working n).workers.current hn with ⟨e, he, _⟩
      rw [h.chronicle_succ, hturn, record]
      simp only [observed, hn]
      rw [Chronicle.answer?_sent, if_pos rfl, he]
      exact Option.some_ne_none result
  | ask command next ih =>
    have hgoes : ∃ m, n ≤ m ∧
        ∃ answer, (pool m).workers[worker]? = some (.busy t (next answer)) := by
      refine eventually_of_turn hturns (fun n hn hturn => Or.inl (hstay n t _ hn hturn))
        (fun n hn hturn => ⟨(sh.answer command (pool n).shell).1, ?_⟩) hbusy
      rw [h.pool_succ, hturn]
      simp only [Pool.step, hn, work]
      exact List.getElem?_set_self (hlength n)
    -- From the state behind the answer the rest of the script ends.
    rcases hgoes with ⟨m, hm, answer, hnext⟩
    rcases ih answer hnext with ⟨last, hlast, hends⟩
    exact ⟨last, Nat.le_trans hm hlast, hends⟩

/-- A worker without a job looks for one in the end. It stays idle until its turn comes, for
    nobody else gives it a job, and its turn comes because the schedule is fair. -/
theorem looks (h : Unfolds sh schedule pool chronicle)
    (hfair : Fair schedule (pool 0).workers.length) {n worker : Nat}
    (hidle : (pool n).workers[worker]? = some .idle) :
    ∃ m, n ≤ m ∧ (pool m).workers[worker]? = some .idle ∧
      ∃ patience, schedule m = .take worker patience := by
  have hworker : worker < (pool 0).workers.length := by
    rw [← h.length_workers n]
    exact (List.getElem?_eq_some_iff.mp hidle).1
  have hlooks : ∃ m, n ≤ m ∧ ∃ k, n ≤ k ∧ (pool k).workers[worker]? = some .idle ∧
      ∃ patience, schedule k = .take worker patience := by
    refine eventually_of_turn (hfair.takes worker hworker)
      (P := fun k => n ≤ k ∧ (pool k).workers[worker]? = some .idle) (fun k hk hturn => Or.inl ?_)
      (fun k hk hturn => ⟨k, hk.1, hk.2, hturn⟩) ⟨Nat.le_refl n, hidle⟩
    refine ⟨Nat.le_succ_of_le hk.1, ?_⟩
    rw [h.pool_succ]
    rcases worker_step hk.2 (schedule k) with hsame | ⟨_, htake⟩ | ⟨⟨_, _, hbusy⟩, _⟩
    · exact hsame
    · exact absurd htake hturn
    · cases hbusy
  rcases hlooks with ⟨_, _, hlooks⟩
  exact hlooks

/-- A worker is without a job again in the end, if it does not leave. -/
theorem free (h : Unfolds sh schedule pool chronicle)
    (hfair : Fair schedule (pool 0).workers.length) (n : Nat) {worker : Nat}
    (hworker : worker < (pool 0).workers.length) :
    ∃ m, n ≤ m ∧ ((pool m).workers[worker]? = some .idle ∨
      (pool m).workers[worker]? = some .gone) := by
  have hlength : worker < (pool n).workers.length := by
    rw [h.length_workers]
    exact hworker
  have hthere := List.getElem?_eq_getElem hlength
  cases hstate : (pool n).workers[worker] with
  | idle => exact ⟨n, Nat.le_refl n, Or.inl (hstate ▸ hthere)⟩
  | busy t left =>
    rw [hstate] at hthere
    rcases h.ends hfair hthere with ⟨m, hm, hidle, _⟩
    exact ⟨m, hm, Or.inl hidle⟩
  | gone => exact ⟨n, Nat.le_refl n, Or.inr (hstate ▸ hthere)⟩

/-- As long as something waits in the line, another job is taken. Some worker becomes free, and it
    finds the line as it is or finds that another worker has emptied it, which is a job taken as
    well. -/
theorem next_taken (h : Unfolds sh schedule pool chronicle)
    (hfair : Fair schedule (pool 0).workers.length) (hsome : 0 < (pool 0).workers.length) {n : Nat}
    (hline : (chronicle n).begun < (chronicle n).jobs.length) :
    ∃ m, n ≤ m ∧ (chronicle n).begun < (chronicle m).begun := by
  have hwaiting : ∀ k, n ≤ k → (pool k).line = [] → (chronicle n).begun < (chronicle k).begun := by
    intro k hk hempty
    have hcount : (chronicle k).begun + (pool k).line.length = (chronicle k).jobs.length :=
      (h.working k).count
    have hjobs : (chronicle n).jobs.length ≤ (chronicle k).jobs.length := h.jobs_mono hk
    rw [hempty, List.length_nil] at hcount
    omega
  rcases h.free hfair n hsome with ⟨k, hk, hidle | hgone⟩
  · rcases h.looks hfair hidle with ⟨m, hm, hidle', patience, hturn⟩
    have hle := Nat.le_trans hk hm
    cases hline' : (pool m).line with
    | nil => exact ⟨m, hle, hwaiting m hle hline'⟩
    | cons entry rest =>
      refine ⟨m + 1, Nat.le_succ_of_le hle, Nat.lt_of_le_of_lt (h.begun_mono hle) ?_⟩
      rw [h.chronicle_succ, hturn, record]
      simp only [observed, hidle', hline', Chronicle.begun, executions_concat, recordEvent,
        List.length_append, List.length_singleton]
      exact Nat.lt_succ_self _
  · -- The first worker has left, so the line was empty.
    exact ⟨k, hk, hwaiting k hk ((h.working k).gone (List.mem_of_getElem? hgone)).2⟩

/-- Every launched job is taken. -/
theorem taken (h : Unfolds sh schedule pool chronicle)
    (hfair : Fair schedule (pool 0).workers.length) (hsome : 0 < (pool 0).workers.length)
    {n t : Nat} (ht : t < (chronicle n).jobs.length) : ∃ m, n ≤ m ∧ t < (chronicle m).begun := by
  induction hahead : t + 1 - (chronicle n).begun using Nat.strong_induction_on generalizing n with
  | _ ahead ih =>
    by_cases hdone : t < (chronicle n).begun
    · exact ⟨n, Nat.le_refl n, hdone⟩
    · rcases h.next_taken hfair hsome (n := n) (by omega) with ⟨k, hk, hmore⟩
      rcases ih _ (by omega) (Nat.lt_of_lt_of_le ht (h.jobs_mono hk)) rfl with ⟨m, hm, htaken⟩
      exact ⟨m, Nat.le_trans hk hm, htaken⟩

/-- Every launch is answered. It is taken in the end, and the worker that took it has a turn again
    and again until the script of the job is done. -/
theorem answered (h : Unfolds sh schedule pool chronicle)
    (hfair : Fair schedule (pool 0).workers.length) (hsome : 0 < (pool 0).workers.length)
    {n t : Nat} (ht : t < (chronicle n).jobs.length) :
    ∃ m, n ≤ m ∧ (chronicle m).answer? t ≠ none := by
  rcases h.taken hfair hsome ht with ⟨k, hk, htaken⟩
  have he := List.getElem?_eq_getElem htaken
  -- The job was taken, so it is being worked on or has its result.
  cases (h.working k).workers.stands t _ he with
  | running left hresult hworker hleads =>
    rcases h.ends hfair hworker with ⟨m, hm, _, hanswer⟩
    exact ⟨m, Nat.le_trans hk hm, hanswer⟩
  | ended result hresult hleads =>
    refine ⟨k, hk, ?_⟩
    rw [Chronicle.answer?, he, Option.bind_some, hresult]
    exact Option.some_ne_none result

/-- What happens once the line is closed. -/
theorem closed_mono (h : Unfolds sh schedule pool chronicle) {n : Nat}
    (hclosed : (pool n).closed = true) {m : Nat} (hm : n ≤ m) :
    (pool m).closed = true ∧ (chronicle m).jobs = (chronicle n).jobs := by
  induction m, hm using Nat.le_induction with
  | base => exact ⟨hclosed, rfl⟩
  | succ m hm ih =>
    rcases closed_step sh ih.1 (schedule m) with ⟨hstill, hnone⟩
    rw [h.pool_succ, h.chronicle_succ, record, hnone, List.append_nil]
    exact ⟨hstill, ih.2⟩

/-- A closed line becomes empty, and stays so: what was launched before is taken one after the
    other, and nothing is launched any more. -/
theorem emptied (h : Unfolds sh schedule pool chronicle)
    (hfair : Fair schedule (pool 0).workers.length) (hsome : 0 < (pool 0).workers.length) {n : Nat}
    (hclosed : (pool n).closed = true) : ∃ m, n ≤ m ∧ ∀ k, m ≤ k → (pool k).line = [] := by
  -- All that was launched before closing has been taken at some time.
  have hall : ∃ m, n ≤ m ∧ (chronicle n).jobs.length ≤ (chronicle m).begun := by
    cases hjobs : (chronicle n).jobs.length with
    | zero => exact ⟨n, Nat.le_refl n, Nat.zero_le _⟩
    | succ last =>
      rcases h.taken hfair hsome (n := n) (t := last) (by omega) with ⟨m, hm, htaken⟩
      exact ⟨m, hm, htaken⟩
  rcases hall with ⟨m, hm, hall⟩
  refine ⟨m, hm, fun k hk => List.length_eq_zero_iff.mp ?_⟩
  have hcount : (chronicle k).begun + (pool k).line.length = (chronicle k).jobs.length :=
    (h.working k).count
  have hbegun : (chronicle m).begun ≤ (chronicle k).begun := h.begun_mono hk
  rw [(h.closed_mono hclosed (Nat.le_trans hm hk)).2] at hcount
  omega

theorem gone_mono (h : Unfolds sh schedule pool chronicle) {n worker : Nat}
    (hgone : (pool n).workers[worker]? = some .gone) {m : Nat} (hm : n ≤ m) :
    (pool m).workers[worker]? = some .gone := by
  induction m, hm using Nat.le_induction with
  | base => exact hgone
  | succ m hm ih =>
    rw [h.pool_succ]
    rcases worker_step ih (schedule m) with hsame | ⟨hidle, _⟩ | ⟨⟨_, _, hbusy⟩, _⟩
    · exact hsame
    · cases hidle
    · cases hbusy

/-- Every worker leaves once the line is closed and empty. It finishes what it is doing, looks for
    a job in the end, and finds that there will be none. -/
theorem leaves (h : Unfolds sh schedule pool chronicle)
    (hfair : Fair schedule (pool 0).workers.length) {n : Nat} (hclosed : (pool n).closed = true)
    (hempty : ∀ k, n ≤ k → (pool k).line = []) {worker : Nat}
    (hworker : worker < (pool 0).workers.length) :
    ∃ m, n ≤ m ∧ (pool m).workers[worker]? = some .gone := by
  rcases h.free hfair n hworker with ⟨k, hk, hidle | hgone⟩
  · rcases h.looks hfair hidle with ⟨m, hm, hidle', patience, hturn⟩
    have hle := Nat.le_trans hk hm
    refine ⟨m + 1, Nat.le_succ_of_le hle, ?_⟩
    rw [h.pool_succ, hturn]
    simp only [Pool.step, hidle', hempty m hle, (h.closed_mono hclosed hle).1, if_true]
    exact List.getElem?_set_self (List.getElem?_eq_some_iff.mp hidle').1
  · exact ⟨k, hk, hgone⟩

/-- Once the line is closed, the pool is deserted in the end. Nothing enters a closed line, so
    it runs empty, and then each worker leaves at its next turn. -/
theorem deserted (h : Unfolds sh schedule pool chronicle)
    (hfair : Fair schedule (pool 0).workers.length) (hsome : 0 < (pool 0).workers.length) {n : Nat}
    (hclosed : (pool n).closed = true) : ∃ m, n ≤ m ∧ (pool m).isDeserted = true := by
  -- From some point on the line is closed and empty, and it stays so.
  rcases h.emptied hfair hsome hclosed with ⟨start, hstart, hempty⟩
  have hstill := (h.closed_mono hclosed hstart).1
  -- One worker after the other leaves, and those that have left stay away.
  have hfirst : ∀ count, count ≤ (pool 0).workers.length → ∃ m, start ≤ m ∧
      ∀ worker, worker < count → (pool m).workers[worker]? = some .gone := by
    intro count
    induction count with
    | zero => exact fun _ => ⟨start, Nat.le_refl _, fun worker hworker => absurd hworker (by omega)⟩
    | succ count ih =>
      intro hle
      rcases ih (Nat.le_of_succ_le hle) with ⟨k, hk, hgone⟩
      rcases h.leaves hfair (h.closed_mono hstill hk).1
        (fun i hi => hempty i (Nat.le_trans hk hi)) hle with ⟨m, hm, hlast⟩
      refine ⟨m, Nat.le_trans hk hm, fun worker hworker => ?_⟩
      rcases Nat.lt_succ_iff_lt_or_eq.mp hworker with hold | rfl
      · exact h.gone_mono (hgone worker hold) hm
      · exact hlast
  rcases hfirst _ (Nat.le_refl _) with ⟨m, hm, hgone⟩
  refine ⟨m, Nat.le_trans hstart hm, List.all_eq_true.mpr fun w hw => ?_⟩
  rcases List.getElem_of_mem hw with ⟨worker, hworker, rfl⟩
  have hleft := hgone worker (by rwa [← h.length_workers m])
  rw [List.getElem?_eq_getElem hworker] at hleft
  rw [Option.some.inj hleft]

end Unfolds

end Pool

end AccelMonitor
