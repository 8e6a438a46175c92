import AccelMonitor.Benchmark.Pool
import AccelMonitor.Proofs.Benchmark.Dialogue

/-!
# The Executions of Jobs

Who executes which job, how far it has come, and what it has said.

What the workers of a pool did is a list of events: a job was taken, a command was asked,
a result was sent. The list can be summed up as executions, one for each job that was ever
taken, in the order in which they were taken. Nothing in the list itself says that its
events fit together. `Matches` says so: the events of a launch are those of its own
execution and no others, so no job is executed twice and by one worker only, and an
execution that is not over is in the hands of the worker that took the job. It is kept
when a worker takes the next job, asks a command, or sends a result.

## Main definitions

* `WorkEvent`: What a worker has done.
* `Execution`, `executions`: The events, job by job.
* `Execution.Stands`: How far an execution is.
* `Matches`: The executions are those that the workers are busy with.

## Theorems

* `getElem?_recordEvent`: An event changes the execution that it is about.
* `Matches.current`: The execution that a busy worker is busy with.
* `Matches.concat`: What has to be shown when a worker has done something.
* `Matches.take`, `Matches.ask`, `Matches.send`, `Matches.leave`: What workers do.
-/

namespace AccelMonitor

/-- What a worker has done. -/
inductive WorkEvent where
  /-- It took the job of a launch, to repeat its waiting command so often at most. -/
  | taken (worker ticket : Nat) (job : Job) (patience : Nat)
  /-- It asked a command for the job of a launch, and was answered. -/
  | asked (worker ticket : Nat) (command : String) (answer : Answer)
  /-- It sent the result of a launch. -/
  | sent (worker ticket : Nat) (result : JobResult)

namespace WorkEvent

/-- The number of the launch. -/
def ticket : WorkEvent → Nat
  | taken _ t _ _ => t
  | asked _ t _ _ => t
  | sent _ t _ => t

/-- The command that was asked, with its answer. -/
def exchange? : WorkEvent → Option (String × Answer)
  | asked _ _ command answer => some (command, answer)
  | _ => none

/-- The command that was asked, with the launch whose job asked. -/
def asked? : WorkEvent → Option Asked
  | asked _ t command _ => some ⟨t, command⟩
  | _ => none

end WorkEvent

/-- The execution of a job, as far as it has come. It is put together from the history alone and
    not kept by the pool, so comparing the two says something about the pool. -/
structure Execution where
  job : Job
  /-- The worker that took the job. -/
  worker : Nat
  patience : Nat
  /-- The commands so far, with their answers. -/
  dialogue : List (String × Answer)
  /-- What was sent at the end, if it is over. -/
  result : Option JobResult

namespace Execution

/-- What is executed. -/
def script (e : Execution) : Script JobResult :=
  (e.job.scriptWith e.patience).script

/-- What the worker has done, as the execution of a launch. -/
def events (ticket : Nat) (e : Execution) : List WorkEvent :=
  .taken e.worker ticket e.job e.patience
    :: (e.dialogue.map fun x => .asked e.worker ticket x.1 x.2)
    ++ (e.result.map (WorkEvent.sent e.worker ticket)).toList

/-- How far an execution is: a worker has the rest of the job's script in its hands, or the
    script has come to its end. In both cases the dialogue so far leads through the script of
    the job, step by step. -/
inductive Stands (workers : List Worker) (ticket : Nat) (e : Execution) : Prop where
  | running (left : Script JobResult) (hresult : e.result = none)
      (hworker : workers[e.worker]? = some (.busy ticket left))
      (hleads : e.script.Leads e.dialogue left)
  | ended (result : JobResult) (hresult : e.result = some result)
      (hleads : e.script.Leads e.dialogue (.done result))

/-- An execution does not depend on other workers. -/
theorem Stands.set {workers : List Worker} {ticket : Nat} {e : Execution}
    (h : e.Stands workers ticket) {worker : Nat}
    (hother : ∀ left, workers[worker]? ≠ some (.busy ticket left)) (next : Worker) :
    e.Stands (workers.set worker next) ticket := by
  cases h with
  | running left hresult hworker hleads =>
    refine .running left hresult ?_ hleads
    rw [List.getElem?_set_ne]
    · exact hworker
    · rintro rfl
      exact hother left hworker
  | ended result hresult hleads => exact .ended result hresult hleads

end Execution

/-- The executions with one more event. -/
def recordEvent (executions : List Execution) : WorkEvent → List Execution
  | .taken worker _ job patience => executions ++ [⟨job, worker, patience, [], none⟩]
  | .asked _ t command answer =>
    executions.modify t fun e => { e with dialogue := e.dialogue ++ [(command, answer)] }
  | .sent _ t result => executions.modify t fun e => { e with result := some result }

/-- The executions that a history tells of. The jobs are taken in the order of their
    launches, so the number of a launch is its place. -/
def executions (history : List WorkEvent) : List Execution :=
  history.foldl recordEvent []

/-- What an event makes of the execution that it is about. -/
def WorkEvent.change : WorkEvent → Option Execution → Option Execution
  | .taken worker _ job patience, _ => some ⟨job, worker, patience, [], none⟩
  | .asked _ _ command answer, e =>
    e.map fun e => { e with dialogue := e.dialogue ++ [(command, answer)] }
  | .sent _ _ result, e => e.map fun e => { e with result := some result }

/-- An event changes the execution that it is about, and no other. An execution that begins is put
    at the end, which is the place that its ticket names. -/
theorem getElem?_recordEvent {executions : List Execution} {event : WorkEvent}
    (hplace : ∀ worker t job patience, event = .taken worker t job patience →
      t = executions.length) (t : Nat) :
    (recordEvent executions event)[t]?
      = if event.ticket = t then event.change executions[t]? else executions[t]? := by
  have hmodify : ∀ (ticket : Nat) (f : Execution → Execution), (executions.modify ticket f)[t]?
      = if ticket = t then executions[t]?.map f else executions[t]? := by
    intro ticket f
    rw [List.getElem?_modify]
    split
    · rfl
    · exact id_map _
  cases event with
  | taken worker ticket job patience =>
    have hticket := hplace worker ticket job patience rfl
    rw [recordEvent, List.getElem?_append, List.getElem?_singleton, WorkEvent.ticket]
    by_cases hnew : ticket = t
    · rw [if_pos hnew, if_neg (by omega), if_pos (by omega)]
      rfl
    · rw [if_neg hnew]
      split
      · rfl
      · rw [if_neg (by omega), List.getElem?_eq_none (by omega)]
  | asked worker ticket command answer => exact hmodify ticket _
  | sent worker ticket result => exact hmodify ticket _

/-- An event about an execution does not change which jobs are executed: asking and sending add to
    the dialogue and set the result. -/
theorem map_job_recordEvent {event : WorkEvent}
    (hold : ∀ worker t job patience, event ≠ .taken worker t job patience)
    (executions : List Execution) :
    (recordEvent executions event).map Execution.job = executions.map Execution.job := by
  have hmodify : ∀ (ticket : Nat) {f : Execution → Execution}, (∀ e, (f e).job = e.job) →
      (executions.modify ticket f).map Execution.job = executions.map Execution.job := by
    intro ticket f hf
    refine List.ext_getElem? fun t => ?_
    rw [List.getElem?_map, List.getElem?_map, List.getElem?_modify]
    cases executions[t]? with
    | none => rfl
    | some e =>
      refine congrArg some ?_
      dsimp only
      split
      · exact hf e
      · rfl
  cases event with
  | taken worker ticket job patience => exact absurd rfl (hold worker ticket job patience)
  | asked worker ticket command answer => exact hmodify ticket fun _ => rfl
  | sent worker ticket result => exact hmodify ticket fun _ => rfl

theorem executions_concat (history : List WorkEvent) (event : WorkEvent) :
    executions (history ++ [event]) = recordEvent (executions history) event :=
  List.foldl_append ..

/-- The executions that a history tells of are those that the workers are busy with. -/
structure Matches (history : List WorkEvent) (workers : List Worker) : Prop where
  /-- What was done for a launch is what its execution says. -/
  events : ∀ t, (history.filter fun event => event.ticket = t)
    = (executions history)[t]?.elim [] (Execution.events t)
  stands : ∀ (t : Nat) (e : Execution), (executions history)[t]? = some e → e.Stands workers t
  /-- A busy worker is busy with an execution that it has not ended. -/
  busy : ∀ (worker t : Nat) (left : Script JobResult), workers[worker]? = some (.busy t left) →
    ∃ e, (executions history)[t]? = some e ∧ e.worker = worker ∧ e.result = none

namespace Matches

variable {history : List WorkEvent} {workers : List Worker}

/-- The execution that a busy worker is busy with. It has no result yet, and its dialogue has led
    to what the worker has left to do. -/
theorem current (h : Matches history workers) {worker t : Nat} {left : Script JobResult}
    (hworker : workers[worker]? = some (.busy t left)) :
    ∃ e, (executions history)[t]? = some e ∧ e.worker = worker ∧ e.result = none ∧
      e.script.Leads e.dialogue left := by
  rcases h.busy worker t left hworker with ⟨e, he, howner, hresult⟩
  refine ⟨e, he, howner, hresult, ?_⟩
  cases h.stands t e he with
  | running left' _ hworker' hleads =>
    rw [howner, hworker] at hworker'
    cases hworker'
    exact hleads
  | ended result hresult' _ =>
    rw [hresult] at hresult'
    cases hresult'

/-- A worker has done something for a launch, in its turn and with the execution of that launch
    as the only one it is at. All three kinds of events come down to this lemma: it changes one
    execution, at the number of the launch, and one worker, and the hypotheses say what the
    change has to keep. The others are untouched since no two executions that are running share
    a worker. -/
theorem concat (h : Matches history workers) (event : WorkEvent) (worker : Nat) (next : Worker)
    (e' : Execution)
    (hplace : ∀ worker t job patience, event = .taken worker t job patience →
      t = (executions history).length)
    (hchange : event.change (executions history)[event.ticket]? = some e')
    (howner : ∀ e, (executions history)[event.ticket]? = some e → e.worker = worker)
    (hworker : ∀ (t : Nat) (left : Script JobResult),
      workers[worker]? = some (.busy t left) → t = event.ticket)
    (hevents : e'.events event.ticket
      = (executions history)[event.ticket]?.elim [] (Execution.events event.ticket) ++ [event])
    (hstands : e'.Stands (workers.set worker next) event.ticket)
    (hnext : ∀ t left, next = .busy t left →
      t = event.ticket ∧ e'.worker = worker ∧ e'.result = none) :
    Matches (history ++ [event]) (workers.set worker next) := by
  have hget := getElem?_recordEvent hplace
  rw [← executions_concat] at hget
  refine ⟨fun t => ?_, fun t e => ?_, fun w t left hbusy => ?_⟩
  -- What the events say of a launch grows by this event for its own, and for no other.
  · rw [hget, List.filter_append, h.events t]
    split
    · rename_i heq
      rw [← heq, hchange, Option.elim_some, hevents,
        List.filter_cons_of_pos (by exact decide_eq_true rfl), List.filter_nil]
    · rename_i hne
      rw [List.filter_cons_of_neg (by exact mt of_decide_eq_true hne), List.filter_nil,
        List.append_nil]
  -- The changed execution stands as told, and the others are not at this worker.
  · rw [hget]
    split
    · rename_i heq
      rw [← heq, hchange]
      intro he
      rw [← Option.some.inj he]
      exact hstands
    · rename_i hne
      intro he
      exact (h.stands t e he).set (fun left hleft => hne (hworker t left hleft).symm) next
  -- A busy worker is the one that has moved, or it was busy before.
  · rw [hget]
    rw [List.getElem?_set] at hbusy
    split at hbusy
    · rename_i heq
      split at hbusy
      · rcases hnext t left (Option.some.inj hbusy) with ⟨rfl, howner', hresult⟩
        exact ⟨e', by rw [if_pos rfl, hchange], howner'.trans heq, hresult⟩
      · cases hbusy
    · rename_i hne
      rcases h.busy w t left hbusy with ⟨e, he, hw, hresult⟩
      -- The other worker is busy with another execution.
      have hticket : event.ticket ≠ t := by
        rintro rfl
        exact hne ((howner e he).symm.trans hw)
      exact ⟨e, by rw [if_neg hticket, he], hw, hresult⟩

/-- A worker that is idle takes a job, which begins an execution at the end. -/
theorem take (h : Matches history workers) {worker : Nat} (hworker : workers[worker]? = some .idle)
    (job : Job) (patience : Nat) :
    Matches (history ++ [.taken worker (executions history).length job patience])
      (workers.set worker (.busy (executions history).length
        (job.scriptWith patience).script)) := by
  have hnone : (executions history)[(executions history).length]? = none :=
    List.getElem?_eq_none (Nat.le_refl _)
  have hlength : worker < workers.length := (List.getElem?_eq_some_iff.mp hworker).1
  -- The place of the new execution was not taken, and its worker had nothing to do.
  refine h.concat _ worker _ ⟨job, worker, patience, [], none⟩ ?_ rfl ?_ ?_ ?_ ?_ ?_
  · rintro w t j n heq
    cases heq
    rfl
  · rw [WorkEvent.ticket, hnone]
    rintro e ⟨⟩
  · rw [hworker]
    rintro t left ⟨⟩
  · rw [WorkEvent.ticket, hnone]
    rfl
  · exact .running _ rfl (List.getElem?_set_self hlength) (.rest _)
  · rintro t left heq
    cases heq
    exact ⟨rfl, rfl, rfl⟩

/-- A busy worker asks its next question: the dialogue of its execution grows by the command and
    its answer, and what the worker has left to do is what the script does with that answer. -/
theorem ask (h : Matches history workers) {worker ticket : Nat} {command : String}
    {next : Answer → Script JobResult}
    (hworker : workers[worker]? = some (.busy ticket (.ask command next))) (answer : Answer) :
    Matches (history ++ [.asked worker ticket command answer])
      (workers.set worker (.busy ticket (next answer))) := by
  rcases h.current hworker with ⟨e, he, rfl, hresult, hleads⟩
  have hlength : e.worker < workers.length := (List.getElem?_eq_some_iff.mp hworker).1
  -- The execution stays with this worker and stays unfinished.
  refine h.concat _ e.worker _ { e with dialogue := e.dialogue ++ [(command, answer)] }
    ?_ ?_ ?_ ?_ ?_ ?_ ?_
  · rintro w t j n heq
    cases heq
  · rw [WorkEvent.ticket, he]
    rfl
  · rw [WorkEvent.ticket, he]
    exact fun e' he' => Option.some.inj he' ▸ rfl
  · rw [hworker]
    rintro t left heq
    cases heq
    rfl
  · rw [WorkEvent.ticket, he, Option.elim_some]
    simp only [Execution.events, hresult, List.map_append, List.map_cons, List.map_nil,
      Option.map_none, Option.toList_none, List.append_nil, List.cons_append]
  · exact .running _ hresult (List.getElem?_set_self hlength) (hleads.concat answer)
  · rintro t left heq
    cases heq
    exact ⟨rfl, rfl, hresult⟩

/-- A worker whose script has come to its end sends the result and is idle again. -/
theorem send (h : Matches history workers) {worker ticket : Nat} {result : JobResult}
    (hworker : workers[worker]? = some (.busy ticket (.done result))) :
    Matches (history ++ [.sent worker ticket result]) (workers.set worker .idle) := by
  rcases h.current hworker with ⟨e, he, rfl, hresult, hleads⟩
  -- The execution has its result, and its worker is free for another one.
  refine h.concat _ e.worker _ { e with result := some result } ?_ ?_ ?_ ?_ ?_ ?_ ?_
  · rintro w t j n heq
    cases heq
  · rw [WorkEvent.ticket, he]
    rfl
  · rw [WorkEvent.ticket, he]
    exact fun e' he' => Option.some.inj he' ▸ rfl
  · rw [hworker]
    rintro t left heq
    cases heq
    rfl
  · rw [WorkEvent.ticket, he, Option.elim_some]
    simp only [Execution.events, hresult, Option.map_none, Option.toList_none, List.append_nil,
      Option.map_some, Option.toList_some]
  · exact .ended result rfl hleads
  · rintro t left ⟨⟩

/-- A worker without a job can leave. -/
theorem leave (h : Matches history workers) {worker : Nat}
    (hworker : workers[worker]? = some .idle) : Matches history (workers.set worker .gone) where
  events := h.events
  stands t e he := (h.stands t e he).set (by rw [hworker]; rintro left ⟨⟩) .gone
  busy w t left hbusy := by
    rw [List.getElem?_set] at hbusy
    split at hbusy
    · split at hbusy
      · cases hbusy
      · cases hbusy
    · exact h.busy w t left hbusy

end Matches

end AccelMonitor
