import AccelMonitor.Benchmark.Handle
import Mathlib.Data.List.Induction

/-!
# A Result Is Handed Out Once

What a handle answers, in any order of questions and words from the worker.

The life of a handle is a list of events. The worker sends a result or goes away, which is
the failure of a pool that is gone, and only its first word counts. The foreground asks
whether there is a result, or takes it. What the handle answers depends on two things: what
the worker's first word was, and whether anybody has taken since. Neither depends on how
often the foreground has asked.

What a handle knows is its stage. `Stage.Records` says which stages are possible by the
worker's first word and the results that were given away, and every event keeps it. The
answers are read off it.

## Main definitions

* `HandleEvent`, `Handle.step`, `Handle.run`: What can happen to a handle.
* `Handle.handed`: The results that a handle gives away.
* `HandleEvent.firstReply?`, `HandleEvent.Collected`: The worker's word, and whether somebody
  has taken it.
* `Stage.Records`: The stages that are possible.
* `Handle.Answers`: What a handle answers.

## Theorems

* `Records.step`, `records_run`: Every event, and every life, keeps the stage possible.
* `collected_iff`: A result is given away if somebody takes after the worker's word.
* `Records.hasResult`, `Records.take?`, `Records.wait`: What a possible stage answers.
* `answers_run`, `Answers.congr`: The worker's word and the taking settle the answers.
* `handed_out_once`: All of it, for every life of a handle.
-/

namespace AccelMonitor

/-- What can happen to a handle. -/
inductive HandleEvent where
  /-- The worker sends a result. -/
  | deliver (result : JobResult)
  /-- The worker goes away. -/
  | abandon
  /-- The foreground asks whether there is a result. -/
  | look
  /-- The foreground takes the result. -/
  | take

namespace HandleEvent

/-- What the worker has to say. -/
def reply? : HandleEvent → Option JobResult
  | deliver result => some result
  | abandon => some (.error .poolClosed)
  | look | take => none

/-- The worker's first word. -/
def firstReply? (events : List HandleEvent) : Option JobResult :=
  events.findSome? reply?

/-- The foreground only asks. -/
def isLook : HandleEvent → Bool
  | look => true
  | deliver _ | abandon | take => false

/-- Somebody has taken after the worker's first word. -/
def Collected (events : List HandleEvent) : Prop :=
  ∃ before after, events = before ++ take :: after ∧ (firstReply? before).isSome = true

theorem firstReply?_concat (events : List HandleEvent) (event : HandleEvent) :
    firstReply? (events ++ [event]) = (firstReply? events).or event.reply? := by
  rw [firstReply?, List.findSome?_append, List.findSome?_singleton, firstReply?]

theorem collected_concat {events : List HandleEvent} {event : HandleEvent} :
    Collected (events ++ [event]) ↔
      Collected events ∨ (event = take ∧ (firstReply? events).isSome = true) := by
  constructor
  · rintro ⟨before, after, hsplit, hreply⟩
    rcases List.eq_nil_or_concat after with rfl | ⟨after, last, rfl⟩
    · rcases List.append_inj' hsplit rfl with ⟨rfl, hlast⟩
      exact Or.inr ⟨List.head_eq_of_cons_eq hlast, hreply⟩
    · rw [List.concat_eq_append, ← List.cons_append, ← List.append_assoc] at hsplit
      exact Or.inl ⟨before, after, (List.append_inj' hsplit rfl).1, hreply⟩
  · rintro (⟨before, after, rfl, hreply⟩ | ⟨rfl, hreply⟩)
    · exact ⟨before, after ++ [event], by rw [List.append_assoc, List.cons_append], hreply⟩
    · exact ⟨events, [], rfl, hreply⟩

/-- Once somebody has taken, it stays so. -/
theorem Collected.append {events : List HandleEvent} (h : Collected events)
    (later : List HandleEvent) : Collected (events ++ later) := by
  rcases h with ⟨before, after, rfl, hreply⟩
  exact ⟨before, after ++ later, by rw [List.append_assoc, List.cons_append], hreply⟩

/-- Nobody can take what the worker has not sent. -/
theorem Collected.replied {events : List HandleEvent} (h : Collected events) :
    (firstReply? events).isSome = true := by
  rcases h with ⟨before, after, rfl, hreply⟩
  rw [firstReply?, List.findSome?_append, ← firstReply?, Option.isSome_or, hreply]
  rfl

/-- The events in which the foreground does not only ask. -/
def withoutLooks (events : List HandleEvent) : List HandleEvent :=
  events.filter fun event => !event.isLook

/-- Asking is no word of the worker. -/
theorem firstReply?_withoutLooks (events : List HandleEvent) :
    firstReply? (withoutLooks events) = firstReply? events := by
  induction events with
  | nil => rfl
  | cons event events ih =>
    rw [firstReply?, firstReply?, List.findSome?_cons] at *
    cases event with
    | look => exact ih
    | deliver result => rfl
    | abandon => rfl
    | take => exact ih

/-- Asking takes nothing. -/
theorem collected_withoutLooks (events : List HandleEvent) :
    Collected (withoutLooks events) ↔ Collected events := by
  induction events using List.reverseRecOn with
  | nil => rfl
  | append_singleton events event ih =>
    have happend : withoutLooks (events ++ [event])
        = withoutLooks events ++ withoutLooks [event] := List.filter_append ..
    rw [happend, collected_concat, ← ih]
    cases event with
    | look =>
      have hnone : withoutLooks [.look] = [] := rfl
      rw [hnone, List.append_nil]
      simp only [reduceCtorEq, false_and, or_false]
    | _ => rw [← firstReply?_withoutLooks events]; exact collected_concat

end HandleEvent

open HandleEvent

/-- The stages of a handle that are possible by the worker's first word and the results that
    were given away. -/
inductive Stage.Records : Option JobResult → List JobResult → Stage → Prop where
  | awaited : Records none [] (.unread .awaited)
  | delivered (result : JobResult) : Records (some result) [] (.unread (.delivered result))
  | abandoned : Records (some (.error .poolClosed)) [] (.unread .abandoned)
  | received (result : JobResult) : Records (some result) [] (.received result)
  | taken (result : JobResult) : Records (some result) [result] .taken

namespace Handle

/-- The handle after an event. -/
def step (h : Handle) : HandleEvent → Handle
  | .deliver result => h.deliver result
  | .abandon => h.abandon
  | .look => h.hasResult.2
  | .take => h.take?.2

/-- The handle after some events. -/
def run (h : Handle) (events : List HandleEvent) : Handle :=
  events.foldl step h

/-- What a handle gives away in an event. -/
def given (h : Handle) : HandleEvent → Option JobResult
  | .take => h.take?.1
  | .deliver _ | .abandon | .look => none

/-- The results that a handle gives away in some events. -/
def handed (h : Handle) : List HandleEvent → List JobResult
  | [] => []
  | event :: events => (h.given event).toList ++ (h.step event).handed events

theorem run_concat (h : Handle) (events : List HandleEvent) (event : HandleEvent) :
    h.run (events ++ [event]) = (h.run events).step event :=
  List.foldl_append

theorem handed_concat (h : Handle) (events : List HandleEvent) (event : HandleEvent) :
    h.handed (events ++ [event])
      = h.handed events ++ ((h.run events).given event).toList := by
  induction events generalizing h with
  | nil => exact List.append_nil _
  | cons first events ih =>
    rw [List.cons_append, handed, handed, ih, List.append_assoc]
    rfl

end Handle

namespace Stage.Records

open Handle

variable {reply : Option JobResult} {handed : List JobResult} {h : Handle}

/-- Every event keeps the stage possible. The five stages are told apart by the worker's first
    word and by what was given away, and each event either leads to a stage that these allow, or
    changes nothing. A second word of the worker, and a second take, are among the events that
    change nothing. -/
theorem step (hr : Records reply handed h.stage) (event : HandleEvent) :
    Records (reply.or event.reply?) (handed ++ (h.given event).toList) (h.step event).stage := by
  rcases h with ⟨framework, stage⟩
  dsimp only at hr
  cases hr with
  -- Nobody has spoken yet, so the worker's first word decides.
  | awaited =>
    cases event with
    | deliver result => exact .delivered result
    | abandon => exact .abandoned
    | look => exact .awaited
    | take => exact .awaited
  -- The word is there, and a look or the first take moves it on.
  | delivered result =>
    cases event with
    | look => exact .received result
    | take => exact .taken result
    | _ => exact .delivered result
  | abandoned =>
    cases event with
    | look => exact .received _
    | take => exact .taken _
    | _ => exact .abandoned
  | received result =>
    cases event with
    | take => exact .taken result
    | _ => exact .received result
  -- Nothing happens to a handle that was taken.
  | taken result =>
    cases event with
    | _ => exact .taken result

/-- A handle has a result if the worker has spoken and nothing was given away. -/
theorem hasResult (hr : Records reply handed h.stage) :
    h.hasResult.1 = true ↔ reply.isSome = true ∧ handed = [] := by
  rcases h with ⟨framework, stage⟩
  dsimp only at hr
  cases hr with
  | awaited => exact iff_of_false Bool.false_ne_true fun h => Bool.false_ne_true h.1
  | taken result => exact iff_of_false Bool.false_ne_true fun h => List.cons_ne_nil _ _ h.2
  | _ => exact iff_of_true rfl ⟨rfl, rfl⟩

/-- What is taken is the worker's word, if nothing was given away. -/
theorem take? (hr : Records reply handed h.stage) :
    h.take?.1 = if handed = [] then reply else none := by
  rcases h with ⟨framework, stage⟩
  dsimp only at hr
  cases hr with
  | _ => rfl

/-- Waiting gives the worker's word if nothing was given away, and otherwise what a worker
    that went away leaves. -/
theorem wait (hr : Records reply handed h.stage) :
    h.wait = if handed = [] then reply else some (.error .poolClosed) := by
  rcases h with ⟨framework, stage⟩
  dsimp only at hr
  cases hr with
  | _ => rfl

/-- At most one result was given away, the worker's. -/
theorem handed_cases (hr : Records reply handed h.stage) :
    handed = [] ∨ ∃ result, reply = some result ∧ handed = [result] := by
  rcases h with ⟨framework, stage⟩
  dsimp only at hr
  cases hr with
  | taken result => exact Or.inr ⟨result, rfl, rfl⟩
  | _ => exact Or.inl rfl

end Stage.Records

namespace Handle

/-- The stage of a handle after any events is possible. -/
theorem records_run (framework : Framework) (events : List HandleEvent) :
    Stage.Records (firstReply? events) ((fresh framework).handed events)
      ((fresh framework).run events).stage := by
  induction events using List.reverseRecOn with
  | nil => exact .awaited
  | append_singleton events event ih =>
    rw [firstReply?_concat, handed_concat, run_concat]
    exact ih.step event

/-- A result is given away if and only if somebody takes after the worker's word. By induction
    from the last event on: only a take can give anything away, and it does so if a word had been
    said and nothing was given before. -/
theorem collected_iff (framework : Framework) (events : List HandleEvent) :
    Collected events ↔ (fresh framework).handed events ≠ [] := by
  induction events using List.reverseRecOn with
  | nil =>
    refine iff_of_false ?_ fun h => h rfl
    rintro ⟨before, after, hnil, _⟩
    exact List.append_ne_nil_of_right_ne_nil before (List.cons_ne_nil _ _) hnil.symm
  | append_singleton events event ih =>
    have hr := records_run framework events
    rw [collected_concat, ih, handed_concat]
    cases event with
    | take =>
      rw [given, hr.take?]
      -- A second take finds the handle empty, so it does not change the answer.
      by_cases hnone : (fresh framework).handed events = []
      · simp only [hnone, ne_eq, not_true_eq_false, false_or, true_and, if_true, List.nil_append,
          Option.toList_eq_nil_iff, Option.isSome_iff_ne_none]
      · simp only [hnone, ne_eq, not_false_eq_true, true_or, if_false, Option.toList_none,
          List.append_nil]
    | _ => simp only [given, Option.toList_none, List.append_nil, reduceCtorEq, false_and, or_false]

/-- What a handle answers after some events, said in terms of two things only: the worker's
    first word, and whether somebody has taken since. How often somebody looked does not come
    in. -/
structure Answers (events : List HandleEvent) (h : Handle) : Prop where
  ready : h.hasResult.1 = true ↔ (firstReply? events).isSome = true ∧ ¬ Collected events
  takes : ∀ result, h.take?.1 = some result ↔
    firstReply? events = some result ∧ ¬ Collected events
  waits : ¬ Collected events → h.wait = firstReply? events
  /-- What was given away is as if the worker had left without a word. -/
  gone : Collected events → h.wait = some (.error .poolClosed)

/-- The answers of a handle are settled by what happened to it: what it says when it is asked,
    taken from or waited for depends on the worker's first word and on whether it was given away. -/
theorem answers_run (framework : Framework) (events : List HandleEvent) :
    Answers events ((fresh framework).run events) := by
  have hr := records_run framework events
  have hnone : (fresh framework).handed events = [] ↔ ¬ Collected events := by
    rw [collected_iff framework, not_not]
  -- Each answer is that of the stage, which is known from what was said and given away.
  refine ⟨?_, fun result => ?_, fun hopen => ?_, fun hcollected => ?_⟩
  · rw [hr.hasResult, hnone]
  · rw [hr.take?]
    split
    · rename_i hhanded
      exact ⟨fun hreply => ⟨hreply, hnone.mp hhanded⟩, And.left⟩
    · rename_i hhanded
      exact iff_of_false (Option.some_ne_none result).symm fun h => hhanded (hnone.mpr h.2)
  · rw [hr.wait, if_pos (hnone.mpr hopen)]
  · rw [hr.wait, if_neg fun hhanded => hnone.mp hhanded hcollected]

/-- Handles that had the same word from the worker and were taken from alike answer alike. -/
theorem Answers.congr {events events' : List HandleEvent} {h h' : Handle} (ha : Answers events h)
    (ha' : Answers events' h') (hreply : firstReply? events' = firstReply? events)
    (hcollected : Collected events' ↔ Collected events) :
    h'.hasResult.1 = h.hasResult.1 ∧ h'.take?.1 = h.take?.1 ∧ h'.wait = h.wait := by
  refine ⟨?_, ?_, ?_⟩
  · rw [Bool.eq_iff_iff, ha.ready, ha'.ready, hreply, hcollected]
  · refine Option.ext fun result => ?_
    rw [ha.takes, ha'.takes, hreply, hcollected]
  · by_cases hgone : Collected events
    · rw [ha.gone hgone, ha'.gone (hcollected.mpr hgone)]
    · rw [ha.waits hgone, ha'.waits fun h => hgone (hcollected.mp h), hreply]

/-- What a handle answers after any events:

    * there is a result if and only if the worker has spoken and nobody has taken since, and
      this result, the worker's first word, is what taking gives;
    * waiting gives the worker's word if nobody has taken it, and otherwise the failure of a
      pool that went away; while the worker has not spoken it lasts, and its word ends it;
    * at most one result was given away, the worker's, to the first that took after it;
    * afterwards there is nothing any more, whatever happens;
    * how often somebody asked makes no difference to any of this. -/
theorem handed_out_once (framework : Framework) (events : List HandleEvent) :
    Answers events ((fresh framework).run events) ∧
    (firstReply? events = none → ∀ event result, event.reply? = some result →
      ((fresh framework).run (events ++ [event])).wait = some result) ∧
    ((¬ Collected events ∧ (fresh framework).handed events = []) ∨
      (Collected events ∧ ∃ result, firstReply? events = some result ∧
        (fresh framework).handed events = [result])) ∧
    (Collected events → ∀ later,
      ((fresh framework).run (events ++ later)).hasResult.1 = false ∧
      ((fresh framework).run (events ++ later)).take?.1 = none) ∧
    (((fresh framework).run (withoutLooks events)).hasResult.1
        = ((fresh framework).run events).hasResult.1 ∧
      ((fresh framework).run (withoutLooks events)).take?.1
        = ((fresh framework).run events).take?.1 ∧
      ((fresh framework).run (withoutLooks events)).wait
        = ((fresh framework).run events).wait) := by
  have hanswers := answers_run framework
  refine ⟨hanswers events, ?_, ?_, ?_, ?_⟩
  -- The word that ends the waiting is the first one, and nobody can have taken it before.
  · intro hsilent event result hword
    have hopen : ¬ Collected (events ++ [event]) := by
      rw [collected_concat]
      rintro (hcollected | ⟨rfl, _⟩)
      · exact absurd hcollected.replied (by rw [hsilent]; decide)
      · cases hword
    rw [(hanswers _).waits hopen, firstReply?_concat, hsilent]
    exact hword
  -- Something was given away exactly if somebody took after the word.
  · have hcollected := collected_iff framework events
    rcases (records_run framework events).handed_cases with hnone | ⟨result, hreply, hone⟩
    · exact Or.inl ⟨fun h => hcollected.mp h hnone, hnone⟩
    · have hgiven := hone ▸ List.cons_ne_nil result []
      exact Or.inr ⟨hcollected.mpr hgiven, result, hreply, hone⟩
  · intro hcollected later
    have hgone := hcollected.append later
    refine ⟨?_, ?_⟩
    · rw [← Bool.not_eq_true, (hanswers _).ready]
      exact fun h => h.2 hgone
    · rw [Option.eq_none_iff_forall_ne_some]
      exact fun result hresult => ((hanswers _).takes result).mp hresult |>.2 hgone
  -- Looking moves a result from one place to another, and the answers do not tell where it is.
  · exact (hanswers events).congr (hanswers _) (firstReply?_withoutLooks events)
      (collected_withoutLooks events)

/-- The worker's word is given to the first that takes after it, and to nobody else. -/
example : (fresh .snpe).handed [.take, .look, .deliver (.error .poolClosed), .look, .look, .take,
    .abandon, .take] = [.error .poolClosed] := by
  rfl

end Handle

end AccelMonitor
