import AccelMonitor.Proofs.Breakdown.Tally
import AccelMonitor.Proofs.Handoff.Order
import AccelMonitor.Proofs.KernelLog.Delivery
import AccelMonitor.Session.State

/-!
# The Breakdown and the Schedule

The breakdown of a growing log does not tell when the log was looked at.

A line of the log passes through four hands. The reader puts it into a delta, the
poller offers the delta to a queue, the foreground takes it out, and the session
counts what the line names. When each of them acts is not fixed, and the background
and the foreground do not wait for each other. But the reader publishes every line
once, the queue is first in, first out, and counting is a matter of how often
something occurred. So the breakdown is that of all the lines in one piece.

A `Pipeline` is the whole of it as a transition system. What was looked at is kept as
history, so that what the log was assumed to do can be said of the finished run.

## Main definitions

* `Pipeline`, `PipelineStep`: The reader, the hand-off and the session, and what can
  happen.
* `Pipeline.Faithful`: The invariant of all runs.
* `Pipeline.Settled`: Everything that was published has been taken.
* `occurrences`: How many lines of a log name a command of an application.

## Theorems

* `breakdown_step`: Which events leave the breakdown alone.
* `Faithful.step`, `Faithful.run`: Every step keeps the invariant, and every run.
* `Faithful.tally`: What a settled pipeline has counted.
* `breakdown_schedule_free`: Every schedule leads to the same breakdown.
-/

namespace AccelMonitor

open KernelLog

/-- The event is none of those that change the breakdown. -/
def SessionEvent.keepsBreakdown : SessionEvent → Bool
  | .kernel _ => false
  | .track _ => false
  | .clear => false
  | _ => true

namespace Session

theorem breakdown_pollFrom (handles : List Handle) (s : Session) :
    (pollFrom handles s).2.breakdown = s.breakdown := by
  induction handles generalizing s with
  | nil => rfl
  | cons handle rest ih =>
    rw [pollFrom]
    split
    · exact ih _
    · rfl

theorem breakdown_updateHandle (s : Session) (number : Nat) (f : Handle → Handle) :
    (s.updateHandle number f).breakdown = s.breakdown := by
  rw [updateHandle]
  split
  · rfl
  · rfl

/-- Only kernel snapshots, new sessions and clearing change the breakdown. -/
theorem breakdown_step (s : Session) {event : SessionEvent} (h : event.keepsBreakdown = true) :
    (s.step event).breakdown = s.breakdown := by
  cases event with
  | kernel snapshot => cases h
  | track framework => cases h
  | clear => cases h
  | device snapshot =>
    rw [step, applyDevice]
    split
    · rfl
    · rfl
  | loads loads => rfl
  | deliver number result => exact breakdown_updateHandle ..
  | abandon number => exact breakdown_updateHandle ..
  | poll => exact breakdown_pollFrom ..

/-- A breakdown with the lines of a snapshot, if it is fresh. -/
def absorb (b : Breakdown) (snapshot : KernelSnapshot) : Breakdown :=
  if snapshot.fresh then breakdownOf b snapshot.delta else b

theorem breakdown_applyKernel (s : Session) (snapshot : KernelSnapshot) :
    (s.applyKernel snapshot).breakdown = absorb s.breakdown snapshot := by
  rw [applyKernel, absorb]
  split
  · rfl
  · rfl

/-- The entries that lines of the probes name, probe after probe. -/
def entriesOf (lines : KernelProbe → List String) : List (String × String) :=
  (lines .ioctl).filterMap (Breakdown.entryOf? Breakdown.requestPattern)
    ++ (lines .info).filterMap (Breakdown.entryOf? Breakdown.remarkPattern)

theorem breakdownOf_eq (b : Breakdown) (delta : Buckets) :
    breakdownOf b delta = (entriesOf fun p => delta.get p).foldl Breakdown.bump b := by
  rw [entriesOf, List.foldl_append]
  rfl

/-- A snapshot that is not fresh may be absorbed as well, if it has no lines. -/
theorem absorb_eq {snapshot : KernelSnapshot}
    (h : snapshot.fresh = false → ∀ p, snapshot.delta.get p = []) (b : Breakdown) :
    absorb b snapshot = (entriesOf fun p => snapshot.delta.get p).foldl Breakdown.bump b := by
  rw [absorb]
  cases hfresh : snapshot.fresh with
  | true => exact breakdownOf_eq b snapshot.delta
  | false =>
    simp only [h hfresh, entriesOf, List.filterMap_nil, List.append_nil, List.foldl_nil,
      Bool.false_eq_true, if_false]

theorem foldl_absorb {snapshots : List KernelSnapshot}
    (h : ∀ s ∈ snapshots, s.fresh = false → ∀ p, s.delta.get p = []) (b : Breakdown) :
    snapshots.foldl absorb b
      = ((snapshots.map fun s p => s.delta.get p).flatMap entriesOf).foldl Breakdown.bump b := by
  induction snapshots generalizing b with
  | nil => rfl
  | cons s snapshots ih =>
    rw [List.foldl_cons, ih fun t ht => h t (List.mem_cons_of_mem s ht), List.map_cons,
      List.flatMap_cons, List.foldl_append, absorb_eq (h s (List.mem_cons_self ..))]

end Session

/-- How many lines of a log name a command of an application: requests and remarks. -/
def occurrences (probes : List KernelProbe) (log : List String) (app command : String) : Nat :=
  (linesOf probes .ioctl log).countP
      (fun line => Breakdown.entryOf? Breakdown.requestPattern line == some (app, command))
    + (linesOf probes .info log).countP
      (fun line => Breakdown.entryOf? Breakdown.remarkPattern line == some (app, command))

theorem count_entriesOf (probes : List KernelProbe) (log : List String) (app command : String) :
    (Session.entriesOf fun p => linesOf probes p log).count (app, command)
      = occurrences probes log app command := by
  rw [Session.entriesOf, List.count_append, List.count_filterMap, List.count_filterMap, occurrences]

/-- Counting batch by batch is counting all at once. -/
theorem count_batches (probes : List KernelProbe) (batches : List (List String))
    (app command : String) :
    ((batches.map fun batch p => linesOf probes p batch).flatMap Session.entriesOf).count
        (app, command)
      = occurrences probes batches.flatten app command := by
  induction batches with
  | nil => rfl
  | cons batch batches ih =>
    rw [List.map_cons, List.flatMap_cons, List.count_append, ih, count_entriesOf, List.flatten_cons]
    simp only [occurrences, linesOf_append, List.countP_append]
    omega

/-- A reader, the hand-off of what it publishes, and the session that it comes to: the way of a
    line of the kernel log from the device to the breakdown. The looks are kept as a history, to
    compare the end of this way with its beginning. -/
structure Pipeline where
  reader : KernelReader
  /-- The log that was fetched last. -/
  log : List String
  /-- All looks so far, oldest first. -/
  looks : List Look
  handoff : Handoff KernelSnapshot
  session : Session

/-- What can happen. -/
inductive PipelineStep where
  /-- The poller looks whether to stop. -/
  | check
  /-- The poller looks at the log. -/
  | look (l : Look)
  /-- The poller attempts to put its snapshot into the queue. -/
  | attempt
  /-- The foreground takes the oldest snapshot and folds it in. -/
  | take
  /-- The flag that stops the poller is raised. -/
  | raiseExit
  /-- The session is told something else. -/
  | tell (event : SessionEvent)

/-- The step does not tell the session anything that changes the breakdown. -/
def PipelineStep.keepsBreakdown : PipelineStep → Bool
  | .tell event => event.keepsBreakdown
  | _ => true

namespace Pipeline

/-- A pipeline whose reader has read a log. -/
def start (reader : KernelReader) (log : List String) (session : Session) (capacity : Nat) :
    Pipeline :=
  { reader, log, looks := [], handoff := .start capacity, session }

/-- The poller looks at the log, when it is its turn to. -/
def look (p : Pipeline) (l : Look) : Pipeline :=
  match p.handoff.phase with
  | .polling =>
    { p with
      reader := p.reader.poll (l.poll p.log), log := l.log p.log, looks := p.looks ++ [l]
      handoff := p.handoff.poll (p.reader.publication (l.poll p.log)).head? }
  | _ => p

/-- The foreground takes the oldest snapshot, if there is one. -/
def take (p : Pipeline) : Pipeline :=
  match p.handoff.queue.pop.1 with
  | some snapshot =>
    { p with handoff := p.handoff.pop, session := p.session.step (.kernel snapshot) }
  | none => p

def step (p : Pipeline) : PipelineStep → Pipeline
  | .check => { p with handoff := p.handoff.check }
  | .look l => p.look l
  | .attempt => { p with handoff := p.handoff.attempt }
  | .take => p.take
  | .raiseExit => { p with handoff := p.handoff.raiseExit }
  | .tell event => { p with session := p.session.step event }

def run (p : Pipeline) (steps : List PipelineStep) : Pipeline :=
  steps.foldl step p

/-- What holds of a pipeline after every run, as long as the log grows as it should. The reader
    is caught up with the log, the hand-off loses nothing of what the reader published, and the
    breakdown is made of what was taken from the hand-off. Together they lead from appended
    lines to counts. -/
structure Faithful (probes : List KernelProbe) (log : List String) (p : Pipeline) : Prop where
  probes_eq : p.reader.probes = probes
  log_eq : p.log = Look.lastLog log p.looks
  caughtUp : p.reader.CaughtUp (log ++ p.looks.flatMap Look.appended) p.log
  polled : p.handoff.polled.map (fun s q => s.delta.get q)
    = (Look.batches p.looks).map fun batch q => linesOf probes q batch
  stale : ∀ s ∈ p.handoff.polled, s.fresh = false → ∀ q, s.delta.get q = []
  orderly : p.handoff.Orderly
  breakdown : p.session.breakdown = p.handoff.taken.foldl Session.absorb ∅

theorem faithful_start {r : KernelReader} {log : List String} (hr : r.CaughtUp log log)
    {session : Session} (hsession : session.breakdown = ∅) (capacity : Nat) :
    (start r log session capacity).Faithful r.probes log where
  probes_eq := rfl
  log_eq := rfl
  caughtUp := by
    rw [start, List.flatMap_nil, List.append_nil]
    exact hr
  polled := rfl
  stale := List.forall_mem_nil _
  orderly := Handoff.orderly_start capacity
  breakdown := hsession

theorem looks_look (p : Pipeline) (l : Look) :
    (p.look l).looks = p.looks ∨ (p.look l).looks = p.looks ++ [l] := by
  rw [look]
  split
  · exact Or.inr rfl
  · exact Or.inl rfl

theorem looks_take (p : Pipeline) : p.take.looks = p.looks := by
  rw [take]
  split
  · rfl
  · rfl

/-- What was looked at stays in the history. -/
theorem looks_step (p : Pipeline) (s : PipelineStep) :
    ∃ more, (p.step s).looks = p.looks ++ more := by
  cases s with
  | look l =>
    rcases looks_look p l with h | h
    · exact ⟨[], h.trans (List.append_nil _).symm⟩
    · exact ⟨[l], h⟩
  | take => exact ⟨[], (looks_take p).trans (List.append_nil _).symm⟩
  | check => exact ⟨[], (List.append_nil _).symm⟩
  | attempt => exact ⟨[], (List.append_nil _).symm⟩
  | raiseExit => exact ⟨[], (List.append_nil _).symm⟩
  | tell event => exact ⟨[], (List.append_nil _).symm⟩

theorem looks_run (p : Pipeline) (steps : List PipelineStep) :
    ∃ more, (p.run steps).looks = p.looks ++ more := by
  induction steps generalizing p with
  | nil => exact ⟨[], (List.append_nil _).symm⟩
  | cons s steps ih =>
    rcases looks_step p s with ⟨first, hfirst⟩
    rcases ih (p.step s) with ⟨rest, hrest⟩
    refine ⟨first ++ rest, ?_⟩
    rw [← List.append_assoc, ← hfirst]
    exact hrest

namespace Faithful

variable {probes : List KernelProbe} {log : List String} {p : Pipeline}

/-- A look at a log that goes on growing. It is the one step at which the reader, the queue and
    the history of the looks all move: the reader catches up with the log that was looked at,
    and what it publishes becomes the next entry of what was polled. That a stale snapshot
    carries no lines is kept as well, since the session leaves such a snapshot out. -/
theorem look (h : p.Faithful probes log) {l : Look}
    (hgrowing : Growing probes log log (p.look l).looks) : (p.look l).Faithful probes log := by
  rcases h with ⟨hprobes, hlog, hcaught, hpolled, hstale, horderly, hbreakdown⟩
  by_cases hphase : p.handoff.phase = .polling
  · simp only [Pipeline.look, hphase] at hgrowing ⊢
    rcases growing_append.mp hgrowing with ⟨_, hchronological, hnewer, _⟩
    -- The history ends with this look, so growing says of it what the reader needs.
    rw [← hlog, ← hprobes] at hchronological
    rw [← hprobes] at hnewer
    rcases hcaught.look hchronological hnewer with ⟨hnext, hsame, hpublished⟩
    -- At most one snapshot is published, and it is what the poll comes to.
    have honce : (p.reader.publication (l.poll p.log)).head?.toList
          = p.reader.publication (l.poll p.log) ∧
        ∀ s ∈ p.reader.publication (l.poll p.log), s.fresh = false → ∀ q, s.delta.get q = [] := by
      rcases KernelReader.poll_cases p.reader (l.poll p.log) with
        ⟨_, hnone⟩ | ⟨fetched, _, _, hupdated, hone⟩
      · rw [hnone]
        exact ⟨rfl, List.forall_mem_nil _⟩
      · rw [hone]
        refine ⟨rfl, fun s hs hfresh q => ?_⟩
        rw [List.mem_singleton.mp hs] at hfresh ⊢
        refine Buckets.get_eq_nil ?_ q
        have hlines := hupdated.fresh_iff
        rw [show (p.reader.poll (l.poll p.log)).fresh = false from hfresh] at hlines
        simp only [Bool.false_eq_true, ne_eq, false_iff, Decidable.not_not] at hlines
        exact hlines
    have hhistory := Handoff.history_poll hphase (p.reader.publication (l.poll p.log)).head?
    rw [honce.1] at hhistory
    refine ⟨hsame.trans hprobes, ?_, ?_, ?_, ?_, horderly.poll _, ?_⟩
    · simp only [Look.lastLog, List.foldl_append, List.foldl_cons, List.foldl_nil]
      rw [hlog, Look.lastLog]
    · simp only [List.flatMap_append, List.flatMap_cons, List.flatMap_nil, List.append_nil,
        ← List.append_assoc]
      exact hnext
    · simp only [hhistory.1, List.map_append, hpolled, hpublished, Look.batches_append, hprobes]
    · simp only [hhistory.1]
      intro s hs
      rcases List.mem_append.mp hs with hs | hs
      · exact hstale s hs
      · exact honce.2 s hs
    · simp only [hhistory.2]
      exact hbreakdown
  · -- In any other phase the poller does not look.
    have hidle : p.look l = p := by
      rw [Pipeline.look]
      split
      · rename_i hpolling
        exact absurd hpolling hphase
      · rfl
    rw [hidle]
    exact ⟨hprobes, hlog, hcaught, hpolled, hstale, horderly, hbreakdown⟩

/-- What is taken is absorbed. -/
theorem take (h : p.Faithful probes log) : p.take.Faithful probes log := by
  rw [Pipeline.take]
  split
  · rename_i snapshot hpop
    refine ⟨h.probes_eq, h.log_eq, h.caughtUp, h.polled, h.stale, h.orderly.pop, ?_⟩
    have htaken : p.handoff.pop.taken = p.handoff.taken ++ [snapshot] := by
      rw [Handoff.pop, hpop]
      rfl
    simp only [htaken, List.foldl_append, List.foldl_cons, List.foldl_nil, ← h.breakdown]
    exact Session.breakdown_applyKernel p.session snapshot
  · exact h

/-- Each step of the pipeline keeps the breakdown faithful to what was looked at. Only a look
    changes the reader, and only taking a delta changes the breakdown. -/
theorem step (h : p.Faithful probes log) {s : PipelineStep}
    (hkeeps : s.keepsBreakdown = true)
    (hgrowing : Growing probes log log (p.step s).looks) : (p.step s).Faithful probes log := by
  rcases h with ⟨hprobes, hlog, hcaught, hpolled, hstale, horderly, hbreakdown⟩
  cases s with
  | look l => exact look ⟨hprobes, hlog, hcaught, hpolled, hstale, horderly, hbreakdown⟩ hgrowing
  | take => exact take ⟨hprobes, hlog, hcaught, hpolled, hstale, horderly, hbreakdown⟩
  -- The others leave the reader alone, and the histories or the session.
  | check =>
    have hhistory := Handoff.history_check p.handoff
    refine ⟨hprobes, hlog, hcaught, ?_, ?_, horderly.check, ?_⟩
    · exact hhistory.1 ▸ hpolled
    · exact hhistory.1 ▸ hstale
    · exact hhistory.2 ▸ hbreakdown
  | attempt =>
    have hhistory := Handoff.history_attempt p.handoff
    refine ⟨hprobes, hlog, hcaught, ?_, ?_, horderly.attempt, ?_⟩
    · exact hhistory.1 ▸ hpolled
    · exact hhistory.1 ▸ hstale
    · exact hhistory.2 ▸ hbreakdown
  | raiseExit => exact ⟨hprobes, hlog, hcaught, hpolled, hstale, horderly.raiseExit, hbreakdown⟩
  | tell event =>
    have hsame := Session.breakdown_step p.session hkeeps
    exact ⟨hprobes, hlog, hcaught, hpolled, hstale, horderly, hsame.trans hbreakdown⟩

/-- Every run through a log that grows as it should keeps the invariant. -/
theorem run (h : p.Faithful probes log) {steps : List PipelineStep}
    (hkeeps : ∀ s ∈ steps, s.keepsBreakdown = true)
    (hgrowing : Growing probes log log (p.run steps).looks) :
    (p.run steps).Faithful probes log := by
  induction steps generalizing p with
  | nil => exact h
  | cons s steps ih =>
    -- What holds of all looks holds of those so far.
    have hsofar : Growing probes log log (p.step s).looks := by
      rcases looks_run (p.step s) steps with ⟨more, hmore⟩
      have hall : Growing probes log log ((p.step s).run steps).looks := hgrowing
      rw [hmore] at hall
      exact (growing_append.mp hall).1
    refine ih (h.step (hkeeps s (List.mem_cons_self ..)) hsofar) ?_ hgrowing
    exact fun t ht => hkeeps t (List.mem_cons_of_mem s ht)

end Faithful

/-- The log grew as it should and every snapshot has been taken. Only after the flag was
    raised could one have been given up. -/
structure Settled (probes : List KernelProbe) (log : List String) (p : Pipeline) : Prop where
  growing : Growing probes log log p.looks
  accepted : p.handoff.exit = true → ∀ o ∈ p.handoff.offers, o.accepted = true
  arrived : p.handoff.inFlight = []
  drained : p.handoff.queue.items = []

/-- A settled pipeline has counted every line that was appended and fetched, once. -/
theorem Faithful.tally {probes : List KernelProbe} {log : List String} {p : Pipeline}
    (h : p.Faithful probes log) (hs : p.Settled probes log) :
    p.session.breakdown.Tally (occurrences probes (p.looks.flatMap Look.appended)) := by
  have htaken := h.orderly.polled_eq_taken hs.accepted hs.arrived hs.drained
  -- Everything polled was taken, and what is not fresh has no lines to miss.
  have hbreakdown := h.breakdown
  rw [← htaken, Session.foldl_absorb h.stale, h.polled] at hbreakdown
  have htally := Breakdown.Tally.empty.foldl_bump
    (((Look.batches p.looks).map fun batch q => linesOf probes q batch).flatMap Session.entriesOf)
  simp only [Nat.zero_add, count_batches, Look.flatten_batches] at htally
  rw [hbreakdown]
  exact htally

/-- The pipeline comes from a reader, a log and a session without a breakdown, by steps
    that do not clear it. -/
def Reached (r : KernelReader) (log : List String) (p : Pipeline) : Prop :=
  ∃ session capacity steps, session.breakdown = ∅ ∧
    (∀ s ∈ steps, PipelineStep.keepsBreakdown s = true) ∧
    p = (start r log session capacity).run steps

/-- The breakdown of a log that grows as it should does not depend on the schedule. A
    reader starts on the log, and whenever everything that it published has been taken,
    the breakdown holds for each application and command the number of lines, among all
    that were appended and fetched, that name them, and it lists nothing else. Any other
    schedule that fetched the same lines has led to the same breakdown. -/
theorem breakdown_schedule_free {probes : List KernelProbe} (hprobes : probes.Nodup)
    (utilization : KernelProbe) {log : List String} (hlog : Chronological probes log) :
    ∃ r, KernelReader.start probes utilization (.ok log) = .ok r ∧
      ∀ p, Reached r log p → p.Settled probes log →
        p.session.breakdown.Tally (occurrences probes (p.looks.flatMap Look.appended)) ∧
        ∀ q, Reached r log q → q.Settled probes log →
          q.looks.flatMap Look.appended = p.looks.flatMap Look.appended →
          q.session.breakdown = p.session.breakdown := by
  rcases KernelReader.caughtUp_start hprobes utilization hlog with ⟨r, hstart, rfl, hr⟩
  have htally : ∀ p, Reached r log p → p.Settled r.probes log →
      p.session.breakdown.Tally (occurrences r.probes (p.looks.flatMap Look.appended)) := by
    rintro p ⟨session, capacity, steps, hsession, hkeeps, rfl⟩ hsettled
    exact ((faithful_start hr hsession capacity).run hkeeps hsettled.growing).tally hsettled
  refine ⟨r, hstart, fun p hp hsettled => ⟨htally p hp hsettled, ?_⟩⟩
  intro q hq hqsettled hsame
  -- Both breakdowns hold the same numbers.
  have hqtally := htally q hq hqsettled
  rw [hsame] at hqtally
  exact hqtally.eq (htally p hp hsettled)

/-- The case of a queue with one place, in front of which the poller has to wait, of a
    snapshot that is not fresh and of a look that fails. -/
theorem breakdown_schedule_free_waiting :
    ∃ r p, KernelReader.start KernelProbe.all .ioctl (.ok ["[1.0] INFO: (app: a) up"]) = .ok r ∧
      p = (start r ["[1.0] INFO: (app: a) up"] (Session.start .tflite 1) 1).run
        [.check, .look (.fetched .plain 0 ["[2.0] IOCTL kgsl: (app: a) (cmd: Q [15])"]), .attempt,
          .check, .look (.fetched (.counted true .zero) 1 []), .attempt, .take, .check, .attempt,
          .tell .poll, .check, .look (.missed .plain ⟨"dmesg", "gone"⟩), .take, .check,
          .look (.fetched .plain 1 ["[3.0] IOCTL kgsl: (app: a) (cmd: Q [15])",
            "[3.0] INFO: (app: a) Q"]), .attempt, .take] ∧
      p.session.breakdown.countOf "a" "Q" = 3 := by
  have hdistinct : KernelProbe.all.Nodup := by
    decide
  have hlog : Chronological KernelProbe.all ["[1.0] INFO: (app: a) up"] := by
    decide +kernel
  rcases breakdown_schedule_free hdistinct .ioctl hlog with ⟨r, hstart, h⟩
  -- The reader is the one that was computed, so its run can be computed too.
  have hr : r = (KernelReader.start KernelProbe.all .ioctl
      (.ok ["[1.0] INFO: (app: a) up"])).toOption.get (by decide +kernel) := by
    simp only [hstart, Except.toOption, Option.get_some]
  refine ⟨r, _, hstart, rfl, ?_⟩
  -- Its lines are tallied by the theorem, whose hypotheses are checked step by step.
  refine ((h _ ⟨_, _, _, ?_, ?_, rfl⟩ ⟨?_, ?_, ?_, ?_⟩).1.countOf "a" "Q").trans ?_
  · rfl
  · decide
  · rw [hr]
    decide +kernel
  · rw [hr]
    decide +kernel
  · rw [hr]
    exact List.isEmpty_iff.mp (by decide +kernel)
  · rw [hr]
    exact List.isEmpty_iff.mp (by decide +kernel)
  · rw [hr]
    decide +kernel

end Pipeline

end AccelMonitor
