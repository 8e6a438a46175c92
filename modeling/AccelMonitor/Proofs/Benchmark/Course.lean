import AccelMonitor.Proofs.Benchmark.Dialogue
import AccelMonitor.Proofs.Text.Pieces

/-!
# The Course of a Job

Which commands a job asks, in which order, and what becomes of their output.

A job has three phases: its run, the waiting, and its report. A phase is over when all its
commands were asked, and it breaks off with the first command that cannot be started, which
ends the whole job with the failure of that command. The waiting is over when the output of
its command shows the sign, or when the time is up; until then no output showed it. How
often the command can be repeated is left open, so the time can be up at any moment.

All of this holds of a job's dialogue with anything that answers, where the answer to a
command may depend on all that happened before. Where a dialogue goes on after a first part,
`of_leads_bind` says so, and the phases follow one after the other from it.

## Main definitions

* `Job.Asked`: The dialogue of a phase that asks commands in order.
* `Job.Waited`: The dialogue of the waiting.
* `Job.Course`: The dialogues of the three phases and the result.
* `Job.commandsWith`: All commands of a job that repeats its waiting command so often.

## Theorems

* `Leads.of_bind`, `Attempt.of_leads_bind`: The parts of a dialogue.
* `asked_of_leads`, `awaited_of_leads`, `reported_of_leads`: What a phase says.
* `course_of_leads`: What a job says.
* `Course.commands_prefix`, `Course.error_iff`: The order of the commands, and where they stop.
* `Course.of_ok`: What a job that does not fail ends in.
* `Course.silent_dropLast`, `Course.shows_getLast`: How long it waits.
* `commands_in_order`: All of it, for any shell.
-/

namespace AccelMonitor

namespace Script

variable {α β : Type}

/-- A dialogue with one script after another is one with the first and one with the
    second. -/
theorem Leads.of_bind {p : Script α} {f : α → Script β} {dialogue : List (String × Answer)}
    {b : β} (h : (p.bind f).Leads dialogue (.done b)) :
    ∃ a before after, dialogue = before ++ after ∧ p.Leads before (.done a) ∧
      (f a).Leads after (.done b) := by
  induction p generalizing dialogue with
  | done a => exact ⟨a, [], dialogue, rfl, .rest _, h⟩
  | ask command next ih =>
    cases h with
    | ask h =>
      rcases ih _ h with ⟨a, before, after, rfl, hbefore, hafter⟩
      exact ⟨a, _ :: before, after, rfl, .ask hbefore, hafter⟩

/-- Nothing is asked where a script is done. -/
theorem Leads.of_done {a : α} {dialogue : List (String × Answer)} {left : Script α}
    (h : (done a).Leads dialogue left) : dialogue = [] ∧ left = done a := by
  cases h with
  | rest => exact ⟨rfl, rfl⟩

end Script

namespace Attempt

variable {ε α β : Type}

/-- An attempt that depends on another one either has its failure and nothing is asked any
    more, or goes on from its value. -/
theorem of_leads_bind {p : Attempt ε α} {f : α → Attempt ε β} {dialogue : List (String × Answer)}
    {result : Except ε β} (h : (p >>= f).script.Leads dialogue (.done result)) :
    (∃ e, result = .error e ∧ p.script.Leads dialogue (.done (.error e))) ∨
    ∃ a before after, dialogue = before ++ after ∧ p.script.Leads before (.done (.ok a)) ∧
      (f a).script.Leads after (.done result) := by
  rcases Script.Leads.of_bind h with ⟨outcome, before, after, rfl, hbefore, hafter⟩
  cases outcome with
  | ok a => exact Or.inr ⟨a, before, after, rfl, hbefore, hafter⟩
  | error e =>
    rcases hafter.of_done with ⟨rfl, hresult⟩
    cases hresult
    rw [List.append_nil]
    exact Or.inl ⟨e, rfl, hbefore⟩

/-- A value needs no command. -/
theorem of_leads_pure {a : α} {dialogue : List (String × Answer)} {result : Except ε α}
    (h : (pure a : Attempt ε α).script.Leads dialogue (.done result)) :
    dialogue = [] ∧ result = .ok a := by
  rcases Script.Leads.of_done h with ⟨rfl, hresult⟩
  cases hresult
  exact ⟨rfl, rfl⟩

/-- An attempt that begins with a command has the failure to start it, or goes on from its
    output. -/
theorem of_leads_lines {failure : SpawnFailure → ε} {command : String}
    {f : List String → Attempt ε β} {dialogue : List (String × Answer)} {result : Except ε β}
    (h : (lines failure command >>= f).script.Leads dialogue (.done result)) :
    (∃ e, result = .error (failure e) ∧ dialogue = [(command, .error e)]) ∨
    ∃ output after, dialogue = (command, .ok output) :: after ∧
      (f output).script.Leads after (.done result) := by
  cases h with
  | @ask _ _ answer after _ h =>
    cases answer with
    | ok output => exact Or.inr ⟨output, after, rfl, h⟩
    | error e =>
      rcases Script.Leads.of_done h with ⟨rfl, hresult⟩
      cases hresult
      exact Or.inl ⟨e, rfl, rfl⟩

end Attempt

/-- Every command of a dialogue could be started. -/
def Started (dialogue : List (String × Answer)) : Prop :=
  ∀ exchange ∈ dialogue, ∃ lines, exchange.2 = .ok lines

/-- All output in a dialogue, in order. -/
def printed (dialogue : List (String × Answer)) : List String :=
  dialogue.flatMap fun exchange => exchange.2.toOption.getD []

/-- Some line holds the sign. -/
def Shows (sign : String) (lines : List String) : Prop :=
  ∃ line ∈ lines, sign.toList <:+: line.toList

namespace Job

theorem showsSign_iff {sign : String} {lines : List String} :
    showsSign sign lines = true ↔ Shows sign lines := by
  simp only [showsSign, List.any_eq_true, Text.holds, Text.holdsList_iff, Shows]

/-- The dialogue of a phase that asks commands in order, and the failure that it broke off
    with, if any. -/
inductive Asked (commands : List String) :
    List (String × Answer) → Option SpawnFailure → Prop where
  /-- All commands were asked. -/
  | finished {dialogue : List (String × Answer)} (hasked : dialogue.map Prod.fst = commands)
      (hstarted : Started dialogue) : Asked commands dialogue none
  /-- The last command that was asked is the first that could not be started. -/
  | brokeOff (earlier : List (String × Answer)) {command : String} {f : SpawnFailure}
      (hasked : earlier.map Prod.fst ++ [command] <+: commands) (hstarted : Started earlier) :
      Asked commands (earlier ++ [(command, .error f)]) (some f)

/-- Up to now, no output of the waiting command showed the sign, and the time was not up. It is
    what makes the command come once more. -/
structure StillWaiting (w : EndSign) (patience : Nat) (dialogue : List (String × Answer)) :
    Prop where
  asked : ∀ exchange ∈ dialogue, exchange.1 = w.command
  silent : ∀ exchange ∈ dialogue, ∃ lines, exchange.2 = .ok lines ∧ ¬ Shows w.sign lines
  patient : dialogue.length ≤ patience

/-- The dialogue of the waiting, which a job may not have, and the failure that it broke off
    with, if any. -/
inductive Waited (patience : Nat) :
    Option EndSign → List (String × Answer) → Option SpawnFailure → Prop where
  | nothing : Waited patience none [] none
  /-- The last output shows the sign, or the time is up after it. -/
  | finished {w : EndSign} {earlier : List (String × Answer)} {lines : List String}
      (hearlier : StillWaiting w patience earlier)
      (hend : Shows w.sign lines ∨ earlier.length = patience) :
      Waited patience (some w) (earlier ++ [(w.command, .ok lines)]) none
  | brokeOff {w : EndSign} {earlier : List (String × Answer)} {f : SpawnFailure}
      (hearlier : StillWaiting w patience earlier) :
      Waited patience (some w) (earlier ++ [(w.command, .error f)]) (some f)

/-- The dialogues of the run, of the waiting and of the report, and the result. A phase that was
    not reached has an empty dialogue, and the phases in front of the one that failed have ended
    without failure. -/
inductive Course (job : Job) (patience : Nat) : List (String × Answer) →
    List (String × Answer) → List (String × Answer) → JobResult → Prop where
  | runFailed {ran : List (String × Answer)} {f : SpawnFailure}
      (hran : Asked job.run ran (some f)) : Course job patience ran [] [] (.error (.spawn f))
  | waitFailed {ran polls : List (String × Answer)} {f : SpawnFailure}
      (hran : Asked job.run ran none) (hpolls : Waited patience job.endSign polls (some f)) :
      Course job patience ran polls [] (.error (.spawn f))
  | reportFailed {ran polls reported : List (String × Answer)} {f : SpawnFailure}
      (hran : Asked job.run ran none) (hpolls : Waited patience job.endSign polls none)
      (hreported : Asked job.report reported (some f)) :
      Course job patience ran polls reported (.error (.spawn f))
  | ended {ran polls reported : List (String × Answer)}
      (hran : Asked job.run ran none) (hpolls : Waited patience job.endSign polls none)
      (hreported : Asked job.report reported none) :
      Course job patience ran polls reported
        (.ok ⟨job.framework, if job.report = [] then printed ran else printed reported⟩)

/-- What a phase that asks commands in order says, and what it ends in. It breaks off at the
    first command that cannot be started, and else it collects what all of them printed. The
    induction follows the commands, and the dialogue and the result are read off the script of
    the first one. -/
theorem asked_of_leads {commands : List String} {dialogue : List (String × Answer)}
    {result : Except ExecutionFailure (List String)}
    (h : (collect commands).script.Leads dialogue (.done result)) :
    (∃ f, result = .error (.spawn f) ∧ Asked commands dialogue (some f)) ∨
    (result = .ok (printed dialogue) ∧ Asked commands dialogue none) := by
  induction commands generalizing dialogue result with
  | nil =>
    rcases Attempt.of_leads_pure h with ⟨rfl, rfl⟩
    exact Or.inr ⟨rfl, .finished rfl (List.forall_mem_nil _)⟩
  | cons command commands ih =>
    rw [collect] at h
    -- Either the first command could not be started, or the others follow its output.
    rcases Attempt.of_leads_lines h with ⟨f, rfl, rfl⟩ | ⟨lines, after, rfl, hrest⟩
    · exact Or.inl ⟨f, rfl, .brokeOff [] (List.prefix_append [command] commands)
        (List.forall_mem_nil _)⟩
    · have hstarted : ∀ {dialogue : List (String × Answer)}, Started dialogue →
          Started ((command, .ok lines) :: dialogue) := fun hrest =>
        List.forall_mem_cons.mpr ⟨⟨lines, rfl⟩, hrest⟩
      -- A failure further on has all started commands in front of it.
      rcases Attempt.of_leads_bind hrest with ⟨e, rfl, hmore⟩ | ⟨more, mid, last, rfl, hmore, hlast⟩
      · rcases ih hmore with ⟨f, hresult, hasked⟩ | ⟨hresult, _⟩
        · cases hresult
          cases hasked with
          | brokeOff earlier hasked hearlier =>
            exact Or.inl ⟨f, rfl, .brokeOff ((command, .ok lines) :: earlier)
              (List.cons_prefix_cons.mpr ⟨rfl, hasked⟩) (hstarted hearlier)⟩
        · cases hresult
      · rcases Attempt.of_leads_pure hlast with ⟨rfl, rfl⟩
        rcases ih hmore with ⟨f, hresult, _⟩ | ⟨hresult, hasked⟩
        · cases hresult
        · cases hresult
          cases hasked with
          | finished hcommands hmid =>
            rw [List.append_nil]
            exact Or.inr ⟨rfl, .finished (congrArg (command :: ·) hcommands) (hstarted hmid)⟩

/-- One more output that does not show the sign, in front of the others. -/
theorem StillWaiting.cons {w : EndSign} {patience : Nat} {dialogue : List (String × Answer)}
    (h : StillWaiting w patience dialogue) {lines : List String} (hsilent : ¬ Shows w.sign lines) :
    StillWaiting w (patience + 1) ((w.command, .ok lines) :: dialogue) where
  asked := List.forall_mem_cons.mpr ⟨rfl, h.asked⟩
  silent := List.forall_mem_cons.mpr ⟨⟨lines, rfl, hsilent⟩, h.silent⟩
  patient := Nat.succ_le_succ h.patient

theorem stillWaiting_nil (w : EndSign) (patience : Nat) : StillWaiting w patience [] :=
  ⟨List.forall_mem_nil _, List.forall_mem_nil _, Nat.zero_le _⟩

/-- What the waiting says, and what it ends in. Running out of attempts is no failure: the
    waiting ends without the sign, and the report is asked for all the same. Only a command that
    cannot be started breaks it off. -/
theorem waited_of_leads {w : EndSign} {patience : Nat} {dialogue : List (String × Answer)}
    {result : Except ExecutionFailure Unit}
    (h : (awaitSign w.command w.sign patience).script.Leads dialogue (.done result)) :
    (∃ f, result = .error (.spawn f) ∧ Waited patience (some w) dialogue (some f)) ∨
    (result = .ok () ∧ Waited patience (some w) dialogue none) := by
  induction patience generalizing dialogue with
  | zero =>
    -- The last attempt ends the waiting, whatever it shows.
    rcases Attempt.of_leads_lines h with ⟨f, rfl, rfl⟩ | ⟨lines, after, rfl, hrest⟩
    · exact Or.inl ⟨f, rfl, .brokeOff (stillWaiting_nil w 0)⟩
    · rcases Attempt.of_leads_pure hrest with ⟨rfl, rfl⟩
      exact Or.inr ⟨rfl, .finished (stillWaiting_nil w 0) (Or.inr rfl)⟩
  | succ n ih =>
    rcases Attempt.of_leads_lines h with ⟨f, rfl, rfl⟩ | ⟨lines, after, rfl, hrest⟩
    · exact Or.inl ⟨f, rfl, .brokeOff (stillWaiting_nil w (n + 1))⟩
    -- The sign ends it as well. Without it the same command comes again, one attempt less.
    · by_cases hsign : showsSign w.sign lines = true
      · rw [if_pos hsign] at hrest
        rcases Attempt.of_leads_pure hrest with ⟨rfl, rfl⟩
        exact Or.inr ⟨rfl, .finished (stillWaiting_nil w (n + 1)) (Or.inl (showsSign_iff.mp hsign))⟩
      · rw [if_neg hsign] at hrest
        rw [showsSign_iff] at hsign
        rcases ih hrest with ⟨f, hresult, hwaited⟩ | ⟨hresult, hwaited⟩
        · cases hwaited with
          | @brokeOff _ earlier _ hearlier =>
            exact Or.inl ⟨f, hresult, .brokeOff (hearlier.cons hsign)⟩
        · cases hwaited with
          | @finished _ earlier last hearlier hend =>
            exact Or.inr ⟨hresult, .finished (hearlier.cons hsign) (hend.imp id (congrArg (· + 1)))⟩

/-- The same for a job that may have nothing to wait for. -/
theorem awaited_of_leads {endSign : Option EndSign} {patience : Nat}
    {dialogue : List (String × Answer)} {result : Except ExecutionFailure Unit}
    (h : (await patience endSign).script.Leads dialogue (.done result)) :
    (∃ f, result = .error (.spawn f) ∧ Waited patience endSign dialogue (some f)) ∨
    (result = .ok () ∧ Waited patience endSign dialogue none) := by
  cases endSign with
  | none =>
    rcases Attempt.of_leads_pure h with ⟨rfl, rfl⟩
    exact Or.inr ⟨rfl, .nothing⟩
  | some w => exact waited_of_leads h

/-- What the report says, and what it ends in. Without a report that is what the run printed. -/
theorem reported_of_leads {report raw : List String} {dialogue : List (String × Answer)}
    {result : Except ExecutionFailure (List String)}
    (h : (if report = [] then pure raw else collect report).script.Leads dialogue
      (.done result)) :
    (∃ f, result = .error (.spawn f) ∧ Asked report dialogue (some f)) ∨
    (result = .ok (if report = [] then raw else printed dialogue) ∧
      Asked report dialogue none) := by
  -- A job without a report ends with what its run printed, and asks nothing more.
  by_cases hnone : report = []
  · rw [if_pos hnone] at h
    rcases Attempt.of_leads_pure h with ⟨rfl, rfl⟩
    rw [if_pos hnone]
    exact Or.inr ⟨rfl, .finished hnone.symm (List.forall_mem_nil _)⟩
  · rw [if_neg hnone] at h
    rw [if_neg hnone]
    exact asked_of_leads h

/-- What a job says, phase by phase, and what it ends in. Whatever the shell answers, the
    dialogue falls into a run, a waiting and a report, and a phase begins only when those in
    front of it have ended without failure. So there are four courses: one of the three phases
    fails, or the job ends. -/
theorem course_of_leads {job : Job} {patience : Nat} {dialogue : List (String × Answer)}
    {result : JobResult} (h : (job.scriptWith patience).script.Leads dialogue (.done result)) :
    ∃ ran polls reported, dialogue = ran ++ (polls ++ reported) ∧
      Course job patience ran polls reported result := by
  -- The run comes first, and its failure is that of the job.
  rcases Attempt.of_leads_bind h with ⟨e, rfl, hrun⟩ | ⟨raw, ran, rest, rfl, hrun, hrest⟩
  · rcases asked_of_leads hrun with ⟨f, hresult, hran⟩ | ⟨hresult, _⟩
    · cases hresult
      exact ⟨dialogue, [], [], (List.append_nil _).symm, .runFailed hran⟩
    · cases hresult
  rcases asked_of_leads hrun with ⟨_, hresult, _⟩ | ⟨hresult, hran⟩
  · cases hresult
  cases hresult
  -- Behind a run without failure comes the waiting, which is empty for a job without a sign.
  rcases Attempt.of_leads_bind hrest with ⟨e, rfl, hwait⟩ | ⟨_, polls, last, rfl, hwait, hlast⟩
  · rcases awaited_of_leads hwait with ⟨f, hresult, hpolls⟩ | ⟨hresult, _⟩
    · cases hresult
      exact ⟨ran, rest, [], by rw [List.append_nil], .waitFailed hran hpolls⟩
    · cases hresult
  rcases awaited_of_leads hwait with ⟨_, hresult, _⟩ | ⟨hresult, hpolls⟩
  · cases hresult
  refine ⟨ran, polls, last, rfl, ?_⟩
  -- Both branches go on alike, so the choice is a part of its own.
  have hreport : ((if job.report = [] then pure (printed ran) else collect job.report) >>=
      fun lines => pure ⟨job.framework, lines⟩).script.Leads last (.done result) := by
    dsimp only at hlast
    split at hlast
    · rename_i hnone
      rw [if_pos hnone]
      exact hlast
    · rename_i hsome
      rw [if_neg hsome]
      exact hlast
  -- The report closes the job, and what is printed by it, or by the run, is the output.
  rcases Attempt.of_leads_bind hreport with ⟨e, rfl, hreported⟩ |
    ⟨lines, reported, after, rfl, hreported, hreturn⟩
  · rcases reported_of_leads hreported with ⟨f, hresult, hasked⟩ | ⟨hresult, _⟩
    · cases hresult
      exact .reportFailed hran hpolls hasked
    · cases hresult
  · rcases Attempt.of_leads_pure hreturn with ⟨rfl, rfl⟩
    rcases reported_of_leads hreported with ⟨_, hresult, _⟩ | ⟨hresult, hasked⟩
    · cases hresult
    · cases hresult
      rw [List.append_nil]
      exact .ended hran hpolls hasked

/-- The commands of the waiting, if its command is asked so many times. -/
def waitingWith (endSign : Option EndSign) (polls : Nat) : List String :=
  endSign.elim [] fun w => List.replicate polls w.command

/-- The commands of a job, if its waiting command is asked so many times. -/
def commandsWith (job : Job) (polls : Nat) : List String :=
  job.run ++ (waitingWith job.endSign polls ++ job.report)

/-- The commands of a dialogue could be started, all or, if there is a failure, all but the
    last. -/
def StartedUpTo (dialogue : List (String × Answer)) : Option SpawnFailure → Prop
  | none => Started dialogue
  | some f => ∃ earlier command, dialogue = earlier ++ [(command, .error f)] ∧ Started earlier

theorem StartedUpTo.append {first second : List (String × Answer)} {failure : Option SpawnFailure}
    (hfirst : Started first) (h : StartedUpTo second failure) :
    StartedUpTo (first ++ second) failure := by
  cases failure with
  | none => exact List.forall_mem_append.mpr ⟨hfirst, h⟩
  | some f =>
    rcases h with ⟨earlier, command, rfl, hearlier⟩
    exact ⟨first ++ earlier, command, (List.append_assoc ..).symm,
      List.forall_mem_append.mpr ⟨hfirst, hearlier⟩⟩

theorem Asked.startedUpTo {commands : List String} {dialogue : List (String × Answer)}
    {failure : Option SpawnFailure} (h : Asked commands dialogue failure) :
    StartedUpTo dialogue failure := by
  cases h with
  | finished hasked hstarted => exact hstarted
  | brokeOff earlier hasked hstarted => exact ⟨_, _, rfl, hstarted⟩

theorem Waited.startedUpTo {patience : Nat} {endSign : Option EndSign}
    {dialogue : List (String × Answer)} {failure : Option SpawnFailure}
    (h : Waited patience endSign dialogue failure) : StartedUpTo dialogue failure := by
  have hstarted : ∀ {w earlier}, StillWaiting w patience earlier → Started earlier :=
    fun hearlier exchange hmem => (hearlier.silent exchange hmem).imp fun _ hlines => hlines.1
  cases h with
  | nothing => exact List.forall_mem_nil _
  | finished hearlier hend =>
    exact List.forall_mem_append.mpr
      ⟨hstarted hearlier, List.forall_mem_singleton.mpr ⟨_, rfl⟩⟩
  | brokeOff hearlier => exact ⟨_, _, rfl, hstarted hearlier⟩

/-- The failure to start a command that a job ended in. -/
def failureOf : JobResult → Option SpawnFailure
  | .error (.spawn f) => some f
  | _ => none

/-- Only the last command of a job can be one that could not be started. -/
theorem Course.startedUpTo {job : Job} {patience : Nat}
    {ran polls reported : List (String × Answer)} {result : JobResult}
    (h : job.Course patience ran polls reported result) :
    StartedUpTo (ran ++ (polls ++ reported)) (failureOf result) := by
  cases h with
  | runFailed hran =>
    rw [List.append_nil, List.append_nil]
    exact hran.startedUpTo
  | waitFailed hran hpolls =>
    rw [List.append_nil]
    exact .append hran.startedUpTo hpolls.startedUpTo
  | reportFailed hran hpolls hreported =>
    exact .append hran.startedUpTo (.append hpolls.startedUpTo hreported.startedUpTo)
  | ended hran hpolls hreported =>
    exact .append hran.startedUpTo (.append hpolls.startedUpTo hreported.startedUpTo)

theorem StartedUpTo.failed_iff {dialogue : List (String × Answer)} {failure : Option SpawnFailure}
    (h : StartedUpTo dialogue failure) {f : SpawnFailure} :
    (∃ command, dialogue.getLast? = some (command, .error f)) ↔ failure = some f := by
  cases failure with
  | none =>
    refine iff_of_false ?_ (Option.some_ne_none f).symm
    rintro ⟨command, hlast⟩
    rcases h _ (List.mem_of_getLast? hlast) with ⟨lines, hlines⟩
    cases hlines
  | some f' =>
    rcases h with ⟨earlier, command, rfl, _⟩
    rw [List.getLast?_concat]
    simp only [Option.some.injEq, Prod.mk.injEq, Except.error.injEq, exists_eq_left']

theorem StartedUpTo.dropLast {dialogue : List (String × Answer)} {failure : Option SpawnFailure}
    (h : StartedUpTo dialogue failure) : Started dialogue.dropLast := by
  cases failure with
  | none => exact fun exchange hmem => h exchange (List.dropLast_subset _ hmem)
  | some f =>
    rcases h with ⟨earlier, command, rfl, hearlier⟩
    rw [List.dropLast_concat]
    exact hearlier

/-- Whatever becomes of it, the waiting asks its own command, at least once: the last question is
    the one that was answered with the sign, ran out of patience or failed, and all earlier ones
    were the same command. -/
theorem Waited.map_fst {patience : Nat} {endSign : Option EndSign}
    {dialogue : List (String × Answer)} {failure : Option SpawnFailure}
    (h : Waited patience endSign dialogue failure) :
    dialogue.map Prod.fst = waitingWith endSign (max dialogue.length 1) := by
  have hasked : ∀ {w : EndSign} {earlier : List (String × Answer)} (answer : Answer),
      StillWaiting w patience earlier → (earlier ++ [(w.command, answer)]).map Prod.fst
        = waitingWith (some w) (max (earlier ++ [(w.command, answer)]).length 1) := by
    intro w earlier answer hearlier
    rw [waitingWith, Option.elim_some, List.eq_replicate_iff]
    have hlength : 1 ≤ (earlier ++ [(w.command, answer)]).length := by
      rw [List.length_append]
      exact Nat.le_add_left ..
    refine ⟨by rw [List.length_map, Nat.max_eq_left hlength], ?_⟩
    simp only [List.map_append, List.forall_mem_append, List.forall_mem_map, List.map_cons,
      List.map_nil, List.forall_mem_singleton, and_true]
    exact hearlier.asked
  cases h with
  | nothing => rfl
  | finished hearlier hend => exact hasked _ hearlier
  | brokeOff hearlier => exact hasked _ hearlier

theorem Asked.map_fst_prefix {commands : List String} {dialogue : List (String × Answer)}
    {failure : Option SpawnFailure} (h : Asked commands dialogue failure) :
    dialogue.map Prod.fst <+: commands := by
  cases h with
  | finished hasked hstarted => exact hasked ▸ List.prefix_rfl
  | brokeOff earlier hasked hstarted =>
    rw [List.map_append]
    exact hasked

theorem Asked.map_fst {commands : List String} {dialogue : List (String × Answer)}
    (h : Asked commands dialogue none) : dialogue.map Prod.fst = commands := by
  cases h with
  | finished hasked hstarted => exact hasked

namespace Course

variable {job : Job} {patience : Nat} {ran polls reported : List (String × Answer)}
  {result : JobResult}

/-- A job fails if and only if its last command could not be started, and then with the
    failure of this command. -/
theorem error_iff (h : job.Course patience ran polls reported result) {e : ExecutionFailure} :
    result = .error e ↔
      ∃ command f, (ran ++ (polls ++ reported)).getLast? = some (command, .error f) ∧
        e = .spawn f := by
  have hresult : result = .error e ↔ ∃ f, failureOf result = some f ∧ e = .spawn f := by
    cases h with
    | ended => simp only [failureOf, reduceCtorEq, false_and, exists_false]
    | _ => simp only [failureOf, Except.error.injEq, Option.some.injEq, exists_eq_left', eq_comm]
  rw [hresult, exists_comm]
  refine exists_congr fun f => ?_
  rw [exists_and_right, h.startedUpTo.failed_iff]

/-- The commands are the first of those that the job would ask in all. -/
theorem commands_prefix (h : job.Course patience ran polls reported result) :
    (ran ++ (polls ++ reported)).map Prod.fst <+: job.commandsWith (max polls.length 1) := by
  rw [commandsWith, List.map_append, List.map_append]
  cases h with
  | runFailed hran =>
    rw [List.map_nil, List.append_nil, List.append_nil]
    exact hran.map_fst_prefix.trans (List.prefix_append ..)
  | waitFailed hran hpolls =>
    rw [hran.map_fst, hpolls.map_fst, List.map_nil, List.append_nil, List.prefix_append_right_inj]
    exact List.prefix_append ..
  | reportFailed hran hpolls hreported =>
    rw [hran.map_fst, hpolls.map_fst, List.prefix_append_right_inj, List.prefix_append_right_inj]
    exact hreported.map_fst_prefix
  | ended hran hpolls hreported =>
    simp only [hran.map_fst, hpolls.map_fst, hreported.map_fst, List.prefix_rfl]

/-- A job without a failure asks all of its commands, and has the output of its report or, if
    it has none, that of its run. -/
theorem of_ok {output : JobOutput} (h : job.Course patience ran polls reported (.ok output)) :
    (ran ++ (polls ++ reported)).map Prod.fst = job.commandsWith (max polls.length 1) ∧
      output.framework = job.framework ∧
      output.lines = if job.report = [] then printed ran else printed reported := by
  cases h with
  | ended hran hpolls hreported =>
    refine ⟨?_, rfl, rfl⟩
    rw [commandsWith, List.map_append, List.map_append, hran.map_fst, hpolls.map_fst,
      hreported.map_fst]

/-- No output of the waiting command but the last shows the sign. The waiting ends with the first
    output that does, so every earlier one was successful and without it. -/
theorem silent_dropLast (h : job.Course patience ran polls reported result) {w : EndSign}
    (hw : job.endSign = some w) :
    ∀ exchange ∈ polls.dropLast, ∃ lines, exchange.2 = .ok lines ∧ ¬ Shows w.sign lines := by
  have hwaited : ∀ {failure}, Waited patience job.endSign polls failure →
      ∀ exchange ∈ polls.dropLast, ∃ lines, exchange.2 = .ok lines ∧ ¬ Shows w.sign lines := by
    intro failure hpolls
    rw [hw] at hpolls
    cases hpolls with
    | finished hearlier hend =>
      rw [List.dropLast_concat]
      exact hearlier.silent
    | brokeOff hearlier =>
      rw [List.dropLast_concat]
      exact hearlier.silent
  -- Whichever phase ended the job, its polls are those of the waiting.
  cases h with
  | runFailed hran => exact List.forall_mem_nil _
  | waitFailed hran hpolls => exact hwaited hpolls
  | reportFailed hran hpolls hreported => exact hwaited hpolls
  | ended hran hpolls hreported => exact hwaited hpolls

/-- The last output of the waiting command shows the sign, or the time is up. -/
theorem shows_getLast {output : JobOutput} (h : job.Course patience ran polls reported (.ok output))
    {w : EndSign} (hw : job.endSign = some w) :
    ∃ lines, polls.getLast? = some (w.command, .ok lines) ∧
      (Shows w.sign lines ∨ polls.length = patience + 1) := by
  cases h with
  | ended hran hpolls hreported =>
    rw [hw] at hpolls
    cases hpolls with
    | finished hearlier hend =>
      refine ⟨_, List.getLast?_concat, hend.imp id fun hlength => ?_⟩
      rw [List.length_append, hlength, List.length_singleton]

end Course

/-- A job's dialogue with a shell that may answer as it likes, and its result, for any
    number of times that the waiting command can be repeated before the time is up:

    * they are those of the run, the waiting and the report, one phase after the other;
    * the commands are asked in order, the waiting command one or more times;
    * all of them but the last could be started;
    * the job fails if and only if the last one could not, and then with its failure;
    * otherwise all commands were asked, and the output is that of the report or, if the job
      has none, that of the run, under the job's framework;
    * the waiting command is repeated until its output shows the sign or the time is up. -/
theorem commands_in_order {σ : Type} (sh : Shell σ) (job : Job) (patience : Nat) (s : σ) :
    let dialogue := (job.scriptWith patience).script.transcript sh s
    let result := ((job.scriptWith patience).script.run sh s).1
    ∃ ran polls reported, dialogue = ran ++ (polls ++ reported) ∧
      job.Course patience ran polls reported result ∧
      dialogue.map Prod.fst <+: job.commandsWith (max polls.length 1) ∧
      Started dialogue.dropLast ∧
      (∀ e, result = .error e ↔
        ∃ command f, dialogue.getLast? = some (command, .error f) ∧ e = .spawn f) ∧
      (∀ output, result = .ok output →
        dialogue.map Prod.fst = job.commandsWith (max polls.length 1) ∧
        output.framework = job.framework ∧
        output.lines = if job.report = [] then printed ran else printed reported) ∧
      (∀ w, job.endSign = some w →
        (∀ exchange ∈ polls.dropLast, ∃ lines, exchange.2 = .ok lines ∧ ¬ Shows w.sign lines) ∧
        ∀ output, result = .ok output →
          ∃ lines, polls.getLast? = some (w.command, .ok lines) ∧
            (Shows w.sign lines ∨ polls.length = patience + 1)) := by
  intro dialogue result
  -- The dialogue leads through the script, and each clause is one of its phases put together.
  rcases course_of_leads (Script.leads_transcript sh (job.scriptWith patience).script s) with
    ⟨ran, polls, reported, hdialogue, hcourse⟩
  have hparts : dialogue = ran ++ (polls ++ reported) := hdialogue
  refine ⟨ran, polls, reported, hparts, hcourse, ?_, ?_, ?_, ?_, ?_⟩
  · rw [hparts]
    exact hcourse.commands_prefix
  · rw [hparts]
    exact hcourse.startedUpTo.dropLast
  · intro e
    rw [hparts]
    exact hcourse.error_iff
  · intro output houtput
    have hended : job.Course patience ran polls reported (.ok output) := houtput ▸ hcourse
    rw [hparts]
    exact hended.of_ok
  · intro w hw
    refine ⟨hcourse.silent_dropLast hw, fun output houtput => ?_⟩
    have hended : job.Course patience ran polls reported (.ok output) := houtput ▸ hcourse
    exact hended.shows_getLast hw

/-- The sign shows when the waiting command is asked for the second time. -/
example : (scriptWith 9
    ⟨.tflite, ["start"], some ⟨"look", "done", 1, 9⟩, ["report"]⟩).script.transcript
    ⟨fun command (n : Nat) => (.ok (if n = 2 then ["all done"] else [command]), n + 1)⟩ 0
    = [("start", .ok ["start"]), ("look", .ok ["look"]), ("look", .ok ["all done"]),
        ("report", .ok ["report"])] := by
  rfl

end Job

end AccelMonitor
