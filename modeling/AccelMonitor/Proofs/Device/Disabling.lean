import AccelMonitor.Device.Property
import AccelMonitor.Proofs.Device.Enabling

/-!
# Turning Logging Off

What the guards ask of the device from when they exist until they are gone.

Both guards undo what they did when they are told to, and once more when they go away. An
attempt can fail at any command, and then the guard counts as on and the next attempt starts
over. After an attempt that succeeded nothing more is asked, however often the guard is
told. So a guard's life is a number of failed attempts, at most one that succeeds, and
silence.

A call is described by its cases, one inductive for each guard, and everything about a whole
life is read off them: a failed call leaves the guard as it was, so an induction on the calls
only has to follow the guard up to the first call that succeeds.

## Main definitions

* `GuardCall`: A call that has a guard undo what it did.
* `GuardCall.series`, `GuardCall.stateAfter`: Calls one after the other.
* `Switches.lastWritten?`: The last value that was written to a file.
* `DriverLogging.restoreCommand`: What puts the property back to a value.
* `KernelLogging.Attempted`, `DriverLogging.Attempted`: What a call can do.

## Theorems

* `KernelLogging.attempted_make`, `DriverLogging.attempted_make`: Every call is one of these.
* `series_of_done`: A guard that is done stays so and asks nothing.
* `enabled_iff`, `restored_iff`: When a guard is done.
* `lastWritten?_of_zeroed`: What an attempt that succeeds leaves behind.
* `former_of_enable`: What the guard over the property holds.
* `guards_fall_silent`: The life of both guards.
-/

namespace AccelMonitor

/-- A call that has a guard undo what it did. -/
structure GuardCall (γ : Type) where
  before : γ
  /-- The commands of the call, with their answers. -/
  dialogue : List (String × Answer)
  outcome : Except Failure Unit
  after : γ

namespace GuardCall

variable {γ σ : Type} (off : γ → Script (Except Failure Unit × γ)) (shell : Shell σ)

/-- One call. -/
def make (g : γ) (s : σ) : GuardCall γ :=
  ⟨g, (off g).transcript shell s, ((off g).run shell s).1.1, ((off g).run shell s).1.2⟩

/-- Some calls, one after the other. -/
def series : Nat → γ → σ → List (GuardCall γ)
  | 0, _, _ => []
  | n + 1, g, s =>
    make off shell g s :: series n (make off shell g s).after ((off g).run shell s).2

/-- The guard and the shell after some calls. -/
def stateAfter : Nat → γ → σ → γ × σ
  | 0, g, s => (g, s)
  | n + 1, g, s => stateAfter n (make off shell g s).after ((off g).run shell s).2

variable {off}

/-- A guard that is done stays as it is and asks nothing, however often it is called. -/
theorem series_of_done {g : γ} (h : off g = .done (.ok (), g)) (n : Nat) (s : σ) :
    stateAfter off shell n g s = (g, s) ∧ ∀ c ∈ series off shell n g s, c.dialogue = [] := by
  induction n with
  | zero => exact ⟨rfl, List.forall_mem_nil _⟩
  | succ n ih =>
    have hmake : make off shell g s = ⟨g, [], .ok (), g⟩ := by
      rw [make, h]
      rfl
    have hshell : ((off g).run shell s).2 = s := by
      rw [h]
      rfl
    rw [stateAfter, series, hmake, hshell, List.forall_mem_cons]
    exact ⟨ih.1, rfl, ih.2⟩

end GuardCall

namespace Switches

/-- The value of the last command that wrote to a file and could be started. -/
def lastWritten? (path : String) (dialogue : List (String × Answer)) : Option String :=
  (dialogue.filterMap fun e => if e.2.isOk then written? path e.1 else none).getLast?

/-- Every switch was written with zero, by a command that could be started. -/
def AllZeroed (dialogue : List (String × Answer)) : Prop :=
  ∀ t ∈ all, ∃ e ∈ dialogue, e.1 = offCommand t ∧ e.2.isOk = true

/-- Turning a switch off writes zero to its file, and to no other. -/
theorem written?_offCommand : ∀ s ∈ all, ∀ t ∈ all,
    written? t.path (offCommand s) = if s = t then some "0" else none := by
  decide +kernel

/-- The switches have commands of their own. -/
theorem nodup_offCommands : (all.map offCommand).Nodup := by
  decide +kernel

/-- Turning all switches off writes something to each of them. -/
theorem lastZero : ∀ t ∈ all,
    (all.filterMap fun s => if s = t then some "0" else none).getLast? = some "0" := by
  decide +kernel

/-- After a dialogue that turned every switch off, zero is what was written last, whatever
    came before. -/
theorem lastWritten?_of_zeroed {dialogue : List (String × Answer)}
    (hasked : dialogue.map Prod.fst = all.map offCommand)
    (hstarted : ∀ e ∈ dialogue, e.2.isOk = true) (earlier : List (String × Answer))
    {t : Switch} (ht : t ∈ all) : lastWritten? t.path (earlier ++ dialogue) = some "0" := by
  have hvalues : (dialogue.filterMap fun e => if e.2.isOk then written? t.path e.1 else none)
      = all.filterMap fun s => if s = t then some "0" else none := by
    rw [filterMap_written hasked hstarted]
    exact List.filterMap_congr fun s hs => written?_offCommand s hs t ht
  rw [lastWritten?, List.filterMap_append, hvalues, List.getLast?_append, lastZero t ht]
  rfl

end Switches

namespace KernelLogging

open Switches GuardCall

/-- What a call to turn the switches off can do. There are three ways, and each fixes the
    commands, their answers, the outcome and the guard that is left, so nothing else can have
    happened in a call. -/
inductive Attempted : GuardCall KernelLogging → Prop
  /-- The guard is off, and nothing is asked. -/
  | silent {g : KernelLogging} (off : g.enabled = false) : Attempted ⟨g, [], .ok (), g⟩
  /-- Every switch is written with zero, and the guard is off. -/
  | complete {g : KernelLogging} {dialogue : List (String × Answer)} (on : g.enabled = true)
      (asked : dialogue.map Prod.fst = all.map offCommand)
      (started : ∀ e ∈ dialogue, e.2.isOk = true) : Attempted ⟨g, dialogue, .ok (), ⟨false⟩⟩
  /-- The switches are written with zero up to one that cannot be, and the guard stays on. -/
  | stopped {g : KernelLogging} {written rest : List Switch} {t : Switch}
      {dialogue : List (String × Answer)} {f : SpawnFailure} (on : g.enabled = true)
      (split : all = written ++ t :: rest)
      (asked : dialogue.map Prod.fst = written.map offCommand)
      (started : ∀ e ∈ dialogue, e.2.isOk = true) :
      Attempted ⟨g, dialogue ++ [(offCommand t, .error f)], .error (.spawn f), g⟩

variable {σ : Type}

/-- Every call to turn the switches off is one of these. The guard is given back as it was
    exactly where a command could not be started. That it counts as on as long as one switch may
    be on is what makes a second call try all of them again. -/
theorem attempted_make (shell : Shell σ) (g : KernelLogging) (s : σ) :
    Attempted (make disable shell g s) := by
  cases hg : g.enabled with
  | false =>
    rw [make, disable_disabled hg]
    exact .silent hg
  | true =>
    -- A call to a guard that is on writes to the switches, and its outcome decides what is
    -- left.
    have hmake : make disable shell g s
        = ⟨g, (writeAll (all.map offCommand)).transcript shell s,
          ((writeAll (all.map offCommand)).run shell s).1,
          ⟨((writeAll (all.map offCommand)).run shell s).1.toOption.isNone⟩⟩ := by
      rw [make, disable, if_pos hg, Script.transcript_bind, Script.run_bind]
      simp only [Script.transcript, Script.run, List.append_nil]
    rw [hmake]
    rcases writeAll_cases offCommand all shell s with
      ⟨written, left, dialogue, hsplit, hasked, hstarted, hend⟩
    rcases hend with ⟨rfl, houtcome, hdialogue⟩ | ⟨t, rest, f, rfl, houtcome, hdialogue⟩
    · rw [houtcome, hdialogue]
      rw [List.append_nil] at hsplit
      rw [← hsplit] at hasked
      exact .complete hg hasked hstarted
    · rw [houtcome, hdialogue]
      -- A guard is only on or off, so one that is on afterwards is the one from before.
      have hsame : (⟨(Except.error (Failure.spawn f) : Except Failure Unit).toOption.isNone⟩ :
          KernelLogging) = g := by
        rcases g with ⟨enabled⟩
        cases hg
        rfl
      rw [hsame]
      exact .stopped hg hsplit hasked hstarted

/-- A guard that is on is off after a call if the call turned every switch off, and unchanged
    if it did not. -/
theorem Attempted.done_or_same {c : GuardCall KernelLogging} (h : Attempted c)
    (hon : c.before.enabled = true) :
    (c.after.enabled = false ∧ AllZeroed c.dialogue ∧
        ∀ earlier, ∀ t ∈ all, lastWritten? t.path (earlier ++ c.dialogue) = some "0") ∨
      (c.after = c.before ∧ ¬ AllZeroed c.dialogue) := by
  cases h with
  | silent off =>
    rw [hon] at off
    cases off
  | complete on asked started =>
    refine Or.inl ⟨rfl, fun t ht => ?_, fun earlier t ht =>
      lastWritten?_of_zeroed asked started earlier ht⟩
    rcases List.mem_map.mp (asked ▸ List.mem_map_of_mem ht) with ⟨e, he, hcommand⟩
    exact ⟨e, he, hcommand, started e he⟩
  | stopped on split asked started =>
    -- Some switch was not written, so the call did not turn all of them off.
    rename_i g written rest t dialogue f
    refine Or.inr ⟨rfl, fun hzeroed => ?_⟩
    have hdistinct := nodup_offCommands
    rw [split, List.map_append, List.map_cons, List.nodup_append] at hdistinct
    rcases hzeroed t (split ▸ List.mem_append_right _ (List.mem_cons_self ..)) with
      ⟨e, he, hcommand, hstarted⟩
    -- The one command for the failing switch is the last one, which was not started.
    rcases List.mem_append.mp he with he | he
    · have hmem : offCommand t ∈ written.map offCommand := by
        rw [← asked, ← hcommand]
        exact List.mem_map_of_mem he
      exact hdistinct.2.2 _ hmem _ (List.mem_cons_self ..) rfl
    · rw [List.mem_singleton.mp he] at hstarted
      cases hstarted

/-- Of some calls, the guard is off after them if one of them turned every switch off. Then zero
    is what was last written to each switch, whatever came before: the calls in front of that
    one may have written some of the switches only, and those behind it are silent. -/
theorem enabled_iff (shell : Shell σ) {g : KernelLogging} (hg : g.enabled = true) (n : Nat)
    (s : σ) (earlier : List (String × Answer)) :
    ((stateAfter disable shell n g s).1.enabled = false ↔
        ∃ c ∈ series disable shell n g s, AllZeroed c.dialogue) ∧
      ((stateAfter disable shell n g s).1.enabled = false → ∀ t ∈ all,
        lastWritten? t.path
          (earlier ++ (series disable shell n g s).flatMap GuardCall.dialogue) = some "0") := by
  -- By induction on the calls. A failed one leaves the guard as it was and is part of what
  -- came before the others.
  induction n generalizing s earlier with
  | zero =>
    constructor
    · constructor
      · intro hoff
        rw [stateAfter, hg] at hoff
        cases hoff
      · rintro ⟨c, hc, _⟩
        exact absurd hc List.not_mem_nil
    · intro hoff
      rw [stateAfter, hg] at hoff
      cases hoff
  | succ n ih =>
    rw [stateAfter, series, List.flatMap_cons, ← List.append_assoc]
    simp only [List.mem_cons, exists_eq_or_imp]
    rcases (attempted_make shell g s).done_or_same hg with
      ⟨hoff, hzeroed, hlast⟩ | ⟨hsame, hnot⟩
    · -- The guard is off from here on.
      rcases series_of_done shell (disable_disabled hoff) n (g.disable.run shell s).2 with
        ⟨hstate, hsilent⟩
      rw [hstate, List.flatMap_eq_nil_iff.mpr hsilent, List.append_nil]
      exact ⟨⟨fun _ => Or.inl hzeroed, fun _ => hoff⟩, fun _ => hlast earlier⟩
    -- The call has failed, and the guard is the one from before it.
    · rw [hsame]
      rcases ih (g.disable.run shell s).2 (earlier ++ (make disable shell g s).dialogue) with
        ⟨hiff, hlast⟩
      refine ⟨⟨fun hoff => Or.inr (hiff.mp hoff), fun h => hiff.mpr ?_⟩, hlast⟩
      exact h.resolve_left hnot

/-- When the guard goes away it asks what another call would ask. -/
theorem release_transcript (shell : Shell σ) (g : KernelLogging) (s : σ) :
    g.release.transcript shell s = g.disable.transcript shell s := by
  rw [release, Script.transcript_bind]
  exact List.append_nil _

/-- A guard that was made is on. -/
theorem enabled_of_enable {shell : Shell σ} {s s' : σ} {g : KernelLogging}
    (h : enable.run shell s = (.ok g, s')) : g.enabled = true := by
  rw [enable, Script.run_bind] at h
  cases hwrite : ((writeAll (all.map onCommand)).run shell s).1 with
  | error f =>
    rw [hwrite] at h
    cases h
  | ok u =>
    rw [hwrite] at h
    cases h
    rfl

end KernelLogging

namespace DriverLogging

open GuardCall

/-- The command that puts the property back to what it was. An empty value is that of a
    property which was not set, and such a property is put back to zero. -/
def restoreCommand (former : String) : String :=
  "setprop debug.nn.vlog " ++ if former = "" then "0" else former

/-- This is the command of a guard that is due. -/
theorem writeCommand_restoredValue (g : DriverLogging) :
    Property.writeCommand driverLogProperty g.restoredValue = restoreCommand g.former := by
  have hhead : "setprop " ++ driverLogProperty ++ " " = "setprop debug.nn.vlog " := by decide
  unfold Property.writeCommand restoreCommand restoredValue
  rw [hhead]

/-- What a call to put the property back can do. It is one command or none, and the guard that
    is left says which, except that a command which cannot be started leaves everything as it
    was. -/
inductive Attempted : GuardCall DriverLogging → Prop
  /-- The property was put back, and nothing is asked. -/
  | silent {g : DriverLogging} (done : g.restored = true) : Attempted ⟨g, [], .ok (), g⟩
  /-- The property is put back. -/
  | complete {g : DriverLogging} {lines : List String} (due : g.restored = false) :
      Attempted ⟨g, [(restoreCommand g.former, .ok lines)], .ok (), { g with restored := true }⟩
  /-- The command cannot be started, and the property is still to be put back. -/
  | stopped {g : DriverLogging} {f : SpawnFailure} (due : g.restored = false) :
      Attempted ⟨g, [(restoreCommand g.former, .error f)], .error (.spawn f), g⟩

variable {σ : Type}

/-- Every call to put the property back is one of these. -/
theorem attempted_make (shell : Shell σ) (g : DriverLogging) (s : σ) :
    Attempted (make restore shell g s) := by
  cases hg : g.restored with
  | true =>
    rw [make, restore_restored hg]
    exact .silent hg
  | false =>
    rcases hanswer : shell.answer (restoreCommand g.former) s with ⟨answer, s'⟩
    simp only [make, restore, hg, Bool.false_eq_true, if_false, writeCommand_restoredValue,
      Script.transcript, Script.run, hanswer]
    cases answer with
    | error f => exact .stopped hg
    | ok lines => exact .complete hg

/-- The call put the property back to what it was, by a command that could be started. -/
def PutBack (former : String) (c : GuardCall DriverLogging) : Prop :=
  ∃ lines, c.dialogue = [(restoreCommand former, .ok lines)]

/-- A guard that is due asks once, for the property to be put back to what it was. -/
theorem transcript_of_due (shell : Shell σ) {g : DriverLogging} (hdue : g.restored = false)
    (s : σ) : g.restore.transcript shell s
      = [(restoreCommand g.former, (shell.answer (restoreCommand g.former) s).1)] := by
  rcases hanswer : shell.answer (restoreCommand g.former) s with ⟨answer, s'⟩
  simp only [restore, hdue, Bool.false_eq_true, if_false, writeCommand_restoredValue,
    Script.transcript, hanswer]
  cases answer with
  | error f => rfl
  | ok lines => rfl

/-- A guard that is due is done after a call if the call put the property back, and unchanged
    if it did not. -/
theorem Attempted.done_or_same {c : GuardCall DriverLogging} (h : Attempted c)
    (hdue : c.before.restored = false) :
    (c.after = { c.before with restored := true } ∧ PutBack c.before.former c) ∨
      (c.after = c.before ∧ ¬ PutBack c.before.former c) := by
  cases h with
  | silent done =>
    rw [hdue] at done
    cases done
  | complete due => exact Or.inl ⟨rfl, _, rfl⟩
  | stopped due =>
    refine Or.inr ⟨rfl, ?_⟩
    rintro ⟨lines, hlines⟩
    cases hlines

/-- Of some calls, the property is put back after them if one of them did it, and the guard
    never forgets what the property was. A failed call leaves the guard as it was, with the
    value that is still to be put back, so the induction goes on with the same guard until a
    call succeeds. -/
theorem restored_iff (shell : Shell σ) {g : DriverLogging} (hg : g.restored = false) (n : Nat)
    (s : σ) :
    (stateAfter restore shell n g s).1.former = g.former ∧
      ((stateAfter restore shell n g s).1.restored = true ↔
        ∃ c ∈ series restore shell n g s, PutBack g.former c) := by
  induction n generalizing s with
  | zero =>
    refine ⟨rfl, ⟨fun hdone => ?_, ?_⟩⟩
    · rw [stateAfter, hg] at hdone
      cases hdone
    · rintro ⟨c, hc, _⟩
      exact absurd hc List.not_mem_nil
  | succ n ih =>
    rw [stateAfter, series]
    simp only [List.mem_cons, exists_eq_or_imp]
    -- The first call either has put the value back, and all others are silent, or has changed
    -- nothing.
    rcases (attempted_make shell g s).done_or_same hg with ⟨hdone, hback⟩ | ⟨hsame, hnot⟩
    · have hrestored : (make restore shell g s).after.restored = true := by
        rw [hdone]
      rw [(series_of_done shell (restore_restored hrestored) n (g.restore.run shell s).2).1, hdone]
      exact ⟨rfl, ⟨fun _ => Or.inl hback, fun _ => rfl⟩⟩
    · rw [hsame]
      rcases ih (g.restore.run shell s).2 with ⟨hformer, hiff⟩
      refine ⟨hformer, ⟨fun hdone => Or.inr (hiff.mp hdone), fun h => hiff.mpr ?_⟩⟩
      exact h.resolve_left hnot

/-- When the guard goes away it asks what another call would ask. -/
theorem release_transcript (shell : Shell σ) (g : DriverLogging) (s : σ) :
    g.release.transcript shell s = g.restore.transcript shell s := by
  rw [release, Script.transcript_bind]
  exact List.append_nil _

/-- The two questions of an attempt to set the property. -/
theorem script_enable : enable.script
    = .ask ("getprop " ++ driverLogProperty) fun
      | .error f => .done (.error (.spawn f))
      | .ok lines => .ask (Property.writeCommand driverLogProperty "1") fun
        | .error f => .done (.error (.spawn f))
        | .ok _ => .done (.ok ⟨(lines.head?.map Text.trim).getD "", false⟩) := by
  refine congrArg (Script.ask _) (funext fun answer => ?_)
  cases answer with
  | error f => rfl
  | ok lines =>
    refine congrArg (Script.ask _) (funext fun answer => ?_)
    cases answer with
    | error f => rfl
    | ok others => rfl

/-- A guard that was made is due, and it holds what the property was: the first line that reading
    it printed, trimmed, and the empty text if nothing was printed. Two commands were asked for,
    and neither failed. -/
theorem former_of_enable {shell : Shell σ} {s s' : σ} {g : DriverLogging}
    (h : enable.perform shell s = (.ok g, s')) :
    g.restored = false ∧ ∃ lines others,
      enable.script.transcript shell s = [("getprop " ++ driverLogProperty, .ok lines),
        (Property.writeCommand driverLogProperty "1", .ok others)] ∧
      g.former = (lines.head?.map Text.trim).getD "" := by
  rw [Attempt.perform, script_enable] at h
  rw [script_enable]
  rcases hread : shell.answer ("getprop " ++ driverLogProperty) s with ⟨answer, s₁⟩
  cases answer with
  | error f => simp only [Script.run, hread, Prod.mk.injEq, reduceCtorEq, false_and] at h
  | ok lines =>
    rcases hset : shell.answer (Property.writeCommand driverLogProperty "1") s₁ with ⟨answer, s₂⟩
    cases answer with
    | error f => simp only [Script.run, hread, hset, Prod.mk.injEq, reduceCtorEq, false_and] at h
    | ok others =>
      simp only [Script.run, hread, hset, Prod.mk.injEq, Except.ok.injEq] at h
      rw [← h.1]
      refine ⟨rfl, lines, others, ?_, rfl⟩
      simp only [Script.transcript, hread, hset]

end DriverLogging

open Switches GuardCall

/-- The guards turn logging off once and then fall silent, whatever the shell does. After any
    number of calls to a guard that was made:

    * the guard over the switches is off exactly when one of the calls wrote zero to all of
      them, and then zero is what was last written to each;
    * the next call is silent, writes zero to all switches, or stops at the first that cannot
      be written and leaves the guard on, and it is silent if the guard is off;
    * the guard over the property still holds what the property was before it was set, and
      the property is put back exactly when one of the calls did it;
    * the next call asks once for the property to be set to that value, or to zero if it was
      not set, and it is silent if the property was put back;
    * when the guard goes away it asks what the next call would have asked. -/
theorem guards_fall_silent {σ : Type} (shell : Shell σ) :
    (∀ s s' g, KernelLogging.enable.run shell s = (.ok g, s') → ∀ n g' t,
      stateAfter KernelLogging.disable shell n g s' = (g', t) →
      (g'.enabled = false ↔ ∃ c ∈ series KernelLogging.disable shell n g s',
        AllZeroed c.dialogue) ∧
      (g'.enabled = false → ∀ switch ∈ all, lastWritten? switch.path
        (KernelLogging.enable.transcript shell s
          ++ (series KernelLogging.disable shell n g s').flatMap GuardCall.dialogue)
        = some "0") ∧
      KernelLogging.Attempted (make KernelLogging.disable shell g' t) ∧
      (g'.enabled = false → g'.disable.transcript shell t = []) ∧
      g'.release.transcript shell t = g'.disable.transcript shell t) ∧
    (∀ s s' g, DriverLogging.enable.perform shell s = (.ok g, s') →
      (∃ lines others, DriverLogging.enable.script.transcript shell s
          = [("getprop debug.nn.vlog", .ok lines), ("setprop debug.nn.vlog 1", .ok others)] ∧
        g.former = (lines.head?.map Text.trim).getD "") ∧
      ∀ n g' t, stateAfter DriverLogging.restore shell n g s' = (g', t) →
        g'.former = g.former ∧
        (g'.restored = true ↔ ∃ c ∈ series DriverLogging.restore shell n g s',
          DriverLogging.PutBack g.former c) ∧
        DriverLogging.Attempted (make DriverLogging.restore shell g' t) ∧
        (∀ command,
          command = "setprop debug.nn.vlog " ++ (if g.former = "" then "0" else g.former) →
          g'.restored = false →
          g'.restore.transcript shell t = [(command, (shell.answer command t).1)]) ∧
        (g'.restored = true → g'.restore.transcript shell t = []) ∧
        g'.release.transcript shell t = g'.restore.transcript shell t) := by
  constructor
  -- What the shell answered when the guard was made is part of what came before.
  · intro s s' g h n g' t hstate
    have hcalls := KernelLogging.enabled_iff shell (KernelLogging.enabled_of_enable h) n s'
      (KernelLogging.enable.transcript shell s)
    rw [hstate] at hcalls
    refine ⟨hcalls.1, hcalls.2, KernelLogging.attempted_make shell g' t, fun hoff => ?_,
      KernelLogging.release_transcript shell g' t⟩
    rw [KernelLogging.disable_disabled hoff]
    rfl
  -- The guard holds the value from before, so every later call names that value.
  · intro s s' g h
    rcases DriverLogging.former_of_enable h with ⟨hdue, hformer⟩
    refine ⟨hformer, fun n g' t hstate => ?_⟩
    have hcalls := DriverLogging.restored_iff shell hdue n s'
    rw [hstate] at hcalls
    rcases hcalls with ⟨hsame, hiff⟩
    refine ⟨hsame, hiff, DriverLogging.attempted_make shell g' t, ?_, fun hdone => ?_,
      DriverLogging.release_transcript shell g' t⟩
    · rintro command rfl hnot
      rw [DriverLogging.transcript_of_due shell hnot t, hsame]
      rfl
    · rw [DriverLogging.restore_restored hdone]
      rfl

/-- A recording of a device whose third switch and whose property can be written at the second
    attempt. The property was set to two. -/
def reluctant : Recording :=
  ((((Recording.empty.push "echo 0 >> /sys/kernel/debug/cam_sensor" .spawnFailure).push
    "echo 0 >> /sys/kernel/debug/cam_sensor" (.output [])).push
    "getprop debug.nn.vlog" (.output [" 2 "])).push
    "setprop debug.nn.vlog 2" .spawnFailure).push "setprop debug.nn.vlog 2" (.output [])

/-- The case of a third switch and a property that can be written at the second attempt, and of
    a property that was not set. -/
theorem guards_fall_silent_retried :
    (∃ g s, KernelLogging.enable.run Recording.shell reluctant = (.ok g, s) ∧
      (series KernelLogging.disable Recording.shell 3 g s).map
          (fun c => (c.dialogue.map Prod.fst, c.after.enabled))
        = [(["echo 0 >> /sys/kernel/debug/adsprpc/global",
              "echo 0 >> /sys/kernel/debug/camera_sync/logging_enabled",
              "echo 0 >> /sys/kernel/debug/cam_sensor/logging_enabled"], true),
            (["echo 0 >> /sys/kernel/debug/adsprpc/global",
              "echo 0 >> /sys/kernel/debug/camera_sync/logging_enabled",
              "echo 0 >> /sys/kernel/debug/cam_sensor/logging_enabled",
              "echo 0 >> /sys/kernel/debug/kgsl/kgsl-3d0/log_level_perf"], false),
            ([], false)] ∧
      ∀ switch ∈ all, lastWritten? switch.path
        (KernelLogging.enable.transcript Recording.shell reluctant
          ++ (series KernelLogging.disable Recording.shell 3 g s).flatMap GuardCall.dialogue)
        = some "0") ∧
    (∃ g s, DriverLogging.enable.perform Recording.shell reluctant = (.ok g, s) ∧
      g.former = "2" ∧
      (series DriverLogging.restore Recording.shell 3 g s).map GuardCall.dialogue
        = [[("setprop debug.nn.vlog 2",
              .error ⟨"setprop debug.nn.vlog 2", "replayed spawn failure"⟩)],
            [("setprop debug.nn.vlog 2", .ok [])], []] ∧
      g.restore.transcript Recording.shell s = [("setprop debug.nn.vlog 2",
        .error ⟨"setprop debug.nn.vlog 2", "replayed spawn failure"⟩)]) ∧
    ∃ g s, DriverLogging.enable.perform Recording.shell Recording.empty = (.ok g, s) ∧
      g.former = "" ∧
      g.restore.transcript Recording.shell s = [("setprop debug.nn.vlog 0", .ok [])] := by
  refine ⟨⟨⟨true⟩, _, Prod.ext (by decide +kernel) rfl, by decide +kernel, ?_⟩,
    ⟨⟨"2", false⟩, _, Prod.ext (by decide +kernel) rfl, rfl, by decide +kernel, ?_⟩,
    ⟨⟨"", false⟩, _, Prod.ext (by decide +kernel) rfl, rfl, ?_⟩⟩
  · have hkernel := (guards_fall_silent Recording.shell).1 reluctant _ ⟨true⟩
      (Prod.ext (by decide +kernel) rfl) 3 _ _ rfl
    exact hkernel.2.1 (by decide +kernel)
  · have hdriver := ((guards_fall_silent Recording.shell).2 reluctant _ ⟨"2", false⟩
      (Prod.ext (by decide +kernel) rfl)).2 0 _ _ rfl
    exact hdriver.2.2.2.1 "setprop debug.nn.vlog 2" (by decide +kernel) rfl
  · have hdriver := ((guards_fall_silent Recording.shell).2 Recording.empty _ ⟨"", false⟩
      (Prod.ext (by decide +kernel) rfl)).2 0 _ _ rfl
    exact hdriver.2.2.2.1 "setprop debug.nn.vlog 0" (by decide +kernel) rfl

end AccelMonitor
