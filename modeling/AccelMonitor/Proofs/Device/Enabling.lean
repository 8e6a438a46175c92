import AccelMonitor.Device.Switches
import AccelMonitor.Pattern.Basic
import AccelMonitor.Shell.Recording
import Mathlib.Data.List.Basic

/-!
# Turning Logging On

What an attempt to turn the drivers' logging on leaves behind.

The switches are written in order, up to the first that cannot be written. If all of them
can, the guard exists and will turn them off again. If one cannot, there is no guard, and
nothing else undoes the attempt: the switches in front of the failing one stay on, and no
switch is written another time. So a failed attempt is undone only where there was
nothing to undo, because the first switch failed.

What a switch is set to is read off the commands and their answers: it is the value of
the last command that wrote to its file and could be started.

## Main definitions

* `Switches.written?`: The value that a command writes to a file.
* `Switches.setting`: What a file is set to after some commands.
* `Switches.Undone`: Every switch that was turned on has been written with zero.

## Theorems

* `writeAll_cases`: Writing stops at the first failure.
* `filterMap_written`: What started commands wrote to a file.
* `setting_of_written`: What files are set to after some switches were turned on.
* `undone_iff`: When a failed attempt is undone.
* `enable_leaves`: What an attempt leaves behind.
* `enable_not_undone`: A failed attempt that leaves a switch on.
-/

namespace AccelMonitor

namespace Switches

/-- The value that a command writes to a file, if it writes to that file. It is read off the
    command's text, so the commands count for what they say and not for where they come from. -/
def written? (path command : String) : Option String :=
  let target := (" >> " ++ path).toList
  (Pattern.dropText? "echo ".toList command.toList).bind fun rest =>
    if target.isSuffixOf rest then some (String.ofList (rest.take (rest.length - target.length)))
    else none

/-- What a file is set to: the value of the last command that wrote to it and could be
    started, and zero without one. -/
def setting (path : String) (dialogue : List (String × Answer)) : String :=
  (dialogue.filterMap fun e => if e.2.isOk then written? path e.1 else none).getLast?.getD "0"

/-- For every switch that a command has turned on, there is one that turns it off. -/
def Undone (dialogue : List (String × Answer)) : Prop :=
  ∀ t ∈ all, (∃ e ∈ dialogue, e.1 = onCommand t ∧ e.2.isOk = true) →
    offCommand t ∈ dialogue.map Prod.fst

instance (dialogue : List (String × Answer)) : Decidable (Undone dialogue) :=
  inferInstanceAs (Decidable (∀ t ∈ all, _))

/-- Turning a switch on writes its value to its file, and to no other. -/
theorem written?_onCommand : ∀ s ∈ all, ∀ t ∈ all,
    written? t.path (onCommand s) = if s = t then some t.on else none := by
  decide +kernel

/-- No command that turns a switch on is one that turns a switch off. -/
theorem onCommand_ne_offCommand : ∀ s ∈ all, ∀ t ∈ all, onCommand s ≠ offCommand t := by
  decide +kernel

variable {α σ : Type}

/-- Writing goes on up to the first command that cannot be started, which it fails with. What
    was asked is split into the part that was written and the part that was left, so the guards
    can say of each target on which side of the failure it is. -/
theorem writeAll_cases (command : α → String) (targets : List α) (shell : Shell σ) (s : σ) :
    ∃ written left dialogue, targets = written ++ left ∧
      dialogue.map Prod.fst = written.map command ∧ (∀ e ∈ dialogue, e.2.isOk = true) ∧
      ((left = [] ∧ ((writeAll (targets.map command)).run shell s).1 = .ok () ∧
          (writeAll (targets.map command)).transcript shell s = dialogue) ∨
        ∃ t rest f, left = t :: rest ∧
          ((writeAll (targets.map command)).run shell s).1 = .error (.spawn f) ∧
          (writeAll (targets.map command)).transcript shell s
            = dialogue ++ [(command t, .error f)]) := by
  induction targets generalizing s with
  | nil => exact ⟨[], [], [], rfl, rfl, List.forall_mem_nil _, Or.inl ⟨rfl, rfl, rfl⟩⟩
  | cons t rest ih =>
    -- What the first command is answered decides whether the others are asked at all.
    rcases hanswer : shell.answer (command t) s with ⟨answer, s'⟩
    simp only [List.map_cons, writeAll, Script.run, Script.transcript, hanswer]
    cases answer with
    | error f =>
      exact ⟨[], t :: rest, [], rfl, rfl, List.forall_mem_nil _,
        Or.inr ⟨t, rest, f, rfl, rfl, rfl⟩⟩
    | ok lines =>
      rcases ih s' with ⟨written, left, dialogue, hsplit, hcommands, hok, hend⟩
      refine ⟨t :: written, left, (command t, .ok lines) :: dialogue, ?_, ?_, ?_, ?_⟩
      · rw [hsplit, List.cons_append]
      · rw [List.map_cons, List.map_cons, hcommands]
      · exact List.forall_mem_cons.mpr ⟨rfl, hok⟩
      · rcases hend with ⟨hleft, hrun, htranscript⟩ | ⟨u, more, f, hleft, hrun, htranscript⟩
        · exact Or.inl ⟨hleft, hrun, congrArg _ htranscript⟩
        · exact Or.inr ⟨u, more, f, hleft, hrun, congrArg _ htranscript⟩

/-- What some commands wrote to a file, if all of them could be started. -/
theorem filterMap_written {command : α → String} {targets : List α}
    {dialogue : List (String × Answer)} (hasked : dialogue.map Prod.fst = targets.map command)
    (hstarted : ∀ e ∈ dialogue, e.2.isOk = true) (path : String) :
    (dialogue.filterMap fun e => if e.2.isOk then written? path e.1 else none)
      = targets.filterMap fun t => written? path (command t) := by
  calc (dialogue.filterMap fun e => if e.2.isOk then written? path e.1 else none)
      = dialogue.filterMap fun e => written? path e.1 :=
        List.filterMap_congr fun e he => if_pos (hstarted e he)
    _ = (dialogue.map Prod.fst).filterMap (written? path) := by
        rw [List.filterMap_map]
        rfl
    _ = targets.filterMap fun t => written? path (command t) := by
        rw [hasked, List.filterMap_map]
        rfl

/-- After some switches were turned on, those are set to their values and the others are off. A
    last command that could not be started makes no difference. Two switches have different
    files, so of all the commands only those for its own file decide about a switch. -/
theorem setting_of_written {written : List Switch} (hwritten : ∀ s ∈ written, s ∈ all)
    {dialogue : List (String × Answer)}
    (hcommands : dialogue.map Prod.fst = written.map onCommand)
    (hok : ∀ e ∈ dialogue, e.2.isOk = true) {failed : List (String × Answer)}
    (hfailed : ∀ e ∈ failed, e.2.isOk = false) {t : Switch} (ht : t ∈ all) :
    setting t.path (dialogue ++ failed) = if t ∈ written then t.on else "0" := by
  -- What could not be started has written nothing, and the rest wrote each its own value.
  have hnone : (failed.filterMap fun e => if e.2.isOk then written? t.path e.1 else none) = [] :=
    List.filterMap_eq_nil_iff.mpr fun e he => if_neg (Bool.not_eq_true _ ▸ hfailed e he)
  have hvalues : (dialogue.filterMap fun e => if e.2.isOk then written? t.path e.1 else none)
      = written.filterMap fun s => if s = t then some t.on else none := by
    rw [filterMap_written hcommands hok]
    exact List.filterMap_congr fun s hs => written?_onCommand s (hwritten s hs) t ht
  rw [setting, List.filterMap_append, hnone, hvalues, List.append_nil]
  by_cases hmem : t ∈ written
  · -- Every value that was written to the file is the same.
    rw [if_pos hmem]
    cases hlast : (written.filterMap fun s => if s = t then some t.on else none).getLast? with
    | none =>
      rw [List.getLast?_eq_none_iff, List.filterMap_eq_nil_iff] at hlast
      exact absurd ((if_pos rfl).symm.trans (hlast t hmem)) (Option.some_ne_none t.on)
    | some value =>
      rcases List.mem_filterMap.mp (List.mem_of_getLast? hlast) with ⟨s, _, hs⟩
      split at hs
      · cases hs
        rfl
      · cases hs
  · rw [if_neg hmem, List.filterMap_eq_nil_iff.mpr]
    · rfl
    · intro s hs
      refine if_neg fun heq => hmem ?_
      rwa [← heq]

/-- After some switches were turned on and another one could not be, they are undone only
    if there are none. -/
theorem undone_iff {written : List Switch} (hwritten : ∀ s ∈ written, s ∈ all) {t : Switch}
    (ht : t ∈ all) {dialogue : List (String × Answer)}
    (hcommands : dialogue.map Prod.fst = written.map onCommand)
    (hok : ∀ e ∈ dialogue, e.2.isOk = true) (f : SpawnFailure) :
    Undone (dialogue ++ [(onCommand t, .error f)]) ↔ written = [] := by
  constructor
  · -- Nothing but commands that turn switches on was asked.
    intro hundone
    refine List.eq_nil_iff_forall_not_mem.mpr fun u hu => ?_
    rcases List.mem_map.mp (hcommands ▸ List.mem_map_of_mem hu) with ⟨e, he, hasks⟩
    have hoff := hundone u (hwritten u hu) ⟨e, List.mem_append_left _ he, hasks, hok e he⟩
    rw [List.map_append, hcommands, List.mem_append] at hoff
    rcases hoff with hoff | hoff
    · rcases List.mem_map.mp hoff with ⟨v, hv, hcommand⟩
      exact onCommand_ne_offCommand v (hwritten v hv) u (hwritten u hu) hcommand
    · exact onCommand_ne_offCommand t ht u (hwritten u hu) (List.mem_singleton.mp hoff).symm
  · -- Nothing could be started at all.
    rintro rfl
    rw [List.map_nil, List.map_eq_nil_iff] at hcommands
    rw [hcommands]
    rintro u - ⟨e, he, -, hstarted⟩
    rw [List.mem_singleton.mp he] at hstarted
    cases hstarted

end Switches

namespace KernelLogging

open Switches

variable {σ : Type}

/-- What an attempt to turn all switches on leaves behind. Either it succeeds, and all of
    them are on, or it stops at one that cannot be written: then those before it are on,
    the others are off, nothing else has been written, and what was turned on has been
    undone only if it was nothing. -/
theorem enable_leaves (shell : Shell σ) (s : σ) :
    ∃ on off, all = on ++ off ∧
      (∀ t ∈ on, setting t.path (enable.transcript shell s) = t.on) ∧
      (∀ t ∈ off, setting t.path (enable.transcript shell s) = "0") ∧
      ((off = [] ∧ (enable.run shell s).1 = .ok ⟨true⟩ ∧
          enable.commands shell s = all.map onCommand) ∨
        ∃ t rest f, off = t :: rest ∧ (enable.run shell s).1 = .error (.spawn f) ∧
          enable.commands shell s = (on ++ [t]).map onCommand ∧
          (Undone (enable.transcript shell s) ↔ on = [])) := by
  -- Making the guard adds no command, so the attempt says what its writing says.
  have hrun : (enable.run shell s).1
      = ((writeAll (all.map onCommand)).run shell s).1.map fun _ => (⟨true⟩ : KernelLogging) := by
    rw [enable, Script.run_bind]
    rfl
  have htranscript : enable.transcript shell s
      = (writeAll (all.map onCommand)).transcript shell s := by
    rw [enable, Script.transcript_bind]
    exact List.append_nil _
  rw [Script.commands, hrun, htranscript]
  rcases writeAll_cases onCommand all shell s with
    ⟨on, off, dialogue, hsplit, hcommands, hok, hend⟩
  -- No switch is on both sides of the split, so none is turned on and reported as off.
  have hdistinct : (on ++ off).Nodup := hsplit ▸ (by decide)
  have hon : ∀ t ∈ on, t ∈ all := fun t ht => hsplit ▸ List.mem_append_left off ht
  have hoff : ∀ t ∈ off, t ∈ all := fun t ht => hsplit ▸ List.mem_append_right on ht
  have hnever : ∀ t ∈ off, t ∉ on := fun t ht hmem =>
    (List.nodup_append.mp hdistinct).2.2 t hmem t ht rfl
  refine ⟨on, off, hsplit, ?_⟩
  rcases hend with ⟨rfl, houtcome, hdialogue⟩ | ⟨t, rest, f, rfl, houtcome, hdialogue⟩
  · have hset := fun t ht =>
      setting_of_written (t := t) hon hcommands hok (List.forall_mem_nil _) ht
    rw [List.append_nil] at hset hsplit
    refine ⟨fun t ht => ?_, List.forall_mem_nil _, Or.inl ⟨rfl, ?_, ?_⟩⟩
    · rw [hdialogue, hset t (hon t ht), if_pos ht]
    · rw [houtcome]
      rfl
    · rw [hdialogue, hcommands, hsplit]
  · have hfailed : ∀ e ∈ [(onCommand t, (.error f : Answer))], e.2.isOk = false := by
      intro e he
      rw [List.mem_singleton.mp he]
      rfl
    have hset := fun u hu => setting_of_written (t := u) hon hcommands hok hfailed hu
    refine ⟨fun u hu => ?_, fun u hu => ?_, Or.inr ⟨t, rest, f, rfl, ?_, ?_, ?_⟩⟩
    · rw [hdialogue, hset u (hon u hu), if_pos hu]
    · rw [hdialogue, hset u (hoff u hu), if_neg (hnever u hu)]
    · rw [houtcome]
      rfl
    · rw [hdialogue, List.map_append, hcommands, List.map_append]
      rfl
    -- Nobody takes the values back, so what is undone is that of no switch at all.
    · rw [hdialogue]
      exact undone_iff hon (hoff t (List.mem_cons_self ..)) hcommands hok f

/-- The second switch cannot be written, and the first one stays on. -/
theorem enable_not_undone :
    let recording := Recording.empty.push "echo 1 >> /sys/kernel/debug/camera_sync" .spawnFailure
    let dialogue := enable.transcript Recording.shell recording
    (enable.run Recording.shell recording).1.isOk = false ∧ ¬ Undone dialogue ∧
      setting "/sys/kernel/debug/adsprpc/global" dialogue = "1" := by
  decide +kernel

end KernelLogging

end AccelMonitor
