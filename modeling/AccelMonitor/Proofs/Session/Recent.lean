import AccelMonitor.Proofs.DeviceLog.Calendar
import AccelMonitor.Proofs.Session.Streams

/-!
# The Recent Lines

Which device lines a session keeps for display, and which it drops.

The log is a suffix of everything that was ever added to it, so what is dropped was added
before what is kept. That is not yet to say that it is older. A snapshot is added tag after
tag, and the times start over with each tag. If a snapshot does not fit as a whole, the
newest line of a tag can be dropped while older lines of a later tag stay.

Between snapshots this cannot happen: if none has a line that is older than one of an
earlier snapshot, a dropped line is more recent than a kept one only within the snapshot
that the cut goes through.

## Main definitions

* `MoreRecent`: One line has a later time than another.
* `DeviceSnapshot.Before`: One line stands before another in a snapshot.
* `Session.freshSnapshots`, `Session.linesOf`: The snapshots and lines that are added to the log.

## Theorems

* `lastOnes_append`: The last values can be taken again after each addition.
* `mem_cut`: Two values on different sides of a cut.
* `log_step`, `log_run`: What an event and a run make of the log.
* `dropped_before`: What is dropped is at most as recent, unless it is from the same snapshot.
* `newest_dropped`: The newest of all lines can be dropped.
-/

namespace AccelMonitor

/-- Both lines have a time, and that of the first is the later one. -/
def MoreRecent (line other : String) : Prop :=
  ∃ t u, DeviceReader.timeOf line = some t ∧ DeviceReader.timeOf other = some u ∧ u.rank < t.rank

namespace DeviceSnapshot

/-- No line is more recent than one of a later snapshot. -/
def NoLater (earlier later : DeviceSnapshot) : Prop :=
  ∀ line ∈ Session.allLines earlier.lines, ∀ other ∈ Session.allLines later.lines,
    ¬ MoreRecent line other

/-- A line that stands before another in a snapshot. Lines of one tag stand in the order in
    which the device printed them, and tags stand in the order of their names, whatever the
    times are. -/
inductive Before (snapshot : DeviceSnapshot) (line other : String) : Prop where
  /-- Its tag comes first. -/
  | tag (entry entry' : String × List String) (hentry : entry ∈ snapshot.lines.toList)
      (hentry' : entry' ∈ snapshot.lines.toList) (hlt : entry.1 < entry'.1)
      (hline : line ∈ entry.2) (hother : other ∈ entry'.2)
  /-- Both have one tag. -/
  | line (entry : String × List String) (hentry : entry ∈ snapshot.lines.toList)
      (hsub : [line, other].Sublist entry.2)

end DeviceSnapshot

/-- The last values are what is left when others are dropped. -/
theorem exists_append_lastOnes {α : Type} (n : Nat) (l : List α) :
    ∃ dropped, dropped ++ lastOnes n l = l ∧ (lastOnes n l).length = min n l.length := by
  refine ⟨_, List.take_append_drop (l.length - n) l, ?_⟩
  rw [lastOnes, List.length_drop]
  omega

/-- What is dropped first does not come back: the last values can be taken again after each
    addition. -/
theorem lastOnes_append {α : Type} (n : Nat) (l m : List α) :
    lastOnes n (lastOnes n l ++ m) = lastOnes n (l ++ m) := by
  have hfirst : l.drop (l.length - n) ++ m = (l ++ m).drop (l.length - n) :=
    (List.drop_append_of_le_length (Nat.sub_le ..)).symm
  rw [lastOnes, lastOnes, lastOnes, hfirst, List.drop_drop]
  congr 1
  rw [List.length_drop, List.length_append]
  omega

/-- Two values on different sides of a cut come from two parts in that order, or from the part
    that is cut. It is used twice, as lines come in snapshots and the lines of a snapshot come
    tag by tag: a line that was dropped and one that was kept are of two snapshots, or of two
    tags, or of one list. -/
theorem mem_cut {α β : Type} {f : α → List β} {parts : List α} {front back : List β}
    (h : parts.flatMap f = front ++ back) {b b' : β} (hb : b ∈ front) (hb' : b' ∈ back) :
    (∃ part part', [part, part'].Sublist parts ∧ b ∈ f part ∧ b' ∈ f part') ∨
      ∃ part ∈ parts, ∃ start rest, f part = start ++ rest ∧ b ∈ start ∧ b' ∈ rest := by
  induction parts generalizing front with
  | nil =>
    rw [List.flatMap_nil, List.nil_eq_append_iff] at h
    rw [h.1] at hb
    cases hb
  | cons first parts ih =>
    -- A value of the first part stands before those of all others.
    have hlater : b ∈ f first → b' ∈ parts.flatMap f →
        ∃ part part', [part, part'].Sublist (first :: parts) ∧ b ∈ f part ∧ b' ∈ f part' := by
      intro hfirst hmem
      rcases List.mem_flatMap.mp hmem with ⟨part', hpart', hb'⟩
      exact ⟨first, part', (List.singleton_sublist.mpr hpart').cons_cons first, hfirst, hb'⟩
    rw [List.flatMap_cons, List.append_eq_append_iff] at h
    -- The cut lies behind the first part, or in it.
    rcases h with ⟨rest, rfl, hrest⟩ | ⟨rest, hcut, rfl⟩
    · rcases List.mem_append.mp hb with hfirst | hmem
      · refine Or.inl (hlater hfirst ?_)
        rw [hrest]
        exact List.mem_append_right rest hb'
      · rcases ih hrest hmem with ⟨part, part', hsub, hparts⟩ | ⟨part, hpart, hparts⟩
        · exact Or.inl ⟨part, part', hsub.cons first, hparts⟩
        · exact Or.inr ⟨part, List.mem_cons_of_mem first hpart, hparts⟩
    · rcases List.mem_append.mp hb' with hmem | hmem
      · exact Or.inr ⟨first, List.mem_cons_self .., front, rest, hcut, hb, hmem⟩
      · refine Or.inl (hlater ?_ hmem)
        rw [hcut]
        exact List.mem_append_left rest hb

/-- Lines on different sides of a cut through a snapshot stand in that order. -/
theorem DeviceSnapshot.before_of_cut {snapshot : DeviceSnapshot} {front back : List String}
    (h : Session.allLines snapshot.lines = front ++ back) {line other : String}
    (hline : line ∈ front) (hother : other ∈ back) : snapshot.Before line other := by
  -- It is between two tags, which are in the order of the table, or within one.
  rcases mem_cut h hline hother with
    ⟨entry, entry', hsub, hl, ho⟩ | ⟨entry, hentry, start, rest, heq, hl, ho⟩
  · have hlt := List.pairwise_iff_forall_sublist.mp Std.ExtTreeMap.ordered_keys_toList hsub
    exact .tag entry entry' (hsub.mem (List.mem_cons_self ..))
      (hsub.mem (List.mem_cons_of_mem _ (List.mem_cons_self ..)))
      (compareOfLessAndEq_eq_lt.mp hlt) hl ho
  · refine .line entry hentry ?_
    rw [heq]
    exact (List.singleton_sublist.mpr hl).append (List.singleton_sublist.mpr ho)

namespace Session

/-- The snapshots among some events that are added to the log. -/
def freshSnapshots (events : List SessionEvent) : List DeviceSnapshot :=
  (events.filterMap SessionEvent.device?).filter DeviceSnapshot.fresh

/-- The lines of some snapshots, in the order in which they are added to the log. -/
def linesOf (snapshots : List DeviceSnapshot) : List String :=
  snapshots.flatMap fun snapshot => allLines snapshot.lines

/-- Only device snapshots change the log. The benchmarks that are pending and the statistics are
    other fields, so the cases are the events with what they change. -/
theorem log_step (event : SessionEvent) (s : Session) :
    (s.step event).log = event.device?.elim s.log (keepLines s.log) := by
  cases event with
  | kernel snapshot =>
    rw [step, applyKernel_eq]
    rfl
  | device snapshot =>
    rw [step, applyDevice_eq]
    rfl
  | loads loads => rfl
  | track framework => rfl
  | deliver number result =>
    rcases updateHandle_eq s number (·.deliver result) with ⟨pending, heq⟩
    rw [step, deliver, heq]
    rfl
  | abandon number =>
    rcases updateHandle_eq s number Handle.abandon with ⟨pending, heq⟩
    rw [step, abandon, heq]
    rfl
  | poll =>
    rw [step, poll, pollFrom_eq]
    rfl
  | clear => rfl

/-- Cutting the log after each snapshot comes to cutting it once at the end. Stale snapshots add
    nothing. -/
theorem foldl_keepLines (snapshots : List DeviceSnapshot) (lines : List String) :
    snapshots.foldl keepLines (lastOnes logLimit lines)
      = lastOnes logLimit (lines ++ linesOf (snapshots.filter DeviceSnapshot.fresh)) := by
  induction snapshots generalizing lines with
  | nil => rw [List.foldl_nil, List.filter_nil, linesOf, List.flatMap_nil, List.append_nil]
  | cons snapshot snapshots ih =>
    rw [List.foldl_cons, keepLines]
    cases hfresh : snapshot.fresh with
    | true =>
      rw [if_pos rfl, lastOnes_append, ih, List.filter_cons_of_pos hfresh, linesOf, linesOf,
        List.flatMap_cons, List.append_assoc]
    | false =>
      rw [if_neg Bool.false_ne_true, ih,
        List.filter_cons_of_neg (by rw [hfresh]; exact Bool.false_ne_true)]

/-- The log is what was added last. -/
theorem log_run (framework : Framework) (runs : Nat) (events : List SessionEvent) :
    ((start framework runs).run events).log
      = lastOnes logLimit (linesOf (freshSnapshots events)) := by
  have hnone : (start framework runs).log = lastOnes logLimit [] := List.drop_nil.symm
  rw [run_part Session.log SessionEvent.device? keepLines fun event _ s => log_step event s,
    hnone, foldl_keepLines, List.nil_append, freshSnapshots]

/-- Whatever the events are, the log has all lines that were added, or as many as it may have
    of those that were added last. If no fresh snapshot has a line that is
    more recent than one of a later snapshot, a line that was dropped can be more recent than
    one that was kept only if it stands before it in the same snapshot. -/
theorem dropped_before (framework : Framework) (runs : Nat) {events : List SessionEvent}
    (hordered : (freshSnapshots events).Pairwise DeviceSnapshot.NoLater) :
    let log := ((start framework runs).run events).log
    let added := linesOf (freshSnapshots events)
    log.length = min logLimit added.length ∧ ∃ dropped, dropped ++ log = added ∧
      ∀ line ∈ dropped, ∀ kept ∈ log, MoreRecent line kept →
        ∃ snapshot ∈ freshSnapshots events, snapshot.Before line kept := by
  intro log added
  have hlog : log = lastOnes logLimit added := log_run framework runs events
  rcases exists_append_lastOnes logLimit added with ⟨dropped, hdropped, hlength⟩
  rw [← hlog] at hdropped hlength
  refine ⟨hlength, dropped, hdropped, fun line hline kept hkept hrecent => ?_⟩
  -- The cut is between two snapshots, which are in the order of time, or it goes through one.
  rcases mem_cut hdropped.symm hline hkept with
    ⟨earlier, later, hsub, hl, hk⟩ | ⟨snapshot, hmem, front, back, heq, hl, hk⟩
  · exact absurd hrecent
      (List.pairwise_iff_forall_sublist.mp hordered hsub line hl kept hk)
  · exact ⟨snapshot, hmem, DeviceSnapshot.before_of_cut heq hl hk⟩

/-- The case of two snapshots, a second apart. Both of their lines fit, so none is dropped. -/
theorem dropped_before_second :
    let first : DeviceSnapshot := ⟨.ofList [("tflite",
      ["05-13 23:23:07.000  1234  1250 I tflite  : Invoke"])], true⟩
    let second : DeviceSnapshot := ⟨.ofList [("ExecutionBuilder",
      ["05-13 23:23:08.000  1234  1250 I ExecutionBuilder: finish"])], true⟩
    let log := ((start .tflite 1).run [.device first, .poll, .device second]).log
    let added := linesOf (freshSnapshots [.device first, .poll, .device second])
    [first, second].Pairwise DeviceSnapshot.NoLater ∧ log.length = min logLimit added.length ∧
      ∃ dropped, dropped ++ log = added ∧ ∀ line ∈ dropped, ∀ kept ∈ log, MoreRecent line kept →
        ∃ snapshot ∈ [first, second], snapshot.Before line kept := by
  intro first second log added
  have hfirst : allLines first.lines = ["05-13 23:23:07.000  1234  1250 I tflite  : Invoke"] := by
    decide +kernel
  have hsecond : allLines second.lines
      = ["05-13 23:23:08.000  1234  1250 I ExecutionBuilder: finish"] := by
    decide +kernel
  -- The times of the two lines are computed, and the first is the earlier one.
  have hordered : [first, second].Pairwise DeviceSnapshot.NoLater := by
    rw [List.pairwise_pair, DeviceSnapshot.NoLater, hfirst, hsecond]
    simp only [List.forall_mem_singleton]
    rintro ⟨t, u, ht, hu, hlt⟩
    have ht' : t = ⟨5, 13, 23, 23, 7, 0⟩ := Option.some.inj (ht.symm.trans (by decide +kernel))
    have hu' : u = ⟨5, 13, 23, 23, 8, 0⟩ := Option.some.inj (hu.symm.trans (by decide +kernel))
    rw [ht', hu'] at hlt
    revert hlt
    decide
  exact ⟨hordered, dropped_before .tflite 1 hordered⟩

/-- The newest of all lines can be dropped. Its tag comes first, so a thousand older lines
    were added after it. -/
theorem newest_dropped :
    let newest := "05-13 23:23:09.000  1234  1250 I ExecutionBuilder: finish"
    let older := "05-13 23:23:08.000  1234  1250 I tflite  : Invoke"
    let snapshot : DeviceSnapshot := ⟨.ofList [("ExecutionBuilder", [newest]),
      ("tflite", List.replicate 1000 older)], true⟩
    let log := ((start .tflite 1).run [.device snapshot]).log
    (∀ line ∈ allLines snapshot.lines, (DeviceReader.timeOf line).isSome) ∧
      (freshSnapshots [.device snapshot]).Pairwise DeviceSnapshot.NoLater ∧
      newest :: log = linesOf (freshSnapshots [.device snapshot]) ∧ older ∈ log ∧
      MoreRecent newest older := by
  intro newest older snapshot log
  have hadded : allLines snapshot.lines = newest :: List.replicate 1000 older := by
    decide +kernel
  have hlog : log = List.replicate 1000 older := by
    decide +kernel
  have hnewest : DeviceReader.timeOf newest = some ⟨5, 13, 23, 23, 9, 0⟩ := by
    decide +kernel
  have holder : DeviceReader.timeOf older = some ⟨5, 13, 23, 23, 8, 0⟩ := by
    decide +kernel
  refine ⟨?_, List.pairwise_singleton .., ?_, ?_, _, _, hnewest, holder, by decide⟩
  · rw [hadded, List.forall_mem_cons]
    refine ⟨hnewest ▸ rfl, fun line hline => ?_⟩
    rw [List.eq_of_mem_replicate hline, holder]
    rfl
  · rw [hlog, ← hadded]
    exact (List.append_nil _).symm
  · rw [hlog]
    exact List.mem_replicate.mpr ⟨by decide, rfl⟩

end Session

end AccelMonitor
