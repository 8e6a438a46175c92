import AccelMonitor.Proofs.DeviceLog.Reading

/-!
# Delivery from the Device Log

What a reader gets from a device that answers by time.

The device keeps all lines and, asked for those from a time on, gives the ones that are
not before it. The reader asks for everything until a line has come, and from then on
for what is at or after the millisecond that follows the newest line. As long as lines
that are appended later have a later time, this is exactly what has been appended since,
whichever readings failed and whichever came back empty.

So the batches of the readings, put one after the other, are the log as it was fetched
last. Every line is in one of them, once and in order. The first batch that is not empty
may be older than the session and is never fresh. Every later one is.

## Main definitions

* `DeviceReader.wholeCommand`: Asks for everything.
* `AnswersByTime`: The device answers by time.
* `Following`: The device's log, the reader and what it read.
* `Following.GrowsBy`: Lines that the device may append.
* `Following.Reached`: The states of all runs.
* `Following.Settled`: The invariant of all runs.
* `Following.Delivered`: What was delivered.

## Theorems

* `filter_seam`, `selected_unread`: A reading selects what has not been fetched.
* `Settled.append`, `Settled.poll`, `Reached.settled`: The invariant.
* `delivered_by_time`: Every line that was fetched is delivered once.
-/

namespace AccelMonitor

namespace DeviceReader

/-- The command that asks for all lines of some tags. -/
def wholeCommand (tags : List LogTag) : String :=
  "logcat -d -v threadtime -s "
    ++ String.ofList (Text.joinWith [' '] (tags.map fun t => (t.name ++ ":V").toList))

theorem command_of_none {r : DeviceReader} (h : r.watermark = none) :
    r.command = wholeCommand r.tags := by
  rw [command, h]
  rfl

theorem command_of_some {r : DeviceReader} {t : LogTime} (h : r.watermark = some t) :
    r.command = wholeCommand r.tags ++ " -T '" ++ t.text ++ "'" := by
  rw [command, h]
  rfl

end DeviceReader

/-- Without a time the device gives all lines, and with one those that are not before it,
    in their order. A time is given by its stamp. -/
structure AnswersByTime (tags : List LogTag) (select : List DeviceLine → String → List DeviceLine) :
    Prop where
  whole : ∀ log, select log (DeviceReader.wholeCommand tags) = log
  since : ∀ log stamp t, LogTime.ofStamp? stamp.toList = some t →
    select log (DeviceReader.wholeCommand tags ++ " -T '" ++ stamp ++ "'")
      = log.filter fun l => t.rank ≤ l.time.rank

/-- What came of a reading. -/
structure DeviceReading where
  /-- The lines that the device gave. -/
  batch : List DeviceLine
  /-- What the reader published. -/
  snapshot : DeviceSnapshot

/-- A device with its log, and a reader that follows it. -/
structure Following where
  reader : DeviceReader
  log : List DeviceLine
  /-- The log at the last reading that did not fail. -/
  fetched : List DeviceLine
  /-- The readings that did not fail, oldest first. -/
  readings : List DeviceReading

namespace Following

/-- The device appends some lines. -/
def append (w : Following) (lines : List DeviceLine) : Following :=
  { w with log := w.log ++ lines }

/-- The device as a shell, which may fail. -/
def shell (select : List DeviceLine → String → List DeviceLine) (failure : Option SpawnFailure) :
    Shell (List DeviceLine) where
  answer command log :=
    match failure with
    | some f => (.error f, log)
    | none => (.ok ((select log command).map DeviceLine.text), log)

/-- The reader reads once more, and the command may fail. -/
def poll (select : List DeviceLine → String → List DeviceLine) (w : Following)
    (failure : Option SpawnFailure) : Following :=
  let reader := w.reader.after (w.reader.readNext.run (shell select failure) w.log).1
  match failure with
  | some _ => { w with reader }
  | none =>
    { w with
      reader, fetched := w.log
      readings := w.readings ++ [⟨select w.log w.reader.command, reader.published⟩] }

/-- The lines carry watched tags and go on in the order of time within a year. They are later
    than the last line of every reading so far, since a line with the same time as one that was
    read already would be taken for an old one. -/
structure GrowsBy (tags : List LogTag) (w : Following) (lines : List DeviceLine) : Prop where
  watched : ∀ l ∈ lines, l.tag ∈ tags
  inYear : ∀ l ∈ lines, l.time ≠ LogTime.last
  ordered : (w.log ++ lines).Pairwise fun l l' => l.time.rank ≤ l'.time.rank
  later : ∀ reading ∈ w.readings, ∀ newest ∈ reading.batch.getLast?, ∀ l ∈ lines,
    newest.time.rank < l.time.rank

/-- The state can be reached from a new reader in front of an empty log. -/
inductive Reached (tags : List LogTag) (select : List DeviceLine → String → List DeviceLine) :
    Following → Prop where
  | start (r : DeviceReader) (hr : DeviceReader.start tags = .ok r) :
      Reached tags select ⟨r, [], [], []⟩
  | append (w : Following) (lines : List DeviceLine) (hw : Reached tags select w)
      (hlines : w.GrowsBy tags lines) : Reached tags select (w.append lines)
  | poll (w : Following) (failure : Option SpawnFailure) (hw : Reached tags select w) :
      Reached tags select (w.poll select failure)

/-- The batches of some readings, put one after the other. -/
def batches (readings : List DeviceReading) : List DeviceLine :=
  readings.flatMap DeviceReading.batch

theorem batches_concat (readings : List DeviceReading) (reading : DeviceReading) :
    batches (readings ++ [reading]) = batches readings ++ reading.batch := by
  simp only [batches, List.flatMap_append, List.flatMap_cons, List.flatMap_nil, List.append_nil]

/-- The newest line of all is the newest one of some reading. -/
theorem exists_newest {readings : List DeviceReading} {newest : DeviceLine}
    (h : newest ∈ (batches readings).getLast?) :
    ∃ reading ∈ readings, newest ∈ reading.batch.getLast? := by
  induction readings with
  | nil => cases h
  | cons reading readings ih =>
    have hsplit : batches (reading :: readings) = reading.batch ++ batches readings := rfl
    rw [hsplit, List.getLast?_append, Option.mem_def, Option.or_eq_some_iff] at h
    rcases h with h | ⟨_, h⟩
    · rcases ih h with ⟨found, hfound, hnewest⟩
      exact ⟨found, List.mem_cons_of_mem reading hfound, hnewest⟩
    · exact ⟨reading, List.mem_cons_self .., h⟩

/-- The lines were filed under their tags, and they are fresh if there are any and some
    have come before. -/
def Sound (tags : List LogTag) (readings : List DeviceReading) : Prop :=
  ∀ before reading after, readings = before ++ reading :: after →
    DeviceReader.Filed tags reading.snapshot.lines reading.batch ∧
      reading.snapshot.fresh = (!(batches before).isEmpty && !reading.batch.isEmpty)

theorem Sound.concat {tags : List LogTag} {readings : List DeviceReading} {reading : DeviceReading}
    (hs : Sound tags readings)
    (hfiled : DeviceReader.Filed tags reading.snapshot.lines reading.batch)
    (hfresh : reading.snapshot.fresh
      = (!(batches readings).isEmpty && !reading.batch.isEmpty)) :
    Sound tags (readings ++ [reading]) := by
  intro before found after heq
  rcases List.eq_nil_or_concat after with rfl | ⟨after, newest, rfl⟩
  · have hparts := List.append_inj' heq rfl
    rw [← hparts.1, ← List.singleton_inj.mp hparts.2]
    exact ⟨hfiled, hfresh⟩
  · rw [List.concat_eq_append, ← List.cons_append, ← List.append_assoc] at heq
    exact hs before found after (List.append_inj' heq rfl).1

/-- What holds after every run. -/
structure Settled (tags : List LogTag) (w : Following) : Prop where
  tags_eq : w.reader.tags = tags
  watched : ∀ l ∈ w.log, l.tag ∈ tags
  inYear : ∀ l ∈ w.log, l.time ≠ LogTime.last
  ordered : w.log.Pairwise fun l l' => l.time.rank ≤ l'.time.rank
  delivered : batches w.readings = w.fetched
  sound : Sound tags w.readings
  watermark : w.reader.watermark = w.fetched.getLast?.map fun l => l.time.next
  /-- What was not fetched yet is later than what was. -/
  unread : ∃ unread, w.log = w.fetched ++ unread ∧
    ∀ newest ∈ w.fetched.getLast?, ∀ l ∈ unread, newest.time.rank < l.time.rank

variable {tags : List LogTag} {select : List DeviceLine → String → List DeviceLine}
  {w : Following}

/-- A reader that starts has read nothing, so nothing can be missing or out of order. -/
theorem settled_start {r : DeviceReader} (hr : DeviceReader.start tags = .ok r) :
    Settled tags ⟨r, [], [], []⟩ := by
  have hparts : r.tags = tags ∧ r.watermark = none := by
    rw [DeviceReader.start] at hr
    split at hr
    · cases hr
    · cases hr
      exact ⟨rfl, rfl⟩
  refine ⟨hparts.1, List.forall_mem_nil _, List.forall_mem_nil _, List.Pairwise.nil, rfl, ?_,
    hparts.2, [], rfl, fun _ _ => List.forall_mem_nil _⟩
  intro before reading after heq
  cases before with
  | nil => cases heq
  | cons _ _ => cases heq

theorem le_newest {log : List DeviceLine} {newest : DeviceLine}
    (hordered : log.Pairwise fun l l' => l.time.rank ≤ l'.time.rank)
    (hnewest : newest ∈ log.getLast?) : ∀ l ∈ log, l.time.rank ≤ newest.time.rank := by
  rcases List.getLast?_eq_some_iff.mp hnewest with ⟨front, rfl⟩
  intro l hl
  rcases List.mem_append.mp hl with hl | hl
  · exact (List.pairwise_append.mp hordered).2.2 l hl newest (List.mem_singleton_self newest)
  · cases List.mem_singleton.mp hl
    exact Nat.le_refl _

/-- The next millisecond after the newest line is the seam: what was fetched is not after
    it, and the rest is. -/
theorem filter_seam {fetched unread : List DeviceLine} {newest : DeviceLine}
    (hordered : fetched.Pairwise fun l l' => l.time.rank ≤ l'.time.rank)
    (hnewest : newest ∈ fetched.getLast?) (hinYear : newest.time ≠ LogTime.last)
    (hlater : ∀ l ∈ unread, newest.time.rank < l.time.rank) :
    ((fetched ++ unread).filter fun l => newest.time.next.rank ≤ l.time.rank) = unread := by
  have hiff : ∀ l : DeviceLine,
      newest.time.next.rank ≤ l.time.rank ↔ newest.time.rank < l.time.rank :=
    fun l => LogTime.next_le_iff newest.time_regular hinYear l.time_regular
  have hnone : (fetched.filter fun l => newest.time.next.rank ≤ l.time.rank) = [] := by
    rw [List.filter_eq_nil_iff]
    intro l hl
    have hle := le_newest hordered hnewest l hl
    rw [decide_eq_true_eq, hiff]
    omega
  have hall : (unread.filter fun l => newest.time.next.rank ≤ l.time.rank) = unread := by
    rw [List.filter_eq_self]
    intro l hl
    rw [decide_eq_true_eq, hiff]
    exact hlater l hl
  rw [List.filter_append, hnone, hall, List.nil_append]

/-- A reading selects what has not been fetched. The lines of the log are in the order of time,
    so the device, which only compares times, cuts it where the reader has stopped. Nothing else
    marks that place: the watermark is the next millisecond after the newest line, and no line
    has a time between the two. -/
theorem selected_unread (hselect : AnswersByTime tags select) (hs : w.Settled tags)
    {unread : List DeviceLine} (hlog : w.log = w.fetched ++ unread)
    (hlater : ∀ newest ∈ w.fetched.getLast?, ∀ l ∈ unread, newest.time.rank < l.time.rank) :
    select w.log w.reader.command = unread := by
  -- The watermark is behind the newest line that was fetched, if there was one.
  have hwatermark := hs.watermark
  cases hfetched : w.fetched.getLast? with
  | none =>
    -- Nothing was fetched so far, so everything is asked for.
    rw [hfetched] at hwatermark
    rw [DeviceReader.command_of_none hwatermark, hs.tags_eq, hselect.whole, hlog,
      List.getLast?_eq_none_iff.mp hfetched, List.nil_append]
  | some newest =>
    rw [hfetched] at hwatermark
    have hmem : newest ∈ w.log := by
      rw [hlog]
      exact List.mem_append_left unread (List.mem_of_getLast? hfetched)
    -- The reader writes the stamp of the next millisecond, and the device reads it back.
    have hstamp : LogTime.ofStamp? newest.time.next.text.toList = some newest.time.next := by
      rw [LogTime.text, String.toList_ofList]
      exact LogTime.ofStamp?_chars
        (LogTime.isValid_of_isRegular (LogTime.isRegular_next newest.time_regular))
    have hordered := hs.ordered
    rw [hlog] at hordered
    rw [DeviceReader.command_of_some hwatermark, hs.tags_eq, hselect.since _ _ _ hstamp, hlog]
    exact filter_seam (List.pairwise_append.mp hordered).1 hfetched (hs.inYear newest hmem)
      (hlater newest hfetched)

namespace Settled

/-- What is appended waits to be read. It is later than all that was fetched, because it is later
    than the last line of every reading, and the newest line that was fetched is one of these. -/
theorem append (hs : w.Settled tags) {lines : List DeviceLine} (hlines : w.GrowsBy tags lines) :
    (w.append lines).Settled tags := by
  rcases hs.unread with ⟨unread, hlog, hlater⟩
  refine ⟨hs.tags_eq, ?_, ?_, hlines.ordered, hs.delivered, hs.sound, hs.watermark,
    unread ++ lines, ?_, ?_⟩
  · intro l hl
    rcases List.mem_append.mp hl with hl | hl
    · exact hs.watched l hl
    · exact hlines.watched l hl
  · intro l hl
    rcases List.mem_append.mp hl with hl | hl
    · exact hs.inYear l hl
    · exact hlines.inYear l hl
  · simp only [Following.append, hlog, List.append_assoc]
  · intro newest hnewest l hl
    rcases List.mem_append.mp hl with hl | hl
    · exact hlater newest hnewest l hl
    · -- The newest line that was fetched is the last one of some reading.
      have hfetched : newest ∈ (batches w.readings).getLast? := by
        rw [hs.delivered]
        exact hnewest
      rcases exists_newest hfetched with ⟨reading, hreading, hlast⟩
      exact hlines.later reading hreading newest hlast l hl

/-- A poll keeps the world settled. If the command fails, nothing was fetched, and what was
    appended so far is selected by the next poll that succeeds. Otherwise nothing is left
    unread. -/
theorem poll (hselect : AnswersByTime tags select) (hs : w.Settled tags)
    (failure : Option SpawnFailure) : (w.poll select failure).Settled tags := by
  -- A failed poll leaves the world as it was.
  cases failure with
  | some f => exact hs
  | none =>
    -- What was appended since is what this poll selects, files and publishes.
    rcases hs.unread with ⟨unread, hlog, hlater⟩
    have hselected := selected_unread hselect hs hlog hlater
    have hwatched : ∀ l ∈ unread, l.tag ∈ w.reader.tags := by
      intro l hl
      rw [hs.tags_eq]
      exact hs.watched l (hlog ▸ List.mem_append_right w.fetched hl)
    have hread : w.poll select none =
        { w with
          reader := w.reader.absorb (unread.map DeviceLine.text)
          fetched := w.log
          readings := w.readings
            ++ [⟨unread, (w.reader.absorb (unread.map DeviceLine.text)).published⟩] } := by
      rw [← hselected]
      rfl
    rw [hread]
    refine ⟨hs.tags_eq, hs.watched, hs.inYear, hs.ordered, ?_, hs.sound.concat ?_ ?_, ?_, [], ?_,
      fun _ _ => List.forall_mem_nil _⟩
    · rw [batches_concat, hs.delivered, hlog]
    · rw [← hs.tags_eq]
      exact DeviceReader.filed_absorb hwatched
    -- It is fresh if something is new and something was known before.
    · have hfresh := DeviceReader.fresh_absorb hwatched
      have hsome : w.fetched.getLast?.isSome = !w.fetched.isEmpty := by
        rw [Bool.eq_iff_iff, List.getLast?_isSome]
        rw [Bool.not_eq_true', List.isEmpty_eq_false_iff]
      rw [hs.watermark, Option.isSome_map, hsome] at hfresh
      rw [hs.delivered]
      exact hfresh
    · simp only [DeviceReader.watermark_absorb hwatched, hs.watermark, hlog, List.getLast?_append,
        Option.map_or]
    · exact (List.append_nil _).symm

end Settled

theorem Reached.settled (hselect : AnswersByTime tags select) (hw : Reached tags select w) :
    w.Settled tags := by
  induction hw with
  | start r hr => exact settled_start hr
  | append w lines _ hlines ih => exact ih.append hlines
  | poll w failure _ ih => exact ih.poll hselect failure

/-- What the readings have delivered, however often they failed and whatever was appended
    between them. -/
structure Delivered (tags : List LogTag) (w : Following) : Prop where
  /-- The batches are the log as it was fetched last: every line once and in order. -/
  once : w.readings.flatMap DeviceReading.batch = w.fetched
  fetched : w.fetched <+: w.log
  /-- Every watched tag has its lines of each batch, in order. -/
  filed : ∀ reading ∈ w.readings, ∀ tag ∈ tags, reading.snapshot.lines[tag.name]?
    = some ((reading.batch.filter fun l => l.tag = tag).map DeviceLine.text)
  /-- Up to the first batch with lines nothing is fresh, and from then on every batch with
      lines. -/
  fresh : ∀ before reading after, w.readings = before ++ reading :: after →
    (reading.snapshot.fresh = true
      ↔ reading.batch ≠ [] ∧ ∃ earlier ∈ before, earlier.batch ≠ [])

/-- In every run against a device that answers by time, every line that was fetched is
    delivered once, in order and under its tag, and all after the first ones are fresh. -/
theorem delivered_by_time (hselect : AnswersByTime tags select) (hw : Reached tags select w) :
    w.Delivered tags := by
  have hs := hw.settled hselect
  rcases hs.unread with ⟨unread, hlog, _⟩
  refine ⟨hs.delivered, ⟨unread, hlog.symm⟩, fun reading hreading => ?_, ?_⟩
  · rcases List.append_of_mem hreading with ⟨before, after, hsplit⟩
    exact (hs.sound before reading after hsplit).1
  · intro before reading after hsplit
    have hfresh := (hs.sound before reading after hsplit).2
    have hearlier : (batches before).isEmpty = false ↔ ∃ earlier ∈ before, earlier.batch ≠ [] := by
      rw [batches, ← Bool.not_eq_true, List.isEmpty_iff, List.flatMap_eq_nil_iff]
      simp only [not_forall, exists_prop, ne_eq]
    rw [hfresh, Bool.and_eq_true, Bool.not_eq_true', Bool.not_eq_true', hearlier,
      ← Bool.not_eq_true, List.isEmpty_iff]
    exact and_comm

/-- What stands in front of the time in a command. -/
def timeMark (tags : List LogTag) : List Char :=
  (DeviceReader.wholeCommand tags ++ " -T '").toList

/-- The time that stands between the quotes of a command, if there is one. -/
def askedTime? (tags : List LogTag) (command : String) : Option LogTime :=
  LogTime.ofStamp? (command.toList.drop (timeMark tags).length).dropLast

/-- A device that answers by time. -/
def selectByTime (tags : List LogTag) (log : List DeviceLine) (command : String) :
    List DeviceLine :=
  (askedTime? tags command).elim log fun t => log.filter fun l => t.rank ≤ l.time.rank

/-- A device that selects by the time it is asked for answers by time. The selection has to find
    the time in the text of the command again: the whole command has none, and behind any other it
    stands in quotes at the end. -/
theorem answersByTime_selectByTime (tags : List LogTag) :
    AnswersByTime tags (selectByTime tags) := by
  refine ⟨fun log => ?_, fun log stamp t ht => ?_⟩
  · -- The command for the whole log ends in front of the mark.
    have hnothing : (DeviceReader.wholeCommand tags).toList.drop (timeMark tags).length = [] := by
      rw [List.drop_eq_nil_iff, timeMark, String.toList_append, List.length_append]
      omega
    have hasked : askedTime? tags (DeviceReader.wholeCommand tags) = none := by
      rw [askedTime?, hnothing]
      rfl
    rw [selectByTime, hasked]
    rfl
  · have happend : ∀ a b : String, (a ++ b).toList = a.toList ++ b.toList :=
      fun _ _ => String.toList_append
    have hquoted : (stamp.toList ++ "'".toList).dropLast = stamp.toList := List.dropLast_concat
    have hasked : askedTime? tags (DeviceReader.wholeCommand tags ++ " -T '" ++ stamp ++ "'")
        = some t := by
      rw [askedTime?, happend _ "'", happend _ stamp, List.append_assoc, ← timeMark,
        List.drop_left, hquoted]
      exact ht
    rw [selectByTime, hasked]
    rfl

/-- A line in the last millisecond before a leap day. -/
def evening : DeviceLine :=
  { time := ⟨2, 28, 23, 59, 59, 999⟩, origin := "  1234  1250".toList, level := 'I'
    tag := .tflite, padding := "  ".toList, message := " done".toList
    time_regular := by decide, origin_plain := by decide
    level_valid := by decide, padding_blank := by decide }

/-- A line in the first millisecond of a leap day, whose message looks like a tag. -/
def midnight : DeviceLine :=
  { time := ⟨2, 29, 0, 0, 0, 0⟩, origin := "  1234  1251".toList, level := 'V'
    tag := .executionBuilder, padding := [], message := " I tflite: again".toList
    time_regular := by decide, origin_plain := by decide
    level_valid := by decide, padding_blank := by decide }

/-- A reading comes before the first line, one fails between the lines, and one comes after
    the last line. -/
theorem delivered_by_time_leapDay :
    ∃ w, Reached LogTag.all (selectByTime LogTag.all) w ∧ w.Delivered LogTag.all ∧
      w.fetched = [evening, midnight] ∧
      w.readings.map (fun reading => reading.snapshot.fresh) = [false, false, true, false] := by
  have hevening : Reached LogTag.all (selectByTime LogTag.all) _ :=
    .append _ [evening] (.poll _ none (.start _ rfl))
      ⟨by decide, by decide, by decide, by decide +kernel⟩
  have hmidnight := Reached.append _ [midnight]
    (.poll _ (some ⟨"logcat", "gone"⟩) (.poll _ none hevening))
    ⟨by decide, by decide, by decide, by decide +kernel⟩
  have hw := Reached.poll _ none (.poll _ none hmidnight)
  refine ⟨_, hw, delivered_by_time (answersByTime_selectByTime LogTag.all) hw, rfl, ?_⟩
  decide +kernel

end Following

end AccelMonitor
