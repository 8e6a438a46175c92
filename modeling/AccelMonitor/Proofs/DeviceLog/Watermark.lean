import AccelMonitor.Proofs.DeviceLog.Delivery
import AccelMonitor.Proofs.DeviceLog.Elapsed
import AccelMonitor.Proofs.DeviceLog.Stamp

/-!
# The Watermark on Any Output

What holds of a reader of the device log whatever the command prints.

The lines may be out of order, without a time, with a time that does not exist or of no
watched tag, and readings may fail. The watermark then still is the stamp of a time that
exists, from the first one on, because one millisecond after such a time there is another.
It is determined by one line of the output, the last one that carries a watched tag and
begins with a time. Lines without a time are filed like the others and move nothing.

The watermark is a text here, as it is in the command. It is empty as long as there is
none, so that the two cases of a reader are the two cases of its text.

## Main definitions

* `DeviceReader.run`: A reader after some readings.
* `DeviceReader.HasTime`: A line begins with the stamp of a time that exists.
* `DeviceReader.NewestTime`: The time of the last line that counts.
* `DeviceReader.Followed`: What a reading makes of a reader.

## Theorems

* `lastTime_tagged`, `newest_or_old`: Where the new watermark comes from.
* `get_absorb`, `mem_absorb`: What is listed after a reading.
* `followed_absorb`: A reading that does not fail.
* `isValid_run`, `tags_run`: The invariant of all runs.
* `watermark_follows`: All of it, after every run.
-/

namespace AccelMonitor

theorem LogTime.text_ne_empty (t : LogTime) : t.text ≠ "" := by
  intro h
  have hchars : t.chars = [] := by
    rw [← String.toList_ofList (l := t.chars), ← LogTime.text, h]
    rfl
  have hmark : '-' ∈ t.chars := by
    simp only [LogTime.chars, List.mem_append, List.mem_singleton, true_or, or_true]
  rw [hchars] at hmark
  exact absurd hmark List.not_mem_nil

namespace DeviceReader

/-- The reader after some readings, any of which may have failed. -/
def run (r : DeviceReader) (answers : List Answer) : DeviceReader :=
  answers.foldl (fun r answer => r.after (r.next answer)) r

/-- The lines of an output with the tag. -/
def linesOf (tags : List LogTag) (t : LogTag) (output : List String) : List String :=
  output.filter fun line => tagOf tags line = some t.name

/-- The line begins with the stamp of a time that exists. -/
def HasTime (line : String) (t : LogTime) : Prop :=
  t.isValid = true ∧ t.chars <+: line.toList

/-- The line carries a watched tag. -/
def IsWatched (tags : List LogTag) (line : String) : Prop :=
  ∃ t, Carries tags line.toList t

/-- The time of the last line of the output that carries a watched tag and has a time. -/
def NewestTime (tags : List LogTag) (output : List String) (t : LogTime) : Prop :=
  ∃ older line newer, output = older ++ line :: newer ∧ IsWatched tags line ∧ HasTime line t ∧
    ∀ l ∈ newer, IsWatched tags l → ∀ u, ¬ HasTime l u

/-- What a reading that does not fail makes of a reader. It is said of the text of the watermark
    and of the lines by tag, as the program's users see them, and not of how they are computed. -/
structure Followed (tags : List LogTag) (output : List String) (r r' : DeviceReader) : Prop where
  /-- The watermark is the millisecond after the newest time. -/
  moved : ∀ t, NewestTime tags output t → ∃ u, t.IsMilliAfter u ∧ r'.watermarkText = u.text
  stayed : (∀ t, ¬ NewestTime tags output t) → r'.watermarkText = r.watermarkText
  /-- The watched tags are listed, and nothing else. -/
  listed : ∀ name, name ∈ r'.lines ↔ ∃ t ∈ tags, t.name = name
  /-- Each has its lines, whole and in order. -/
  filed : ∀ t ∈ tags, r'.lines[t.name]? = some (linesOf tags t output)
  fresh : r'.fresh = true ↔ r.watermarkText ≠ "" ∧ ∃ t ∈ tags, linesOf tags t output ≠ []

theorem isWatched_iff {tags : List LogTag} {line : String} :
    IsWatched tags line ↔ (tagOf tags line).isSome = true := by
  rw [Option.isSome_iff_exists]
  constructor
  · rintro ⟨t, ht⟩
    exact ⟨t.name, tagOf_eq_name.mpr ht⟩
  · rintro ⟨name, hname⟩
    rcases tagOf_eq_some.mp hname with ⟨t, _, ht⟩
    exact ⟨t, ht⟩

/-- The time of a line that counts. -/
theorem datedOf_eq_some {tags : List LogTag} {line : String} {t : LogTime} :
    ((tagOf tags line).bind fun _ => timeOf line) = some t ↔
      IsWatched tags line ∧ HasTime line t := by
  rw [Option.bind_eq_some_iff, isWatched_iff, Option.isSome_iff_exists, HasTime, ← timeOf_eq_some]
  constructor
  · rintro ⟨name, hname, htime⟩
    exact ⟨⟨name, hname⟩, htime⟩
  · rintro ⟨⟨name, hname⟩, htime⟩
    exact ⟨name, hname, htime⟩

/-- The new watermark comes from the last line that counts, one that carries a watched tag and
    begins with the stamp of a time that exists. Lines behind it that have no stamp do not hide
    it. -/
theorem lastTime_tagged {tags : List LogTag} {output : List String} {t : LogTime} :
    lastTime (tagged tags output) = some t ↔ NewestTime tags output t := by
  -- Each line is filed and dated on its own, in the order of the output.
  have hdated : (tagged tags output).filterMap (fun e => timeOf e.2)
      = output.filterMap fun line => (tagOf tags line).bind fun _ => timeOf line := by
    rw [tagged, List.filterMap_filterMap]
    congr 1
    funext line
    cases tagOf tags line with
    | none => rfl
    | some name => rfl
  -- The search goes from the end, so what it passes are the newer lines.
  rw [lastTime, hdated, List.getLast?_filterMap, List.findSome?_eq_some_iff]
  constructor
  · rintro ⟨newer, line, older, hsplit, hline, hnewer⟩
    rw [datedOf_eq_some] at hline
    refine ⟨older.reverse, line, newer.reverse, ?_, hline.1, hline.2, ?_⟩
    · rw [← List.reverse_reverse output, hsplit]
      simp only [List.reverse_append, List.reverse_cons, List.append_assoc, List.cons_append,
        List.nil_append]
    · intro l hl hwatched u hu
      have hnone := hnewer l (List.mem_reverse.mp hl)
      rw [datedOf_eq_some.mpr ⟨hwatched, hu⟩] at hnone
      cases hnone
  · rintro ⟨older, line, newer, rfl, hwatched, htime, hnewer⟩
    refine ⟨newer.reverse, line, older.reverse, ?_, datedOf_eq_some.mpr ⟨hwatched, htime⟩, ?_⟩
    · simp only [List.reverse_append, List.reverse_cons, List.append_assoc, List.cons_append,
        List.nil_append]
    · intro l hl
      rw [Option.eq_none_iff_forall_not_mem]
      intro u hu
      rcases datedOf_eq_some.mp hu with ⟨hl', hu'⟩
      exact hnewer l (List.mem_reverse.mp hl) hl' u hu'

variable {r : DeviceReader} {output : List String}

/-- Each watched tag is listed with its lines, those in which it stands at the leftmost mark, in
    the order of the output. -/
theorem get_absorb {t : LogTag} (ht : t ∈ r.tags) :
    (r.absorb output).lines[t.name]? = some (linesOf r.tags t output) := by
  have hlines : ((tagged r.tags output).filter fun e => e.1 = t.name).map Prod.snd
      = linesOf r.tags t output := by
    induction output with
    | nil => rfl
    | cons line output ih =>
      rw [tagged, linesOf] at ih ⊢
      rw [List.filterMap_cons, List.filter_cons]
      cases tagOf r.tags line with
      | none => exact ih
      | some name =>
        by_cases hname : name = t.name
        · rw [Option.map_some, List.filter_cons_of_pos (by exact decide_eq_true hname),
            List.map_cons, ih, if_pos (decide_eq_true (congrArg some hname))]
        · rw [Option.map_some, List.filter_cons_of_neg (by exact mt of_decide_eq_true hname), ih,
            if_neg fun h => hname (Option.some.inj (of_decide_eq_true h))]
  rw [get_absorb_tagged ht, hlines]

theorem mem_foldl_add {table : LogLines} {entries : List (String × String)} {name : String} :
    name ∈ entries.foldl add table ↔ name ∈ table ∨ ∃ e ∈ entries, e.1 = name := by
  induction entries generalizing table with
  | nil => simp only [List.foldl_nil, List.not_mem_nil, false_and, exists_false, or_false]
  | cons e entries ih =>
    rw [List.foldl_cons, ih, add, Std.ExtTreeMap.mem_insert, Std.compare_eq_iff_eq]
    simp only [List.mem_cons, exists_eq_or_imp]
    tauto

/-- Only watched tags are listed: the table begins with them, and a line is filed under a tag that
    was read, which is a watched one. -/
theorem mem_absorb {name : String} :
    name ∈ (r.absorb output).lines ↔ ∃ t ∈ r.tags, t.name = name := by
  have hnone : name ∈ noLines r.tags ↔ ∃ t ∈ r.tags, t.name = name := by
    rw [Std.ExtTreeMap.mem_iff_isSome_getElem?, get_noLines, ← List.mem_map]
    by_cases hname : name ∈ r.tags.map LogTag.name
    · simp only [hname, if_true, Option.isSome_some]
    · simp only [hname, if_false, Option.isSome_none, Bool.false_eq_true]
  have habsorb : (r.absorb output).lines = (tagged r.tags output).foldl add (noLines r.tags) := rfl
  rw [habsorb, mem_foldl_add, hnone]
  constructor
  · rintro (hlisted | ⟨e, he, rfl⟩)
    · exact hlisted
    · -- The tag that a line carries is a watched one.
      rcases List.mem_filterMap.mp he with ⟨line, _, htag⟩
      rcases Option.map_eq_some_iff.mp htag with ⟨name, hname, rfl⟩
      rcases tagOf_eq_some.mp hname with ⟨t, hname, ht, _⟩
      exact ⟨t, ht, hname⟩
  · exact Or.inl

theorem watermarkText_eq_empty : r.watermarkText = "" ↔ r.watermark = none := by
  rw [watermarkText]
  cases r.watermark with
  | none => exact ⟨fun _ => rfl, fun _ => rfl⟩
  | some t => exact ⟨fun h => absurd h t.text_ne_empty, fun h => nomatch h⟩

/-- The new watermark is behind the newest time, or the old one. -/
theorem newest_or_old (r : DeviceReader) (output : List String) : (r.absorb output).watermark
    = ((lastTime (tagged r.tags output)).map LogTime.next).or r.watermark :=
  Option.orElse_eq_or

/-- What a reading does that does not fail, clause by clause: the watermark with and without a
    newest time, the tags that are listed and their lines, and whether the reading is fresh. -/
theorem followed_absorb : Followed r.tags output r (r.absorb output) := by
  have hwatermark := newest_or_old r output
  refine ⟨?_, ?_, fun name => mem_absorb, fun t ht => get_absorb ht, ?_⟩
  -- A newest time moves the watermark to the millisecond behind it.
  · intro t hnewest
    rw [lastTime_tagged.mpr hnewest] at hwatermark
    rcases hnewest with ⟨_, _, _, _, _, htime, _⟩
    refine ⟨t.next, LogTime.isMilliAfter_next htime.1, ?_⟩
    rw [watermarkText, hwatermark]
    rfl
  -- Without one the watermark stays.
  · intro hnone
    have hlast : lastTime (tagged r.tags output) = none := by
      rw [Option.eq_none_iff_forall_not_mem]
      exact fun t ht => hnone t (lastTime_tagged.mp ht)
    rw [hlast] at hwatermark
    rw [watermarkText, hwatermark]
    rfl
  -- Fresh are lines that were filed by a reader that had a watermark before.
  · have hfresh : (r.absorb output).fresh
        = (r.watermark.isSome && anyLine (r.absorb output).lines) := rfl
    rw [hfresh, Bool.and_eq_true, Option.isSome_iff_ne_none, ne_eq, ne_eq, watermarkText_eq_empty,
      anyLine_iff]
    refine and_congr_right fun _ => ?_
    constructor
    · rintro ⟨name, kept, hkept, hne⟩
      have hmem : name ∈ (r.absorb output).lines := by
        rw [Std.ExtTreeMap.mem_iff_isSome_getElem?, hkept]
        rfl
      rcases mem_absorb.mp hmem with ⟨t, ht, rfl⟩
      rw [get_absorb ht, Option.some.injEq] at hkept
      exact ⟨t, ht, hkept ▸ hne⟩
    · rintro ⟨t, ht, hne⟩
      exact ⟨t.name, _, get_absorb ht, hne⟩

theorem run_concat (r : DeviceReader) (answers : List Answer) (answer : Answer) :
    r.run (answers ++ [answer]) = (r.run answers).after ((r.run answers).next answer) := by
  rw [run, List.foldl_append]
  rfl

/-- What holds of a reader and is kept by every reading holds after a run. -/
theorem run_induction {P : DeviceReader → Prop} {r : DeviceReader} (hr : P r)
    (hstep : ∀ r output, P r → P (r.absorb output)) (answers : List Answer) :
    P (r.run answers) := by
  induction answers generalizing r with
  | nil => exact hr
  | cons answer answers ih =>
    cases answer with
    | error f => exact ih hr
    | ok output => exact ih (hstep r output hr)

theorem tags_run (r : DeviceReader) (answers : List Answer) : (r.run answers).tags = r.tags :=
  run_induction (P := fun s => s.tags = r.tags) rfl (fun _ _ h => h) answers

/-- The watermark of a run is a time that exists: it moves only to the millisecond behind a time
    that was read, and only times that exist are read. -/
theorem isValid_run {r : DeviceReader} (hr : r.watermark = none) (answers : List Answer) :
    ∀ t ∈ (r.run answers).watermark, t.isValid = true := by
  refine run_induction (P := fun s => ∀ t ∈ s.watermark, t.isValid = true) ?_ ?_ answers
  · intro t ht
    rw [hr] at ht
    cases ht
  · intro r output ih t ht
    rw [newest_or_old, Option.mem_def, Option.or_eq_some_iff] at ht
    rcases ht with ht | ⟨_, ht⟩
    · rcases Option.map_eq_some_iff.mp ht with ⟨newest, hnewest, rfl⟩
      rcases lastTime_tagged.mp hnewest with ⟨_, _, _, _, _, htime, _⟩
      exact LogTime.isValid_next htime.1
    · exact ih t ht

/-- A watermark does not get lost. -/
theorem watermark_run {r : DeviceReader} (hr : r.watermarkText ≠ "") (answers : List Answer) :
    (r.run answers).watermarkText ≠ "" := by
  refine run_induction (P := fun s => s.watermarkText ≠ "") hr ?_ answers
  intro r output ih hnone
  rw [watermarkText_eq_empty] at hnone
  rw [newest_or_old, Option.or_eq_none_iff] at hnone
  exact ih (watermarkText_eq_empty.mpr hnone.2)

/-- The command asks for the watched tags, and for what is at or after the watermark if there
    is one. -/
theorem command_eq (r : DeviceReader) :
    r.command = wholeCommand r.tags
      ++ if r.watermarkText = "" then "" else " -T '" ++ r.watermarkText ++ "'" := by
  cases hr : r.watermark with
  | none =>
    rw [command_of_none hr, if_pos (watermarkText_eq_empty.mpr hr), String.append_empty]
  | some t =>
    have htext : r.watermarkText = t.text := by
      rw [watermarkText, hr]
    rw [command_of_some hr, htext, if_neg t.text_ne_empty]
    simp only [String.append_assoc]

/-- The watermark follows the output of the command, whatever it is and whichever readings
    fail:

    * it is empty or the stamp of a time that exists, and is recognised as one;
    * the next command asks for the watched tags from the watermark on;
    * once it is not empty it never is again;
    * a reading fails if the command does, and then changes nothing;
    * any other reading moves the watermark behind the newest time, files the lines by tag
      and says whether they are new;
    * the tag of a line is that of its leftmost mark. -/
theorem watermark_follows {tags : List LogTag} {r₀ : DeviceReader} (h : start tags = .ok r₀)
    (answers : List Answer) :
    ((r₀.run answers).watermarkText = "" ∨ ∃ t : LogTime, t.isValid = true ∧
      (r₀.run answers).watermarkText = t.text ∧
      LogTime.stamp (r₀.run answers).watermarkText = (r₀.run answers).watermarkText) ∧
    (r₀.run answers).command = wholeCommand tags ++ (if (r₀.run answers).watermarkText = "" then ""
      else " -T '" ++ (r₀.run answers).watermarkText ++ "'") ∧
    (∀ more, (r₀.run answers).watermarkText ≠ "" →
      (r₀.run (answers ++ more)).watermarkText ≠ "") ∧
    (∀ f, (r₀.run answers).next (.error f) = .error (.spawn f) ∧
      r₀.run (answers ++ [.error f]) = r₀.run answers) ∧
    (∀ output, (r₀.run answers).next (.ok output) = .ok (r₀.run (answers ++ [.ok output])) ∧
      Followed tags output (r₀.run answers) (r₀.run (answers ++ [.ok output]))) ∧
    ∀ line t, tagOf tags line = some t.name ↔ Carries tags line.toList t := by
  -- No reading changes the tags, so the reader still watches those it was started with.
  have hstart : r₀.tags = tags ∧ r₀.watermark = none := by
    rw [start] at h
    split at h
    · cases h
    · cases h
      exact ⟨rfl, rfl⟩
  have htags : (r₀.run answers).tags = tags := (tags_run r₀ answers).trans hstart.1
  refine ⟨?_, ?_, ?_, ?_, ?_, fun _ _ => tagOf_eq_name⟩
  · have hvalid := isValid_run hstart.2 answers
    cases hwatermark : (r₀.run answers).watermark with
    | none => exact Or.inl (watermarkText_eq_empty.mpr hwatermark)
    | some t =>
      have htext : (r₀.run answers).watermarkText = t.text := by
        rw [watermarkText, hwatermark]
      have hstamp := LogTime.stampList_chars (hvalid t hwatermark) []
      rw [List.append_nil] at hstamp
      refine Or.inr ⟨t, hvalid t hwatermark, htext, ?_⟩
      rw [htext, LogTime.stamp, LogTime.text, String.toList_ofList, hstamp]
  · rw [command_eq, htags]
  · intro more hsome
    have happend : r₀.run (answers ++ more) = (r₀.run answers).run more := List.foldl_append
    rw [happend]
    exact watermark_run hsome more
  · intro f
    exact ⟨rfl, run_concat r₀ answers (.error f)⟩
  · intro output
    have hread : r₀.run (answers ++ [.ok output]) = (r₀.run answers).absorb output :=
      run_concat r₀ answers (.ok output)
    rw [hread]
    refine ⟨rfl, ?_⟩
    rw [← htags]
    exact followed_absorb

/-- The case of a reading that fails, and then of a line in the last millisecond of a leap second
    at the end of the year, one whose time does not exist and one of no watched tag. -/
theorem watermark_follows_leapSecond :
    ∃ r, start [.tflite] = .ok r ∧ ∃ r', r' = r.run [.error ⟨"logcat", "gone"⟩, .ok
        ["12-31 23:59:60.999  1  2 I tflite  : a", "02-30 00:00:00.000  1  2 I tflite  : b",
          "06-01 00:00:00.000  1  2 I other   : c"]] ∧
      Followed [.tflite] ["12-31 23:59:60.999  1  2 I tflite  : a",
        "02-30 00:00:00.000  1  2 I tflite  : b", "06-01 00:00:00.000  1  2 I other   : c"]
        (r.run [.error ⟨"logcat", "gone"⟩]) r' ∧
      r'.watermarkText = "01-01 00:00:00.000" ∧ r'.fresh = false := by
  refine ⟨⟨[.tflite], none, noLines [.tflite], false⟩, rfl, _, rfl, ?_, ?_, ?_⟩
  · have hstart : start [.tflite] = .ok ⟨[.tflite], none, noLines [.tflite], false⟩ := rfl
    rcases watermark_follows hstart [.error ⟨"logcat", "gone"⟩] with ⟨_, _, _, _, hfollowed, _⟩
    exact (hfollowed _).2
  · decide +kernel
  · decide +kernel

end DeviceReader

end AccelMonitor
