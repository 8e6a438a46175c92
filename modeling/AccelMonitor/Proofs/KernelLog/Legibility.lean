import AccelMonitor.Proofs.KernelLog.Reading
import AccelMonitor.Proofs.Number.Numeral

/-!
# Legible Logs

When the time of a probe line can be read, and what a poll can fail of.

A poll reads the times of probe lines only, and one time that cannot be read makes it fail,
again and again for as long as the line stays in the log. So it matters that the two
readings of a line do not drift apart. A line with a heading has the seconds of the heading
read, whatever the other one would have made of it, and these are a decimal unless one of
their digits is of another script than ASCII. That digit is the only thing that the
recogniser accepts and the reader of numbers does not.

A log without such digits is legible. Every walk through it succeeds, and so does counting,
so what is left is the command that prints it.

## Main definitions

* `Heading.IsAscii`: The digits of the seconds are ASCII.
* `Heading.numeral`: The decimal that they are then.
* `KernelLog.Legible`: Every heading in a log is of this kind.
* `KernelLog.hasForeignDigit`: A line has a digit of another script.
* `KernelLog.ShellFailed`: The command could not be started.

## Theorems

* `Heading.isAscii_iff`: Which seconds can be read.
* `Heading.time_eq`: The time of a line with a heading.
* `legible_of_digits`: A log without digits of other scripts is legible.
* `start_of_legible`, `read_of_legible`: A legible log can be read.
* `probeLine_legible`: All of it.
-/

namespace AccelMonitor

namespace Heading

/-- The digits of the seconds are ASCII. -/
def IsAscii (h : Heading) : Prop :=
  ∀ c ∈ h.whole ++ h.part, Text.isDigit c = true

variable {h : Heading}

/-- Seconds with ASCII digits are a decimal without sign and exponent. -/
def numeral (hascii : h.IsAscii) : Numeral where
  sign := none
  whole := h.whole
  fraction := some h.part
  exponent := none
  sign_valid := isSign_none
  whole_valid := ⟨h.whole_ne_nil, fun c hc => hascii c (List.mem_append_left _ hc)⟩
  fraction_valid := by
    intro digits hdigits
    rw [← Option.some.inj hdigits]
    exact ⟨h.part_ne_nil, fun c hc => hascii c (List.mem_append_right _ hc)⟩

theorem numeral_chars (hascii : h.IsAscii) : (numeral hascii).chars = h.seconds := by
  unfold Numeral.chars Numeral.fractionChars Numeral.exponentChars numeral seconds
  simp only [Option.toList_none, List.nil_append, List.append_nil]

variable (h)

/-- Seconds that can be read at all have ASCII digits, because all of the notation is ASCII. -/
theorem isAscii_of_readList {v : Binary64} (hread : Binary64.readList h.seconds = .ok v) :
    h.IsAscii := by
  have hall := Binary64.forall_ascii_of_readList hread
  intro c hc
  rcases List.mem_append.mp hc with hc | hc
  · exact Text.isDigit_of_isDecimal (h.whole_decimal c hc) (hall c (List.mem_append_left _ hc))
  · refine Text.isDigit_of_isDecimal (h.part_decimal c hc) (hall c ?_)
    exact List.mem_append_right _ (List.mem_cons_of_mem _ hc)

/-- The seconds can be read when their digits are ASCII, and are not negative then. -/
theorem isAscii_iff : h.IsAscii ↔ ∃ m, Binary64.readList h.seconds = .ok (.number false m) := by
  constructor
  · intro hascii
    rw [← numeral_chars hascii, (numeral hascii).readList_chars]
    exact ⟨_, rfl⟩
  · rintro ⟨m, hm⟩
    exact h.isAscii_of_readList hm

/-- Otherwise they are not in the notation of numbers. -/
theorem readList_eq_malformed (hascii : ¬ h.IsAscii) :
    Binary64.readList h.seconds = .error .malformed := by
  cases hread : Binary64.readList h.seconds with
  | error fault => rw [Binary64.readList_eq_error hread h.seconds_ne_nil]
  | ok v => exact absurd (h.isAscii_of_readList hread) hascii

variable {h} {line : String} {rest : List Char}

/-- The time of a line with a heading is what its seconds are read as. -/
theorem time_eq (hline : line.toList = h.chars ++ rest) :
    KernelLog.time line = (Binary64.readList h.seconds).mapError fun fault =>
      .invalidTimestamp (String.ofList h.seconds) fault := by
  rw [KernelLog.time, hline, h.bracketed?_chars]
  cases hread : Binary64.readList h.seconds with
  | error fault =>
    simp only [hread]
    rfl
  | ok v =>
    simp only [hread]
    rfl

/-- The seconds are ASCII if and only if the time of the line is read, as a number that is not
    negative. -/
theorem time_eq_ok_iff (hline : line.toList = h.chars ++ rest) :
    h.IsAscii ↔ ∃ m, KernelLog.time line = .ok (.number false m) := by
  rw [isAscii_iff]
  constructor
  · rintro ⟨m, hm⟩
    refine ⟨m, ?_⟩
    rw [time_eq hline, hm]
    rfl
  · rintro ⟨m, hm⟩
    rw [time_eq hline] at hm
    cases hread : Binary64.readList h.seconds with
    | error fault =>
      rw [hread] at hm
      cases hm
    | ok v =>
      rw [hread] at hm
      exact ⟨m, congrArg Except.ok (Except.ok.inj hm)⟩

theorem time_eq_error (hline : line.toList = h.chars ++ rest) (hascii : ¬ h.IsAscii) :
    KernelLog.time line
      = .error (.invalidTimestamp (String.ofList h.seconds) .malformed) := by
  rw [time_eq hline, h.readList_eq_malformed hascii]
  rfl

end Heading

namespace KernelLog

/-- Every heading in the log has ASCII digits. -/
def Legible (log : List String) : Prop :=
  ∀ line ∈ log, ∀ (h : Heading) (rest : List Char), line.toList = h.chars ++ rest → h.IsAscii

/-- The line has a digit of another script. -/
def hasForeignDigit (line : String) : Bool :=
  line.toList.any fun c => Text.isDecimal c && !Text.isDigit c

/-- A log without digits of other scripts is legible. The converse does not hold, for such digits
    may stand anywhere else in a line. -/
theorem legible_of_digits {log : List String} (h : (log.any hasForeignDigit) = false) :
    Legible log := by
  intro line hmem heading rest hline c hc
  have hdigits : ∀ c ∈ line.toList, Text.isDecimal c = true → Text.isDigit c = true := by
    intro c hc hdecimal
    have hnone := List.any_eq_false.mp h line hmem
    rw [hasForeignDigit, List.any_eq_true] at hnone
    have hdigit : ¬ (Text.isDecimal c && !Text.isDigit c) = true := fun hd => hnone ⟨c, hc, hd⟩
    rw [hdecimal, Bool.true_and, Bool.not_eq_true', Bool.not_eq_false] at hdigit
    exact hdigit
  -- The digits of the heading are some of those of the line.
  rw [hline] at hdigits
  simp only [Heading.chars, List.mem_append, List.mem_cons] at hdigits
  rcases List.mem_append.mp hc with hc | hc
  · refine hdigits c ?_ (heading.whole_decimal c hc)
    simp only [hc, true_or, or_true]
  · refine hdigits c ?_ (heading.part_decimal c hc)
    simp only [hc, true_or, or_true]

/-- The command could not be started, and that is the failure. -/
def ShellFailed (answer : Answer) (f : Failure) : Prop :=
  ∃ e, answer = .error e ∧ f = .spawn e

/-- The times of the probe lines of a legible log can be read. -/
theorem Legible.exists_time {log : List String} (hlog : Legible log) {probes : List KernelProbe}
    {line : String} (hline : line ∈ (classify probes log).lines) : ∃ t, time line = .ok t := by
  rcases mem_lines_classify hline with ⟨hmem, hprobe⟩
  rcases Option.isSome_iff_exists.mp hprobe with ⟨p, hp⟩
  rcases heading_of_probe? hp with ⟨heading, rest, hheading⟩
  rcases (heading.time_eq_ok_iff hheading).mp (hlog line hmem heading rest hheading) with ⟨m, hm⟩
  exact ⟨_, hm⟩

end KernelLog

namespace KernelReader

open KernelLog

/-- A reader of a legible log can be started. -/
theorem start_of_legible {log : List String} (hlog : Legible log) (probes : List KernelProbe)
    (utilization : KernelProbe) : ∃ r, start probes utilization (.ok log) = .ok r := by
  have hlast : lastTime .zero (classify probes log)
      = .ok ((lastTimes (classify probes log)).foldl Binary64.larger .zero) := by
    refine lastTime_eq_ok.mpr ⟨fun bucket hbucket line hline => ?_, rfl⟩
    exact hlog.exists_time (Buckets.mem_lines.mpr ⟨bucket, hbucket, List.mem_of_getLast? hline⟩)
  rw [start, hlast]
  exact ⟨_, rfl⟩

/-- A legible log can be read, in either way and by a reader in any state. -/
theorem read_of_legible {log : List String} (hlog : Legible log) (r : KernelReader)
    (reading : KernelReading) : ∃ r', r.read ⟨reading, .ok log⟩ = .ok r' := by
  refine exists_read reading fun bucket hbucket => newer_isOk _ fun line hline => ?_
  exact hlog.exists_time (Buckets.mem_lines.mpr ⟨bucket, hbucket, List.mem_reverse.mp hline⟩)

theorem shellFailed_of_read {r : KernelReader} {p : KernelPoll} {f : Failure}
    (hlog : ∀ log, p.answer = .ok log → Legible log) (h : r.read p = .error f) :
    ShellFailed p.answer f := by
  rcases p with ⟨reading, answer⟩
  cases answer with
  | error e =>
    cases reading with
    | plain => exact ⟨e, rfl, (Except.error.inj h).symm⟩
    | counted full threshold => exact ⟨e, rfl, (Except.error.inj h).symm⟩
  | ok log =>
    rcases read_of_legible (hlog log rfl) r reading with ⟨r', hr'⟩
    rw [hr'] at h
    cases h

theorem shellFailed_of_start {probes : List KernelProbe} {utilization : KernelProbe}
    {answer : Answer} {f : Failure} (hlog : ∀ log, answer = .ok log → Legible log)
    (h : start probes utilization answer = .error f) : ShellFailed answer f := by
  cases answer with
  | error e => exact ⟨e, rfl, (Except.error.inj h).symm⟩
  | ok log =>
    rcases start_of_legible (hlog log rfl) probes utilization with ⟨r, hr⟩
    rw [hr] at h
    cases h

/-- The two readings of a probe line agree. Whichever probes are looked for, a line that is
    recognised has one heading, and what is read of the line is the seconds of it. They are
    a number, and not a negative one, exactly when their digits are ASCII, and are reported
    as they stand otherwise.

    So where the command prints no heading with other digits, starting a reader and both ways
    of reading fail only if the command cannot be started, or if there is no probe to start
    with. -/
theorem probeLine_legible :
    (∀ probes line p, probe? probes line = some p →
      ∃ (h : Heading) (rest : List Char), line.toList = h.chars ++ (p.keyword.toList ++ rest) ∧
        (∀ (other : Heading) (rest' : List Char),
          line.toList = other.chars ++ (p.keyword.toList ++ rest') → other = h) ∧
        bracketed? line.toList = some h.seconds ∧
        (∀ l, time line ≠ .error (.missingTimestamp l)) ∧
        (h.IsAscii ↔ ∃ m, time line = .ok (.number false m)) ∧
        (¬ h.IsAscii →
          time line = .error (.invalidTimestamp (String.ofList h.seconds) .malformed))) ∧
    ∀ {σ : Type} (shell : Shell σ) (s : σ),
      (∀ log, (shell.answer kernelLogCommand s).1 = .ok log → Legible log) →
      (∀ probes utilization f, ((launch probes utilization).run shell s).1 = .error f →
        (probes = [] ∧ f = .noProbes) ∨ ShellFailed (shell.answer kernelLogCommand s).1 f) ∧
      ∀ (r : KernelReader) (f : Failure),
        ((r.readNext.run shell s).1 = .error f →
          ShellFailed (shell.answer kernelLogCommand s).1 f) ∧
        ∀ full threshold, ((r.readCounted full threshold).run shell s).1 = .error f →
          ShellFailed (shell.answer kernelLogCommand s).1 f := by
  constructor
  -- A line is recognised by its heading, so it has one, and its parts say what is read.
  · intro probes line p hp
    rcases (probe?_eq_some.mp hp).2 with ⟨h, rest, hline⟩
    refine ⟨h, rest, hline, ?_, ?_, ?_, h.time_eq_ok_iff hline, h.time_eq_error hline⟩
    · intro other rest' hother
      exact (Heading.eq_of_chars (head_keyword p rest') (head_keyword p rest)
        (hother.symm.trans hline)).1
    · rw [hline]
      exact h.bracketed?_chars _
    -- The brackets of the heading are there, so the time is at most not a number.
    · intro l hl
      rw [Heading.time_eq hline] at hl
      cases hread : Binary64.readList h.seconds with
      | error fault =>
        rw [hread] at hl
        cases hl
      | ok v =>
        rw [hread] at hl
        cases hl
  -- The only other sources of failure are the shell and an empty choice of probes.
  · intro σ shell s hlog
    refine ⟨?_, fun r f => ⟨?_, ?_⟩⟩
    · intro probes utilization f hf
      by_cases hprobes : probes = []
      · refine Or.inl ⟨hprobes, ?_⟩
        rw [launch, required, if_pos hprobes] at hf
        exact (Except.error.inj hf).symm
      · rw [launch, required, if_neg hprobes] at hf
        exact Or.inr (shellFailed_of_start hlog hf)
    · intro hf
      exact shellFailed_of_read (p := ⟨.plain, (shell.answer kernelLogCommand s).1⟩) hlog hf
    · intro full threshold hf
      exact shellFailed_of_read (p := ⟨.counted full threshold, _⟩) hlog hf

/-- The cases of a heading with a digit of another script and of a legible log. -/
theorem probeLine_legible_digits :
    (∀ l, time "[ 1.٣ ] IOCTL kgsl: a" ≠ .error (.missingTimestamp l)) ∧
    ∀ f, ((launch [.ioctl] .ioctl).run
      ⟨fun _ s => (.ok ["[ 1.5 ] IOCTL kgsl: a", "[x] IOCTL"], s)⟩ ()).1 ≠ .error f := by
  have hprobe : probe? [.ioctl] "[ 1.٣ ] IOCTL kgsl: a" = some .ioctl := by decide +kernel
  have hlog : Legible ["[ 1.5 ] IOCTL kgsl: a", "[x] IOCTL"] :=
    legible_of_digits (by decide +kernel)
  constructor
  · rcases probeLine_legible.1 _ _ _ hprobe with ⟨_, _, _, _, _, hmissing, _⟩
    exact hmissing
  · intro f hf
    rcases (probeLine_legible.2 _ () fun log h => by cases h; exact hlog).1 _ _ f hf with
      ⟨hnil, _⟩ | ⟨_, herror, _⟩
    · cases hnil
    · cases herror

end KernelReader

end AccelMonitor
