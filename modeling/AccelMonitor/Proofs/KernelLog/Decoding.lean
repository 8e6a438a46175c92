import AccelMonitor.Breakdown
import AccelMonitor.Proofs.KernelLog.Keyword
import AccelMonitor.Proofs.Offload.Fields

/-!
# Lines with Times and Remarks

What is read from the lines that time a call and from those that hold a remark.

A timing line and a remark stand in the kernel log, behind a heading, and a driver line
stands anywhere in a line of the device log. All three name an application in parentheses
and have something behind it: the first and the last have seconds at their end, and a
remark is free text up to the end. No pattern but that of the classifier is anchored, so a
line is read wherever its pattern fits first.

In front of the place where it is meant to fit, the pattern cannot fit at all, for the
character that opens it is missing there. At this place it fits in the intended way. The
seconds are greedy and take what there is, and a remark is lazy but has to reach the end
of the line, so it does not matter what else it looks like.

The other kinds of offload time look for a word behind a parenthesis that no timing line
has there.

## Main definitions

* `AppName`: The name of an application.
* `TimingLine`, `RemarkLine`, `DriverLine`: The fields of the lines.
* `TimedCall.signed`: What a timed call adds.

## Theorems

* `TimingLine.sample?_kernel_text`: The sample of a timing line.
* `TimingLine.open_head`: What stands behind the parentheses of a timing line.
* `TimingLine.sample?_gpu_text`, `TimingLine.sample?_driver_text`: It is none of other kinds.
* `RemarkLine.entryOf?_text`: The application and the remark.
* `DriverLine.sample?_text`: The sample of a driver line.
* `fields_decoded`: All of it.
-/

namespace AccelMonitor

/-- The name of an application: without parentheses, and not blank at its ends. -/
structure AppName where
  chars : List Char
  open_not_mem : '(' ∉ chars
  close_not_mem : ')' ∉ chars
  trimmed : Text.IsTrimmed chars

namespace AppName

variable (a : AppName)

/-- The name. -/
def text : String :=
  String.ofList a.chars

/-- The name is that of a benchmark process. -/
def IsBenchmark : Prop :=
  ∃ p ∈ Offload.benchmarkProcesses, p.toList <+: a.chars

instance : Decidable a.IsBenchmark :=
  inferInstanceAs (Decidable (∃ p ∈ Offload.benchmarkProcesses, p.toList <+: a.chars))

/-- The name in parentheses, as it stands in a line. -/
def field (rest : List Char) : List Char :=
  "(app:".toList ++ ' ' :: (a.chars ++ ')' :: rest)

theorem belongsToBenchmark_text : Offload.belongsToBenchmark a.text = true ↔ a.IsBenchmark :=
  Offload.belongsToBenchmark_trimmed a.trimmed

/-- The name is found where it stands. -/
theorem first_field {q : Pattern} {rest : List Char} {k : List Char → Option Groups} {g : Groups}
    (hq : q.first rest k = some g) :
    (Pattern.seq Offload.appPattern q).first (a.field rest) k
      = some ((1, a.chars ++ ')' :: rest) :: (1, ')' :: rest) :: g) := by
  refine Offload.first_appPattern (fun c hc => ?_) a.trimmed hq
  rw [Offload.isInside, bne_iff_ne]
  rintro rfl
  exact a.close_not_mem hc

theorem get_field (rest : List Char) (g : Groups) :
    Groups.get ((1, a.chars ++ ')' :: rest) :: (1, ')' :: rest) :: g) 1 = a.text :=
  Groups.get_here 1 a.chars _ g

/-- The character behind a parenthesis of the field. -/
theorem field_head (rest : List Char) :
    ∀ c ∈ (a.field rest).head?, Text.isBlank c = false :=
  Text.head_solid (s := "(app:".toList) (by decide) _

end AppName

/-! ### Timing lines -/

/-- What a timing line times. -/
inductive TimedCall where
  /-- A call into a driver. -/
  | ioctl
  /-- The part of it that was spent on the accelerator. -/
  | invoke
deriving DecidableEq

namespace TimedCall

/-- The word for it. -/
def word : TimedCall → List Char
  | ioctl => "ioctl".toList
  | invoke => "invoke".toList

/-- The word is found where it stands. The first alternative fails on the second word, so each of
    them is matched as itself. -/
theorem first_word (call : TimedCall) {q : Pattern} {rest : List Char}
    {k : List Char → Option Groups} {g : Groups} (hq : q.first rest k = some g) :
    (Pattern.seq (.group 2 (.either (.str "ioctl") (.str "invoke"))) q).first
      (call.word ++ rest) k = some ((2, call.word ++ rest) :: (2, rest) :: g) := by
  have hstop : Pattern.place 2 rest (q.first rest k) = some ((2, rest) :: g) := by
    rw [hq]
    rfl
  have hword : (Pattern.either (.str "ioctl") (.str "invoke")).first (call.word ++ rest)
      (fun s => Pattern.place 2 s (q.first s k)) = some ((2, rest) :: g) := by
    rw [Pattern.first_either]
    cases call with
    | ioctl =>
      have hleft := (Pattern.first_text "ioctl".toList rest
        fun s => Pattern.place 2 s (q.first s k)).trans hstop
      rw [word, Pattern.str, hleft]
      rfl
    | invoke =>
      exact (Pattern.first_text "invoke".toList rest
        fun s => Pattern.place 2 s (q.first s k)).trans hstop
  exact congrArg (Pattern.place 2 (call.word ++ rest)) hword

/-- What some seconds of it add to the time inside drivers. -/
def signed : TimedCall → Binary64 → Binary64
  | ioctl, t => t
  | invoke, t => t.neg

end TimedCall

/-- A line that times a call. -/
structure TimingLine where
  heading : Heading
  subsystem : List Char
  app : AppName
  call : TimedCall
  seconds : Numeral
  subsystem_ne_nil : subsystem ≠ []
  subsystem_valid : ∀ c ∈ subsystem, Pattern.isNameChar c = true

namespace TimingLine

variable (l : TimingLine)

/-- What follows the second opening parenthesis. -/
def callField : List Char :=
  l.call.word ++ (")".toList ++ ' ' :: l.seconds.chars)

/-- The line from the keyword on. -/
def core : List Char :=
  "TIME".toList ++ ' ' :: (l.subsystem ++ (":".toList ++ ' ' ::
    l.app.field (' ' :: '(' :: l.callField)))

/-- The line. -/
def text : String :=
  String.ofList (l.heading.chars ++ l.core)

theorem toList_text : l.text.toList = l.heading.chars ++ l.core :=
  String.toList_ofList

theorem headed : KernelLog.Headed l.text.toList .time :=
  ⟨l.heading, _, l.toList_text⟩

/-- What the pattern of timing lines finds behind the application: the word between the next
    parentheses and the seconds up to the end of the line. -/
theorem first_call :
    ∃ g : Groups, (Pattern.all [.blanks, .str "(",
        .group 2 (.either (.str "ioctl") (.str "invoke")), .str ")", .blanks,
        Offload.secondsPattern 3]).first (' ' :: '(' :: l.callField) (fun _ => some []) = some g ∧
      g.get 2 = String.ofList l.call.word ∧ g.get 3 = String.ofList l.seconds.chars := by
  have hseconds : (Pattern.seq (.str ")") (.seq .blanks (Offload.secondsPattern 3))).first
      (")".toList ++ ' ' :: l.seconds.chars) (fun _ => some [])
      = some [(3, l.seconds.chars), (3, [])] :=
    Pattern.first_text_seq _ (Pattern.first_blank_seq (Offload.head_chars l.seconds)
      (Offload.first_seconds 3 l.seconds))
  -- The word ends where the parenthesis closes.
  have hword := l.call.first_word hseconds
  refine ⟨_, Pattern.first_blank_seq (Text.head_char (by decide) _)
    (Pattern.first_text_seq ['('] hword), ?_, ?_⟩
  · exact Groups.get_here 2 l.call.word _ _
  · rw [Groups.get_further (by decide), Groups.get_further (by decide)]
    exact Groups.get_rest 3 l.seconds.chars

/-- The keyword is missing in front of the place where it is meant to be. -/
theorem initial_not_mem_heading : 'T' ∉ l.heading.chars :=
  fun h => absurd (Heading.mem_chars h) (by decide)

/-- The application, the word and the seconds are found. The pattern begins with a letter that is
    not in the heading, so the search passes the heading; behind it each part ends where the next
    one begins. -/
theorem timingPattern_search :
    ∃ g, Offload.timingPattern.search l.text.toList = some g ∧ g.get 1 = l.app.text ∧
      g.get 2 = String.ofList l.call.word ∧ g.get 3 = String.ofList l.seconds.chars := by
  rcases l.first_call with ⟨g, hg, hword, hseconds⟩
  have hname := Pattern.first_text_seq ":".toList
    (Pattern.first_blank_seq (l.app.field_head _) (l.app.first_field hg))
  have hsubsystem : (Pattern.seq (.some1 Pattern.isNameChar) _).first _ _ = some _ :=
    Pattern.first_some1 l.subsystem_ne_nil l.subsystem_valid (Text.head_char (by decide) _) hname
  have hsolid : ∀ c ∈ (l.subsystem ++ (":".toList ++ ' ' ::
      l.app.field (' ' :: '(' :: l.callField))).head?, Text.isBlank c = false :=
    Text.head_append (fun c hc => Pattern.isBlank_of_isNameChar (l.subsystem_valid c hc))
      (Text.head_char (by decide) _)
  -- The parts are put together from the application back to the front.
  have hmatch : Offload.timingPattern.atStart l.core = some _ :=
    Pattern.first_text_seq "TIME".toList (Pattern.first_blank1_seq hsolid hsubsystem)
  have hopens : Pattern.OpensWith 'T' Offload.timingPattern :=
    (Pattern.opensWith_text 'T' ['I', 'M', 'E']).seq _
  rw [toList_text, Pattern.search_skip hopens l.initial_not_mem_heading]
  refine ⟨_, Pattern.search_of_atStart hmatch, l.app.get_field _ g, ?_, ?_⟩
  · rw [Groups.get_further (by decide), Groups.get_further (by decide)]
    exact hword
  · rw [Groups.get_further (by decide), Groups.get_further (by decide)]
    exact hseconds

/-- The sample of the line: its seconds, signed by the kind of call. -/
theorem sample?_kernel_text :
    Offload.sample? .kernel l.text
      = if l.app.IsBenchmark then some (l.call.signed l.seconds.literal.value) else none := by
  rcases l.timingPattern_search with ⟨g, hg, happ, hword, hseconds⟩
  have hvalue : Offload.sampleOf .kernel g = some (l.call.signed l.seconds.literal.value) := by
    rw [Offload.sampleOf, hword, hseconds, Offload.seconds?_chars]
    cases l.call with
    | ioctl => rfl
    | invoke => rfl
  have hfound : (Offload.pattern .kernel).search l.text.toList = some g := hg
  rw [Offload.sample?, Pattern.find_eq_search, hfound, Option.bind_some, happ, hvalue]
  simp only [l.app.belongsToBenchmark_text]

/-- Behind every opening parenthesis stands the word for the application or the one for the
    call. A pattern of another kind of offload time wants a different word there. It is searched
    at every place of the line, so this is what keeps it from matching at any of them, and no
    part of the line can hide a parenthesis: names, seconds and the heading have none. -/
theorem open_head {x y : List Char} (h : l.text.toList = x ++ '(' :: y) :
    y.head? = some 'a' ∨ y.head? = some 'i' := by
  -- Two parts of the line hold no parenthesis that opens, and the call has none in it.
  have hfront : '(' ∉
      l.heading.chars ++ ("TIME".toList ++ ' ' :: (l.subsystem ++ ": ".toList)) := by
    simp only [List.mem_append, List.mem_cons, not_or]
    exact ⟨fun h => absurd (Heading.mem_chars h) (by decide), by decide, by decide,
      fun h => absurd (l.subsystem_valid _ h) (by decide), by decide⟩
  have hname : '(' ∉ "app: ".toList ++ (l.app.chars ++ ") ".toList) := by
    simp only [List.mem_append, not_or]
    exact ⟨by decide, l.app.open_not_mem, by decide⟩
  have hcall : '(' ∉ l.callField := by
    have hword : '(' ∉ l.call.word := by
      cases l.call with
      | ioctl => decide
      | invoke => decide
    have hseconds : '(' ∉ l.seconds.chars := fun h => (Offload.solid_of_mem_chars h).2.1 rfl
    simp only [callField, List.mem_append, List.mem_cons, not_or]
    exact ⟨hword, by decide, by decide, hseconds⟩
  have hfirst : (l.heading.chars ++ ("TIME".toList ++ ' ' :: (l.subsystem ++ ": ".toList))) ++
      '(' :: (("app: ".toList ++ (l.app.chars ++ ") ".toList)) ++ '(' :: l.callField)
      = x ++ '(' :: y := by
    rw [← h, toList_text, core, AppName.field]
    simp only [List.append_assoc, List.cons_append]
    rfl
  -- So the one in front of the application is the first, and that of the call the last.
  rcases Text.split_mark hfront hfirst with ⟨_, rfl⟩ | ⟨x', _, hrest⟩
  · exact Or.inl rfl
  · rcases Text.split_mark hname hrest with ⟨_, rfl⟩ | ⟨x'', _, hlast⟩
    · refine Or.inr ?_
      rw [callField]
      cases l.call with
      | ioctl => rfl
      | invoke => rfl
    · rw [hlast] at hcall
      exact absurd (List.mem_append_right x'' (List.mem_cons_self ..)) hcall

/-- No line of the graphics driver: that has another word behind a parenthesis. A match would need
    a parenthesis with the time in it, and the two parentheses of this line begin differently. -/
theorem sample?_gpu_text : Offload.sample? .gpu l.text = none := by
  rw [Offload.sample?, Pattern.find_eq_search, Option.bind_eq_none_iff]
  intro g hg
  exfalso
  -- What a match would say about the line, up to that parenthesis.
  rcases Pattern.search_eq_some hg with ⟨skipped, _, rest, hline, hmatch⟩
  rcases hmatch with ⟨word, _, _, _, rfl, _, _, hmatch⟩
  rcases hmatch with ⟨gap, _, _, _, rfl, _, _, hmatch⟩
  rcases hmatch with ⟨name, _, _, _, rfl, _, _, hmatch⟩
  rcases hmatch with ⟨gap', _, _, _, rfl, _, _, hmatch⟩
  rcases hmatch with ⟨app, _, _, _, rfl, _, _, hmatch⟩
  rcases hmatch with ⟨between, _, _, _, rfl, _, _, hmatch⟩
  rcases hmatch with ⟨_, tail, _, _, rfl, _, ⟨rfl, _⟩, _⟩
  have hplace : l.text.toList
      = (skipped ++ (word ++ (gap ++ (name ++ (gap' ++ (app ++ between)))))) ++
        '(' :: ("time:".toList ++ (tail ++ rest)) := by
    rw [hline]
    simp only [List.append_assoc]
    rfl
  rcases l.open_head hplace with hhead | hhead
  · exact absurd (Option.some.inj hhead) (by decide)
  · exact absurd (Option.some.inj hhead) (by decide)

/-- No driver line, for the same reason: it would need the word of the driver behind a
    parenthesis. -/
theorem sample?_driver_text : Offload.sample? .driver l.text = none := by
  rw [Offload.sample?, Pattern.find_eq_search, Option.bind_eq_none_iff]
  intro g hg
  exfalso
  rcases Pattern.search_eq_some hg with ⟨skipped, _, rest, hline, hmatch⟩
  rcases hmatch with ⟨app, _, _, _, rfl, _, _, hmatch⟩
  rcases hmatch with ⟨gap, _, _, _, rfl, _, _, hmatch⟩
  rcases hmatch with ⟨_, tail, _, _, rfl, _, ⟨rfl, _⟩, _⟩
  -- The parenthesis of the driver would have to be one of the two in the line.
  have hplace : l.text.toList
      = (skipped ++ (app ++ gap)) ++ '(' :: ("driver)".toList ++ (tail ++ rest)) := by
    rw [hline]
    simp only [List.append_assoc]
    rfl
  rcases l.open_head hplace with hhead | hhead
  · exact absurd (Option.some.inj hhead) (by decide)
  · exact absurd (Option.some.inj hhead) (by decide)

end TimingLine

/-! ### Remarks -/

/-- A line with a remark about an application. -/
structure RemarkLine where
  heading : Heading
  app : AppName
  remark : List Char
  remark_inLine : ∀ c ∈ remark, Pattern.isInLine c = true
  remark_trimmed : Text.IsTrimmed remark

namespace RemarkLine

variable (l : RemarkLine)

/-- The line from the keyword on. -/
def core : List Char :=
  "INFO:".toList ++ ' ' :: l.app.field (' ' :: l.remark)

/-- The line. -/
def text : String :=
  String.ofList (l.heading.chars ++ l.core)

theorem toList_text : l.text.toList = l.heading.chars ++ l.core :=
  String.toList_ofList

theorem headed : KernelLog.Headed l.text.toList .info :=
  ⟨l.heading, _, l.toList_text⟩

/-- The application and the remark are found, whatever the remark looks like. It is the rest of
    the line, so it can hold parentheses and even look like another line. -/
theorem entryOf?_text :
    Breakdown.entryOf? Breakdown.remarkPattern l.text
      = some (l.app.text, String.ofList l.remark) := by
  have hremark := Pattern.first_blank_seq l.remark_trimmed.head
    (Pattern.first_group_few_end 2 l.remark_inLine l.remark_trimmed.last)
  have hmatch : Breakdown.remarkPattern.atStart l.core = some _ :=
    Pattern.first_text_seq "INFO:".toList
      (Pattern.first_blank_seq (l.app.field_head _) (l.app.first_field hremark))
  have hopens : Pattern.OpensWith 'I' Breakdown.remarkPattern :=
    (Pattern.opensWith_text 'I' ['N', 'F', 'O', ':']).seq _
  -- The search cannot stop in the heading, which has no letters.
  have hinitial : 'I' ∉ l.heading.chars := fun h => absurd (Heading.mem_chars h) (by decide)
  rw [Breakdown.entryOf?, Pattern.find_eq_search, toList_text,
    Pattern.search_skip hopens hinitial, Pattern.search_of_atStart hmatch, Option.map_some,
    Option.some.injEq, Prod.mk.injEq]
  refine ⟨l.app.get_field _ _, ?_⟩
  rw [Groups.get_further (by decide), Groups.get_further (by decide)]
  exact Groups.get_rest 2 l.remark

end RemarkLine

/-! ### Driver lines -/

/-- A line with the time of a call into the neural network driver. -/
structure DriverLine where
  /-- What stands in front of the application. -/
  front : List Char
  app : AppName
  seconds : Numeral
  open_not_mem_front : '(' ∉ front

namespace DriverLine

variable (l : DriverLine)

/-- The line from the application on. -/
def core : List Char :=
  l.app.field (' ' :: ("(driver)".toList ++ ' ' :: l.seconds.chars))

/-- The line. -/
def text : String :=
  String.ofList (l.front ++ l.core)

theorem toList_text : l.text.toList = l.front ++ l.core :=
  String.toList_ofList

/-- The application and the seconds are found. What stands in front is passed, because no
    parenthesis opens in it. -/
theorem driverPattern_search :
    ∃ g, Offload.driverPattern.search l.text.toList = some g ∧ g.get 1 = l.app.text ∧
      g.get 2 = String.ofList l.seconds.chars := by
  have hdriver := Pattern.first_text_seq "(driver)".toList
    (Pattern.first_blank_seq (Offload.head_chars l.seconds) (Offload.first_seconds 2 l.seconds))
  have hmatch : Offload.driverPattern.atStart l.core = some _ :=
    l.app.first_field
      (Pattern.first_blank_seq (Text.head_solid (s := "(driver)".toList) (by decide) _) hdriver)
  -- The pattern begins with a parenthesis, and in front of the application there is none.
  have hopens : Pattern.OpensWith '(' Offload.driverPattern :=
    ((Pattern.opensWith_text '(' ['a', 'p', 'p', ':']).seq _).seq _
  rw [toList_text, Pattern.search_skip hopens l.open_not_mem_front]
  refine ⟨_, Pattern.search_of_atStart hmatch, l.app.get_field _ _, ?_⟩
  rw [Groups.get_further (by decide), Groups.get_further (by decide)]
  exact Groups.get_rest 2 l.seconds.chars

/-- The sample of the line: its seconds. -/
theorem sample?_text :
    Offload.sample? .driver l.text
      = if l.app.IsBenchmark then some l.seconds.literal.value else none := by
  rcases l.driverPattern_search with ⟨g, hg, happ, hseconds⟩
  have hvalue : Offload.sampleOf .driver g = some l.seconds.literal.value := by
    rw [Offload.sampleOf, hseconds, Offload.seconds?_chars]
  have hfound : (Offload.pattern .driver).search l.text.toList = some g := hg
  rw [Offload.sample?, Pattern.find_eq_search, hfound, Option.bind_some, happ, hvalue]
  simp only [l.app.belongsToBenchmark_text]

end DriverLine

/-- Lines with times and remarks are taken for what they say:

    * a timing line is of its probe, if that is configured; it is a sample of its seconds,
      taken off for the part on the accelerator, exactly if the application belongs to a
      benchmark, and among other lines an estimate adds exactly this sample in its place; it
      makes no difference to the other kinds of offload time, and a breakdown with such a
      line fails and leaves everything as it was;
    * a remark is of its probe, if that is configured, and is one more of itself for its
      application, and nothing else changes;
    * a driver line is a sample of its seconds exactly if the application belongs to a
      benchmark, and among other lines an estimate adds exactly this sample in its place. -/
theorem fields_decoded (t : TimingLine) (r : RemarkLine) (d : DriverLine) :
    (∀ probes, KernelLog.probe? probes t.text = if .time ∈ probes then some .time else none) ∧
    Offload.sample? .kernel t.text
      = (if t.app.IsBenchmark then some (t.call.signed t.seconds.literal.value) else none) ∧
    (∀ (before after : List String) (stats : Statistics),
      Offload.update .kernel (before ++ t.text :: after) stats
        = Offload.applySamples (before.filterMap (Offload.sample? .kernel)
            ++ ((if t.app.IsBenchmark then [t.call.signed t.seconds.literal.value] else [])
              ++ after.filterMap (Offload.sample? .kernel))) stats ∧
      Offload.update .gpu (before ++ t.text :: after) stats
        = Offload.update .gpu (before ++ after) stats ∧
      Offload.update .driver (before ++ t.text :: after) stats
        = Offload.update .driver (before ++ after) stats) ∧
    (∀ (b : Breakdown) (before after : List String),
      b.count (before ++ t.text :: after) .time
        = .error (.notImplemented "Breakdown of TIME lines") ∧
      (b.count (before ++ t.text :: after) .time).toOption.getD b = b) ∧
    (∀ probes, KernelLog.probe? probes r.text = if .info ∈ probes then some .info else none) ∧
    (∀ b : Breakdown,
      b.count [r.text] .info = .ok (b.bump (r.app.text, String.ofList r.remark)) ∧
      ∀ app command,
        (b.bump (r.app.text, String.ofList r.remark)).countOf app command
          = b.countOf app command
            + if r.app.text = app ∧ String.ofList r.remark = command then 1 else 0) ∧
    Offload.sample? .driver d.text
      = (if d.app.IsBenchmark then some d.seconds.literal.value else none) ∧
    ∀ (before after : List String) (stats : Statistics),
      Offload.update .driver (before ++ d.text :: after) stats
        = Offload.applySamples (before.filterMap (Offload.sample? .driver)
            ++ ((if d.app.IsBenchmark then [d.seconds.literal.value] else [])
              ++ after.filterMap (Offload.sample? .driver))) stats := by
  refine ⟨KernelLog.probe?_of_headed t.headed, t.sample?_kernel_text,
    fun before after stats => ⟨?_, ?_, ?_⟩, fun b before after => ⟨?_, ?_⟩,
    KernelLog.probe?_of_headed r.headed, fun b => ⟨?_, fun app command => ?_⟩, d.sample?_text,
    fun before after stats => ?_⟩
  -- Among other lines, the line takes the place of its sample, or of nothing.
  · exact Offload.update_insert_ite t.sample?_kernel_text before after stats
  · exact Offload.update_skip t.sample?_gpu_text before after stats
  · exact Offload.update_skip t.sample?_driver_text before after stats
  -- A breakdown of timing lines is refused, whatever lines there are.
  · exact Breakdown.count_time b _
  · rw [Breakdown.count_time]
    rfl
  -- A remark is the one entry of its line.
  · rw [Breakdown.count, Breakdown.pattern?]
    simp only [List.filterMap_cons, r.entryOf?_text, List.filterMap_nil, List.foldl_cons,
      List.foldl_nil]
  · rw [Breakdown.countOf_bump]
    simp only [Prod.mk.injEq]
  · exact Offload.update_insert_ite d.sample?_text before after stats

/-- The heading of a line that was written after one and a half seconds. -/
def earlyHeading : Heading where
  before := "".toList
  whole := "1".toList
  part := "5".toList
  after := "".toList
  gap := " ".toList
  before_blank := List.all_eq_true.mp (by decide)
  whole_ne_nil := by decide
  whole_decimal := List.all_eq_true.mp (by decide)
  part_ne_nil := by decide
  part_decimal := List.all_eq_true.mp (by decide)
  after_blank := List.all_eq_true.mp (by decide)
  gap_ne_nil := by decide
  gap_blank := List.all_eq_true.mp (by decide)

/-- The name of a benchmark process, with more behind it. -/
def secondRun : AppName where
  chars := "snpe-net-run 2".toList
  open_not_mem := by decide
  close_not_mem := by decide
  trimmed := Text.isTrimmed_of (by decide) (by decide)

/-- Half a second. -/
def halfSecond : Numeral where
  sign := none
  whole := "0".toList
  fraction := some "5".toList
  exponent := none
  sign_valid := isSign_none
  whole_valid := isDigits_of (by decide) (by decide)
  fraction_valid := fun digits hfraction => by
    rw [← Option.some.inj hfraction]
    exact isDigits_of (by decide) (by decide)

/-- Half a second on the accelerator. -/
def acceleratedCall : TimingLine where
  heading := earlyHeading
  subsystem := "adsprpc".toList
  app := secondRun
  call := .invoke
  seconds := halfSecond
  subsystem_ne_nil := by decide
  subsystem_valid := List.all_eq_true.mp (by decide)

/-- A remark that looks like another line. -/
def misleadingRemark : RemarkLine where
  heading := earlyHeading
  app := secondRun
  remark := "(opened) INFO: (app: b) x".toList
  remark_inLine := List.all_eq_true.mp (by decide)
  remark_trimmed := Text.isTrimmed_of (by decide) (by decide)

/-- Half a second inside the neural network driver. -/
def driverCall : DriverLine where
  front := "tflite: ".toList
  app := secondRun
  seconds := halfSecond
  open_not_mem_front := by decide

/-- The case of lines about a benchmark, of which the first is about the accelerator and the
    second has a remark that looks like another line. -/
theorem fields_decoded_benchmark :
    acceleratedCall.text = "[1.5] TIME adsprpc: (app: snpe-net-run 2) (invoke) 0.5" ∧
    misleadingRemark.text
      = "[1.5] INFO: (app: snpe-net-run 2) (opened) INFO: (app: b) x" ∧
    driverCall.text = "tflite: (app: snpe-net-run 2) (driver) 0.5" ∧
    Offload.sample? .kernel acceleratedCall.text = some (Literal.value ⟨false, 5, -1⟩).neg ∧
    Offload.sample? .driver driverCall.text = some (Literal.value ⟨false, 5, -1⟩) ∧
    (∀ stats, Offload.update .driver [driverCall.text] stats
      = Offload.applySamples [Literal.value ⟨false, 5, -1⟩] stats) ∧
    (∅ : Breakdown).count [misleadingRemark.text] .info
      = .ok (Breakdown.bump ∅ ("snpe-net-run 2", "(opened) INFO: (app: b) x")) := by
  rcases fields_decoded acceleratedCall misleadingRemark driverCall with
    ⟨_, htiming, _, _, _, hremark, hdriver, hupdate⟩
  have hbenchmark : driverCall.app.IsBenchmark := by decide
  refine ⟨by decide, by decide, by decide, ?_, ?_, fun stats => ?_, (hremark ∅).1⟩
  · exact htiming.trans (if_pos hbenchmark)
  · exact hdriver.trans (if_pos hbenchmark)
  · have hadded := hupdate [] [] stats
    rw [if_pos hbenchmark] at hadded
    exact hadded

end AccelMonitor
