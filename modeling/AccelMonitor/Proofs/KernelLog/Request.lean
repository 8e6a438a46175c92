import AccelMonitor.Breakdown
import AccelMonitor.Proofs.KernelLog.Driver
import AccelMonitor.Proofs.KernelLog.Keyword
import AccelMonitor.Proofs.Offload.Fields

/-!
# Lines of Requests

What everything that reads a line of a request makes of it.

A driver logs a request with the application, the command and the time that it took.
Six patterns are tried on such a line, each for a purpose of its own: sorting it
by its probe, counting its driver, breaking the requests down by application, and
three kinds of offload time. They were not written together and most may match
anywhere in a line, so they agree on a line only because of what its fields cannot
hold. `parsers_agree` says that they do.

Two characters settle it. Only three parentheses open in the line, and just one of
them opens an application. So whichever pattern contains an application finds it at
the same place, and those that want something else behind it do not match at all.
And a colon follows the driver's name, in which there is no blank, so the pattern of
one driver does not match the line of another, even if the name ends alike.

## Main definitions

* `RequestLine`: The fields of a request, in the form that drivers give them.
* `RequestLine.text`: The line.

## Theorems

* `probe?_text`: The probe of the line.
* `driverOf_text`: The driver that is counted.
* `application_unique`, `behind_application`: Where the line can be read as one about an
  application.
* `entryOf?_text`: The application and the command.
* `sample?_kernel_text`, `sample?_driver_text`: The line is no sample of these kinds.
* `sample?_graphics_text`: When it is a sample of the graphics driver, and which.
* `parsers_agree`: All of it.
-/

namespace AccelMonitor

/-- The character is no parenthesis, no bracket and no end of a line. -/
def isPlain (c : Char) : Bool :=
  c != '(' && c != ')' && c != '[' && c != ']' && c != '\n'

/-- A line of a request, with all that a driver prints about it. The application and the command
    hold no brackets, no parentheses and no end of a line, so each ends where the next mark
    stands. -/
structure RequestLine where
  /-- What fills the time up to its width. -/
  pad : List Char
  /-- The seconds since the start, in front of the point. -/
  whole : List Char
  part : List Char
  driver : List Char
  app : List Char
  command : List Char
  number : List Char
  /-- How long the request took. -/
  seconds : Numeral
  pad_blank : ∀ c ∈ pad, Text.isBlank c = true
  whole_valid : IsDigits whole
  part_valid : IsDigits part
  driver_ne_nil : driver ≠ []
  driver_valid : ∀ c ∈ driver, Pattern.isNameChar c = true
  app_plain : ∀ c ∈ app, isPlain c = true
  app_trimmed : Text.IsTrimmed app
  command_ne_nil : command ≠ []
  command_plain : ∀ c ∈ command, isPlain c = true
  command_trimmed : Text.IsTrimmed command
  number_ne_nil : number ≠ []
  number_decimal : ∀ c ∈ number, Text.isDecimal c = true

namespace RequestLine

/-- The time in brackets, and the blank behind it. -/
def stamp (l : RequestLine) : List Char :=
  '[' :: (l.pad ++ (l.whole ++ '.' :: (l.part ++ "] ".toList)))

/-- The line up to the parenthesis in front of the application. -/
def opening (l : RequestLine) : List Char :=
  l.stamp ++ ("IOCTL ".toList ++ (l.driver ++ ": ".toList))

/-- What stands in the last parentheses, with the closing one. -/
def timeField (l : RequestLine) : List Char :=
  "time:".toList ++ ' ' :: (l.seconds.chars ++ [')'])

/-- The number of the command and what follows it up to the next parenthesis. -/
def numberField (l : RequestLine) : List Char :=
  " [".toList ++ (l.number ++ "]) ".toList)

/-- What stands in the second parentheses, up to the third ones. -/
def commandField (l : RequestLine) : List Char :=
  "cmd: ".toList ++ (l.command ++ l.numberField)

/-- What follows the parenthesis that closes the application. -/
def afterApp (l : RequestLine) : List Char :=
  ' ' :: '(' :: (l.commandField ++ '(' :: l.timeField)

/-- The line. -/
def chars (l : RequestLine) : List Char :=
  l.opening ++ '(' :: ("app: ".toList ++ (l.app ++ ')' :: l.afterApp))

/-- The line. -/
def text (l : RequestLine) : String :=
  String.ofList l.chars

theorem toList_text (l : RequestLine) : l.text.toList = l.chars :=
  String.toList_ofList

variable (l : RequestLine)

/-! ### The probe and the driver -/

/-- The time of the line is the heading of a probe line. -/
def heading : Heading where
  before := l.pad
  whole := l.whole
  part := l.part
  after := []
  gap := [' ']
  before_blank := l.pad_blank
  whole_ne_nil := l.whole_valid.ne_nil
  whole_decimal := fun c hc => Text.isDecimal_of_isDigit (l.whole_valid.digit c hc)
  part_ne_nil := l.part_valid.ne_nil
  part_decimal := fun c hc => Text.isDecimal_of_isDigit (l.part_valid.digit c hc)
  after_blank := List.forall_mem_nil _
  gap_ne_nil := List.cons_ne_nil _ _
  gap_blank := Text.forall_blank

theorem headed : KernelLog.Headed l.chars .ioctl := by
  refine ⟨l.heading, ' ' :: (l.driver ++ (": ".toList ++
    '(' :: ("app: ".toList ++ (l.app ++ ')' :: l.afterApp)))), ?_⟩
  rw [chars, opening, List.append_assoc, List.append_assoc, List.append_assoc]
  rfl

/-- The line is one of the probe of requests, if that is configured. -/
theorem probe?_text (probes : List KernelProbe) :
    KernelLog.probe? probes l.text = if .ioctl ∈ probes then some .ioctl else none := by
  refine KernelLog.probe?_of_headed ?_ probes
  rw [l.toList_text]
  exact l.headed

/-- The stamp consists of blanks, digits and a few marks. -/
theorem mem_stamp {c : Char} (hc : c ∈ l.stamp) :
    Text.isBlank c = true ∨ Text.isDecimal c = true ∨ c ∈ ['[', '.', ']'] :=
  Heading.mem_chars (h := l.heading) hc

theorem initial_not_mem_stamp : 'I' ∉ l.stamp :=
  fun h => absurd (l.mem_stamp h) (by decide)

/-- The driver that is counted is the one that the line names. The keyword does not stand in the
    time stamp in front of it. -/
theorem driverOf_text : KernelLog.driverOf .ioctl l.text = some (String.ofList l.driver) := by
  let rest := ' ' :: '(' :: ("app: ".toList ++ (l.app ++ ')' :: l.afterApp))
  have hchars : l.chars
      = l.stamp ++ ("IOCTL".toList ++ (" ".toList ++ (l.driver ++ (":".toList ++ rest)))) := by
    rw [chars, opening, List.append_assoc, List.append_assoc, List.append_assoc]
    rfl
  have hopens : Pattern.OpensWith 'I' (KernelLog.driverPattern .ioctl) :=
    (Pattern.opensWith_text 'I' ['O', 'C', 'T', 'L']).seq _
  have hnamed : KernelLog.NamedAt .ioctl
      ("IOCTL".toList ++ (" ".toList ++ (l.driver ++ (":".toList ++ rest))))
      (String.ofList l.driver) := by
    unfold KernelLog.NamedAt
    rw [String.toList_ofList]
    exact ⟨l.driver_ne_nil, l.driver_valid, rest, rfl⟩
  rcases KernelLog.driverPattern_atStart hnamed with ⟨g, hg, hdriver⟩
  rw [KernelLog.driverOf, toList_text, hchars,
    Pattern.search_skip hopens l.initial_not_mem_stamp]
  exact (congrArg (Option.map _) (Pattern.search_of_atStart hg)).trans (congrArg some hdriver)

/-! ### Where the application stands -/

theorem not_mem_of_plain {s : List Char} (hs : ∀ c ∈ s, isPlain c = true) : '(' ∉ s :=
  fun h => absurd (hs _ h) (by decide)

theorem open_not_mem_opening : '(' ∉ l.opening := by
  simp only [opening, List.mem_append, not_or]
  exact ⟨fun h => absurd (l.mem_stamp h) (by decide), by decide,
    fun h => absurd (l.driver_valid _ h) (by decide), by decide⟩

theorem open_not_mem_commandField : '(' ∉ l.commandField := by
  simp only [commandField, numberField, List.mem_append, not_or]
  exact ⟨by decide, not_mem_of_plain l.command_plain, by decide,
    fun h => absurd (l.number_decimal _ h) (by decide), by decide⟩

theorem open_not_mem_timeField : '(' ∉ l.timeField := by
  have hseconds : '(' ∉ l.seconds.chars := fun h => (Offload.solid_of_mem_chars h).2.1 rfl
  simp only [timeField, List.mem_append, List.mem_cons, not_or]
  exact ⟨by decide, by decide, hseconds, by decide⟩

/-- A parenthesis behind the application opens the command or the time. -/
theorem afterApp_open {x y : List Char} (h : l.afterApp = x ++ '(' :: y) :
    (x = [' '] ∧ y = l.commandField ++ '(' :: l.timeField) ∨ y = l.timeField := by
  have hfirst : [' '] ++ '(' :: (l.commandField ++ '(' :: l.timeField) = x ++ '(' :: y := h
  rcases Text.split_mark (by decide) hfirst with hhere | ⟨x', _, hsecond⟩
  · exact Or.inl hhere
  · rcases Text.split_mark l.open_not_mem_commandField hsecond with ⟨_, hhere⟩ | ⟨x'', _, hthird⟩
    · exact Or.inr hhere
    · refine absurd ?_ l.open_not_mem_timeField
      rw [hthird]
      exact List.mem_append_right x'' (List.mem_cons_self ..)

/-- There is one place where the line can be read as one about an application. Three parentheses
    open in it; behind the first one the word is that of an application, behind the others it is
    not, and the fields between them hold no parenthesis. -/
theorem application_unique {x y : List Char} (h : l.chars = x ++ ("(app:".toList ++ y)) :
    x = l.opening ∧ y = ' ' :: (l.app ++ ')' :: l.afterApp) := by
  have hfirst : l.opening ++ '(' :: ("app: ".toList ++ (l.app ++ ')' :: l.afterApp))
      = x ++ '(' :: ("app:".toList ++ y) := h
  rcases Text.split_mark l.open_not_mem_opening hfirst with ⟨rfl, hhere⟩ | ⟨x', _, hrest⟩
  · refine ⟨rfl, ?_⟩
    exact List.append_cancel_left hhere
  · -- Behind the application other words stand in parentheses.
    exfalso
    have hname : '(' ∉ "app: ".toList ++ (l.app ++ [')', ' ']) := by
      simp only [List.mem_append, not_or]
      exact ⟨by decide, not_mem_of_plain l.app_plain, by decide⟩
    have hsecond : ("app: ".toList ++ (l.app ++ [')', ' '])) ++ '(' ::
        (l.commandField ++ '(' :: l.timeField) = x' ++ '(' :: ("app:".toList ++ y) := by
      rw [← hrest, afterApp]
      simp only [List.append_assoc, List.cons_append, List.nil_append]
    rcases Text.split_mark hname hsecond with ⟨_, hcommand⟩ | ⟨x'', _, hthird⟩
    · exact absurd (List.cons.inj hcommand).1 (by decide)
    · rcases Text.split_mark l.open_not_mem_commandField hthird with ⟨_, htime⟩ | ⟨z, _, hlast⟩
      · exact absurd (List.cons.inj htime).1 (by decide)
      · refine l.open_not_mem_timeField ?_
        rw [hlast]
        exact List.mem_append_right z (List.mem_cons_self ..)

/-- Where the line is read as one about an application, the command follows in the next
    parentheses. -/
theorem behind_application {x piece gap y rest : List Char} {g : Groups}
    (h : l.chars = x ++ (piece ++ (gap ++ '(' :: y)))
    (hpiece : Offload.appPattern.Derives piece rest g) (hgap : ∀ c ∈ gap, Text.isBlank c = true) :
    x = l.opening ∧ y = l.commandField ++ '(' :: l.timeField := by
  rcases Offload.appPattern_derives hpiece with ⟨inner, rfl, hinner⟩
  rw [List.append_assoc] at h
  rcases l.application_unique h with ⟨rfl, hbehind⟩
  refine ⟨rfl, ?_⟩
  -- Both readings close the parenthesis at the first place where they can.
  have hname : ')' ∉ ' ' :: l.app := by
    rw [List.mem_cons, not_or]
    exact ⟨by decide, fun hmem => absurd (l.app_plain _ hmem) (by decide)⟩
  have hsplit : (' ' :: l.app) ++ ')' :: l.afterApp = inner ++ ')' :: (gap ++ '(' :: y) := by
    rw [List.append_assoc] at hbehind
    exact hbehind.symm
  rcases Text.split_mark hname hsplit with ⟨_, hafter⟩ | ⟨x', hlonger, _⟩
  · have hopen : '(' ∉ gap := fun hmem => absurd (hgap _ hmem) (by decide)
    have hblank : gap ++ '(' :: y = [' '] ++ '(' :: (l.commandField ++ '(' :: l.timeField) := hafter
    rcases Text.split_mark hopen hblank with ⟨_, hcommand⟩ | ⟨z, hlonger, _⟩
    · exact hcommand.symm
    · refine absurd ?_ (show '(' ∉ [' '] by decide)
      rw [hlonger]
      exact List.mem_append_right gap (List.mem_cons_self ..)
  · rw [hlonger] at hinner
    exact absurd (List.mem_append_right _ (List.mem_cons_self ..)) hinner

/-! ### Samples of other kinds -/

/-- No timing line: another word stands in the second parentheses. There a timing line has the
    kind of call, and this line has a command. -/
theorem sample?_kernel_text : Offload.sample? .kernel l.text = none := by
  rw [Offload.sample?, toList_text, Pattern.find_eq_search, Option.bind_eq_none_iff]
  intro g hg
  exfalso
  -- What a match would say about the line, up to the kind of call.
  rcases Pattern.search_eq_some hg with ⟨skipped, _, rest, hline, hmatch⟩
  rcases hmatch with ⟨word, _, _, _, rfl, _, _, hmatch⟩
  rcases hmatch with ⟨gap₁, _, _, _, rfl, _, _, hmatch⟩
  rcases hmatch with ⟨name, _, _, _, rfl, _, _, hmatch⟩
  rcases hmatch with ⟨colon, _, _, _, rfl, _, _, hmatch⟩
  rcases hmatch with ⟨gap₂, _, _, _, rfl, _, _, hmatch⟩
  rcases hmatch with ⟨app, _, _, _, rfl, _, happ, hmatch⟩
  rcases hmatch with ⟨gap₃, _, _, _, rfl, _, ⟨hgap, _⟩, hmatch⟩
  rcases hmatch with ⟨_, _, _, _, rfl, _, ⟨rfl, _⟩, hmatch⟩
  rcases hmatch with ⟨kind, tail, _, _, rfl, _, ⟨_, _, hkind⟩, _⟩
  have hplace : l.chars = (skipped ++ (word ++ (gap₁ ++ (name ++ (colon ++ gap₂))))) ++
      (app ++ (gap₃ ++ '(' :: (kind ++ (tail ++ rest)))) := by
    rw [hline]
    simp only [List.append_assoc]
    rfl
  have hcommand := (l.behind_application hplace happ hgap).2
  rcases hkind with ⟨rfl, _⟩ | ⟨rfl, _⟩
  · exact absurd (List.cons.inj hcommand).1 (by decide)
  · exact absurd (List.cons.inj hcommand).1 (by decide)

/-- No driver line, for the same reason: what stands behind the application is the command. -/
theorem sample?_driver_text : Offload.sample? .driver l.text = none := by
  rw [Offload.sample?, toList_text, Pattern.find_eq_search, Option.bind_eq_none_iff]
  intro g hg
  exfalso
  rcases Pattern.search_eq_some hg with ⟨skipped, _, rest, hline, hmatch⟩
  rcases hmatch with ⟨app, _, _, _, rfl, _, happ, hmatch⟩
  rcases hmatch with ⟨gap, _, _, _, rfl, _, ⟨hgap, _⟩, hmatch⟩
  rcases hmatch with ⟨_, tail, _, _, rfl, _, ⟨rfl, _⟩, _⟩
  have hplace : l.chars
      = skipped ++ (app ++ (gap ++ '(' :: ("driver)".toList ++ (tail ++ rest)))) := by
    rw [hline]
    simp only [List.append_assoc]
    rfl
  -- Behind the application stands the command, and not the word of the driver.
  have hcommand := (l.behind_application hplace happ hgap).2
  exact absurd (List.cons.inj hcommand).1 (by decide)

/-! ### The application and the command -/

/-- What the pattern of requests wants behind a command. -/
def behindCommand : Pattern :=
  .all [.blanks, .str "[", .digits1, .str "]", .blanks, .str ")"]

theorem isInLine_of_plain {c : Char} (h : isPlain c = true) : Pattern.isInLine c = true := by
  rw [Pattern.isInLine, bne_iff_ne]
  rintro rfl
  exact absurd h (by decide)

/-- Behind the command stands what the pattern of requests wants there. -/
theorem behindCommand_atStart :
    behindCommand.atStart (l.numberField ++ '(' :: l.timeField) = some [] := by
  have hderives : behindCommand.Derives
      (" ".toList ++ ("[".toList ++ (l.number ++ ("]".toList ++ ([] ++ ")".toList)))))
      (' ' :: '(' :: l.timeField) _ :=
    ⟨_, _, [], _, rfl, rfl, ⟨Text.forall_blank, rfl⟩, _, _, [], _, rfl, rfl, ⟨rfl, rfl⟩,
      _, _, [], _, rfl, rfl, Pattern.derives_some1 l.number_ne_nil l.number_decimal _,
      _, _, [], _, rfl, rfl, ⟨rfl, rfl⟩,
      _, _, [], [], rfl, rfl, ⟨List.forall_mem_nil _, rfl⟩, rfl, rfl⟩
  have hmatch := Pattern.atStart_eq_nil rfl hderives
  simp only [numberField, List.append_assoc] at hmatch ⊢
  exact hmatch

/-- The command is found as it stands in front of its number. -/
theorem first_command :
    (Pattern.seq (.group 2 (.few1 Pattern.isInLine)) behindCommand).atStart
        (l.command ++ (l.numberField ++ '(' :: l.timeField))
      = some [(2, l.command ++ (l.numberField ++ '(' :: l.timeField)),
          (2, l.numberField ++ '(' :: l.timeField)] := by
  have hopens := (Pattern.opensWith_text '[' []).seq
    (.all [.digits1, .str "]", .blanks, .str ")"])
  have hbracket : '[' ∉ l.command := fun hmem => absurd (l.command_plain _ hmem) (by decide)
  exact Pattern.first_group_few1 2 hopens l.command_ne_nil
    (fun c hc => isInLine_of_plain (l.command_plain c hc)) hbracket l.command_trimmed.last
    l.behindCommand_atStart

theorem head_command : (l.command.head?.any fun c => !Text.isBlank c) = true := by
  have htrimmed := l.command_trimmed.head
  cases hcommand : l.command with
  | nil => exact absurd hcommand l.command_ne_nil
  | cons c command =>
    rw [hcommand] at htrimmed
    rw [List.head?_cons, Option.any_some, htrimmed c rfl]
    rfl

/-- What the pattern of requests wants behind an application. -/
def commandPattern : Pattern :=
  .all [.blanks, .str "(cmd:", .blanks, .seq (.group 2 (.few1 Pattern.isInLine)) behindCommand]

theorem commandPattern_atStart :
    commandPattern.atStart l.afterApp
      = some [(2, l.command ++ (l.numberField ++ '(' :: l.timeField)),
          (2, l.numberField ++ '(' :: l.timeField)] := by
  have hfields : l.afterApp
      = ' ' :: ("(cmd:".toList ++ ' ' :: (l.command ++ (l.numberField ++ '(' :: l.timeField))) := by
    rw [afterApp, commandField, List.append_assoc, List.append_assoc]
    rfl
  have hcommand := Pattern.first_blank_seq (Text.head_solid l.head_command _)
    l.first_command
  rw [hfields]
  exact Pattern.first_blank_seq (Text.head_solid (s := "(cmd:".toList) (by decide) _)
    (Pattern.first_text_seq "(cmd:".toList hcommand)

theorem app_inside : ∀ c ∈ l.app, Offload.isInside c = true := by
  intro c hc
  rw [Offload.isInside, bne_iff_ne]
  rintro rfl
  exact absurd (l.app_plain _ hc) (by decide)

/-- The application and the command are found. Neither of them holds a mark, so each ends at the
    next one. -/
theorem entryOf?_text :
    Breakdown.entryOf? Breakdown.requestPattern l.text
      = some (String.ofList l.app, String.ofList l.command) := by
  have happ : Breakdown.requestPattern.atStart ('(' :: ("app: ".toList ++
      (l.app ++ ')' :: l.afterApp))) = some _ :=
    Offload.first_appPattern l.app_inside l.app_trimmed l.commandPattern_atStart
  -- The pattern begins with a parenthesis, and the first one is that of the application.
  have hopens : Pattern.OpensWith '(' Breakdown.requestPattern :=
    ((Pattern.opensWith_text '(' ['a', 'p', 'p', ':']).seq _).seq _
  rw [Breakdown.entryOf?, toList_text, Pattern.find_eq_search, chars,
    Pattern.search_skip hopens l.open_not_mem_opening, Pattern.search_of_atStart happ,
    Option.map_some, Option.some.injEq, Prod.mk.injEq]
  refine ⟨Groups.get_here 1 l.app _ _, ?_⟩
  rw [Groups.get_further (by decide), Groups.get_further (by decide)]
  exact Groups.get_here 2 l.command _ []

/-! ### Samples of the graphics driver -/

/-- What the pattern of the graphics driver wants behind an application. -/
def timePattern : Pattern :=
  .all [.many Pattern.isInLine, .str "(time:", .blanks, Offload.secondsPattern 2, .blanks,
    .str ")"]

theorem inLine_commandField : ∀ c ∈ ' ' :: '(' :: l.commandField, Pattern.isInLine c = true := by
  intro c hc
  rw [Pattern.isInLine, bne_iff_ne]
  rintro rfl
  simp only [commandField, numberField, List.mem_cons, List.mem_append] at hc
  rcases hc with hc | hc | hc | hc | hc | hc | hc
  · exact absurd hc (by decide)
  · exact absurd hc (by decide)
  · exact absurd hc (by decide)
  · exact absurd (l.command_plain _ hc) (by decide)
  · exact absurd hc (by decide)
  · exact absurd (l.number_decimal _ hc) (by decide)
  · exact absurd hc (by decide)

/-- The seconds are found behind the application. That there is a match is shown by a derivation,
    and what it matches by going through all there could be: only one parenthesis has the word for
    the time, and the number behind it is solid. -/
theorem timePattern_atStart :
    ∃ g, timePattern.atStart l.afterApp = some g ∧ g.get 2 = String.ofList l.seconds.chars := by
  have hderives : timePattern.Derives ((' ' :: '(' :: l.commandField) ++ ("(time:".toList ++
      (" ".toList ++ (l.seconds.chars ++ ([] ++ ")".toList))))) [] _ :=
    ⟨_, _, [], _, rfl, rfl, ⟨l.inLine_commandField, rfl⟩, _, _, [], _, rfl, rfl, ⟨rfl, rfl⟩,
      _, _, [], _, rfl, rfl, ⟨Text.forall_blank, rfl⟩, _, _, _, _, rfl, rfl,
      Offload.secondsPattern_chars 2 l.seconds _, _, _, [], [], rfl, rfl,
      ⟨List.forall_mem_nil _, rfl⟩, rfl, rfl⟩
  have hsome := Pattern.atStart_isSome hderives
  have hfields : ((' ' :: '(' :: l.commandField) ++ ("(time:".toList ++
      (" ".toList ++ (l.seconds.chars ++ ([] ++ ")".toList))))) ++ [] = l.afterApp := by
    rw [List.append_nil]
    rfl
  rw [hfields] at hsome
  rcases Option.isSome_iff_exists.mp hsome with ⟨g, hg⟩
  refine ⟨g, hg, ?_⟩
  -- Whatever the match is, the parts of the line are where it says.
  rcases Pattern.atStart_eq_some hg with ⟨_, rest, hline, hmatch⟩
  rcases hmatch with ⟨front, _, _, _, rfl, rfl, ⟨_, rfl⟩, hmatch⟩
  rcases hmatch with ⟨_, _, _, _, rfl, rfl, ⟨rfl, rfl⟩, hmatch⟩
  rcases hmatch with ⟨gap, _, _, _, rfl, rfl, ⟨hgap, rfl⟩, hmatch⟩
  rcases hmatch with ⟨piece, _, _, _, rfl, rfl, hpiece, hmatch⟩
  rcases hmatch with ⟨gap', _, _, _, rfl, rfl, ⟨hgap', rfl⟩, ⟨rfl, rfl⟩⟩
  rw [(Offload.seconds_derives hpiece).1]
  refine (Groups.get_here 2 piece _ []).trans (congrArg String.ofList ?_)
  -- Two parentheses open behind the application, and the word tells them apart.
  have hplace : l.afterApp = front ++ '(' :: ("time:".toList ++ (gap ++ (piece ++
      (gap' ++ ')' :: rest)))) := by
    rw [hline]
    simp only [List.append_assoc]
    rfl
  rcases l.afterApp_open hplace with ⟨_, hcommand⟩ | htime
  · exact absurd (List.cons.inj hcommand).1 (by decide)
  · exact Offload.seconds_unique hpiece l.seconds hgap hgap' (List.append_cancel_left htime)

/-- A line of the graphics driver holds a sample: the application and the seconds are found. -/
theorem graphicsPattern_search (hdriver : l.driver = "kgsl".toList) :
    ∃ g, Offload.graphicsPattern.search l.chars = some g ∧
      g.get 1 = String.ofList l.app ∧ g.get 2 = String.ofList l.seconds.chars := by
  rcases l.timePattern_atStart with ⟨g, hg, hseconds⟩
  have happ := Offload.first_appPattern l.app_inside l.app_trimmed hg
  have hopening : l.chars = l.stamp ++ ("IOCTL".toList ++ ' ' :: ("kgsl:".toList ++ ' ' ::
      ("(app:".toList ++ ' ' :: (l.app ++ ')' :: l.afterApp)))) := by
    rw [chars, opening, hdriver, List.append_assoc]
    rfl
  have hopens : Pattern.OpensWith 'I' Offload.graphicsPattern :=
    (Pattern.opensWith_text 'I' ['O', 'C', 'T', 'L']).seq _
  -- The parts of the pattern from the application back to the keyword.
  have hname := Pattern.first_text_seq "kgsl:".toList
    (Pattern.first_blank_seq (Text.head_solid (s := "(app:".toList) (by decide) _) happ)
  have hmatch : Offload.graphicsPattern.atStart _ = some _ :=
    Pattern.first_text_seq "IOCTL".toList
      (Pattern.first_blank1_seq (Text.head_solid (s := "kgsl:".toList) (by decide) _) hname)
  rw [hopening, Pattern.search_skip hopens l.initial_not_mem_stamp]
  refine ⟨_, Pattern.search_of_atStart hmatch, Groups.get_here 1 l.app _ _, ?_⟩
  rw [Groups.get_further (by decide), Groups.get_further (by decide)]
  exact hseconds

/-- A line that is read as one of the graphics driver names it. The match and the line have the
    same place for the application; in front of it both have a name that ends at a colon, so the
    names are the same. -/
theorem driver_of_graphicsPattern {g : Groups}
    (h : Offload.graphicsPattern.search l.chars = some g) : l.driver = "kgsl".toList := by
  -- The parts of the match, up to the application.
  rcases Pattern.search_eq_some h with ⟨skipped, _, rest, hline, hmatch⟩
  rcases hmatch with ⟨_, _, _, _, rfl, _, ⟨rfl, _⟩, hmatch⟩
  rcases hmatch with ⟨_, _, _, _, rfl, _, ⟨_, gap, _, _, rfl, _, ⟨⟨first, hfirst, rfl⟩, _⟩,
    hgap, _⟩, hmatch⟩
  rcases hmatch with ⟨_, _, _, _, rfl, _, ⟨rfl, _⟩, hmatch⟩
  rcases hmatch with ⟨gap', _, _, _, rfl, _, ⟨hgap', _⟩, hmatch⟩
  rcases hmatch with ⟨_, behind, _, _, rfl, _, happ, _⟩
  rcases Offload.appPattern_derives happ with ⟨inner, rfl, _⟩
  have hplace : l.chars = (skipped ++ ("IOCTL".toList ++ (first :: gap)) ++ "kgsl".toList ++ [':']
      ++ gap') ++ ("(app:".toList ++ (inner ++ ([')'] ++ (behind ++ rest)))) := by
    rw [hline]
    simp only [List.append_assoc, List.cons_append, List.nil_append]
    rfl
  have hopening : l.stamp ++ "IOCTL ".toList ++ l.driver ++ [':'] ++ [' ']
      = skipped ++ ("IOCTL".toList ++ (first :: gap)) ++ "kgsl".toList ++ [':'] ++ gap' := by
    rw [(l.application_unique hplace).1, opening]
    simp only [List.append_assoc]
    rfl
  -- The last colon ends a name on both sides, and a blank stands in front of either.
  have hcolon : ∀ x : List Char, ∀ c ∈ (x ++ [':']).getLast?, Text.isBlank c = false := by
    intro x c hc
    rw [List.getLast?_concat, Option.mem_some_iff] at hc
    rw [← hc]
    decide
  have hnames := List.append_cancel_right
    (Text.split_run_end Text.forall_blank hgap' (hcolon _) (hcolon _) hopening).1
  have hsolid : ∀ c ∈ l.driver, (!Text.isBlank c) = true := by
    intro c hc
    rw [Pattern.isBlank_of_isNameChar (l.driver_valid c hc)]
    rfl
  refine (Text.split_run_end hsolid (List.all_eq_true.mp (by decide)) ?_ ?_ hnames).2
  · intro c hc
    rw [List.getLast?_append] at hc
    rw [← Option.some.inj hc]
    decide
  · intro c hc
    have hblanks : ∀ d ∈ first :: gap, Text.isBlank d = true :=
      List.forall_mem_cons.mpr ⟨hfirst, hgap⟩
    rw [List.getLast?_append, List.getLast?_append,
      List.getLast?_eq_some_getLast (List.cons_ne_nil first gap)] at hc
    rw [← Option.some.inj hc, hblanks _ (List.getLast_mem (List.cons_ne_nil first gap))]
    rfl

/-- The line is a sample of the graphics driver if that wrote it for a benchmark, and the
    sample is the time that the request took. -/
theorem sample?_graphics_text :
    Offload.sample? .gpu l.text
      = if l.driver = "kgsl".toList ∧ ∃ p ∈ Offload.benchmarkProcesses, p.toList <+: l.app then
          some l.seconds.literal.value
        else none := by
  rw [Offload.sample?, toList_text, Pattern.find_eq_search]
  by_cases hdriver : l.driver = "kgsl".toList
  · rcases l.graphicsPattern_search hdriver with ⟨g, hg, happ, hseconds⟩
    have hvalue : Offload.sampleOf .gpu g = some l.seconds.literal.value := by
      rw [Offload.sampleOf, hseconds, Offload.seconds?_chars]
    have hbelongs : Offload.belongsToBenchmark (g.get 1) = true ↔
        ∃ p ∈ Offload.benchmarkProcesses, p.toList <+: l.app := by
      rw [happ]
      exact Offload.belongsToBenchmark_trimmed l.app_trimmed
    have hfound : (Offload.pattern .gpu).search l.chars = some g := hg
    rw [hfound, Option.bind_some, hvalue]
    simp only [hbelongs, hdriver, true_and]
  · have hnone : (Offload.pattern .gpu).search l.chars = none := by
      rw [Option.eq_none_iff_forall_ne_some]
      intro g hg
      exact hdriver (l.driver_of_graphicsPattern hg)
    rw [hnone, if_neg fun h => hdriver h.1]
    rfl

/-- Everything that reads a line of a request takes it for the same:

    * it is of the probe of requests, if that is configured;
    * the driver that is counted is the one that it names;
    * broken down, it is one more of its command for its application, and nothing else
      changes;
    * it is a sample of the graphics driver exactly if this driver wrote it for a benchmark,
      and then the sample is the time of the request;
    * among other lines an estimate of this kind adds exactly this sample in its place, and
      it makes no difference to the other kinds of offload time. -/
theorem parsers_agree :
    (∀ probes, KernelLog.probe? probes l.text
      = if .ioctl ∈ probes then some .ioctl else none) ∧
    KernelLog.driverOf .ioctl l.text = some (String.ofList l.driver) ∧
    (∀ b : Breakdown,
      b.count [l.text] .ioctl = .ok (b.bump (String.ofList l.app, String.ofList l.command)) ∧
      ∀ app command,
        (b.bump (String.ofList l.app, String.ofList l.command)).countOf app command
          = b.countOf app command
            + if String.ofList l.app = app ∧ String.ofList l.command = command then 1 else 0) ∧
    Offload.sample? .gpu l.text
      = (if l.driver = "kgsl".toList ∧ ∃ p ∈ Offload.benchmarkProcesses, p.toList <+: l.app then
          some l.seconds.literal.value
        else none) ∧
    ∀ (before after : List String) (stats : Statistics),
      Offload.update .gpu (before ++ l.text :: after) stats
        = Offload.applySamples (before.filterMap (Offload.sample? .gpu)
            ++ ((if l.driver = "kgsl".toList ∧
                  ∃ p ∈ Offload.benchmarkProcesses, p.toList <+: l.app then
                [l.seconds.literal.value] else [])
              ++ after.filterMap (Offload.sample? .gpu))) stats ∧
      Offload.update .kernel (before ++ l.text :: after) stats
        = Offload.update .kernel (before ++ after) stats ∧
      Offload.update .driver (before ++ l.text :: after) stats
        = Offload.update .driver (before ++ after) stats := by
  refine ⟨l.probe?_text, l.driverOf_text, fun b => ⟨?_, fun app command => ?_⟩,
    l.sample?_graphics_text, fun before after stats => ⟨?_, ?_, ?_⟩⟩
  · rw [Breakdown.count, Breakdown.pattern?]
    simp only [List.filterMap_cons, l.entryOf?_text, List.filterMap_nil, List.foldl_cons,
      List.foldl_nil]
  · rw [Breakdown.countOf_bump]
    simp only [Prod.mk.injEq]
  · exact Offload.update_insert_ite l.sample?_graphics_text before after stats
  · exact Offload.update_skip l.sample?_kernel_text before after stats
  · exact Offload.update_skip l.sample?_driver_text before after stats

/-- One and a half milliseconds, in the notation that uses all of it. -/
def signedMilliseconds : Numeral where
  sign := some '+'
  whole := ['1']
  fraction := some ['5']
  exponent := some ⟨'e', some '-', ['3'], Or.inl rfl, isSign_some (Or.inl rfl),
    isDigits_of (by decide) (by decide)⟩
  sign_valid := isSign_some (Or.inr rfl)
  whole_valid := isDigits_of (by decide) (by decide)
  fraction_valid := fun digits hfraction => by
    rw [← Option.some.inj hfraction]
    exact isDigits_of (by decide) (by decide)

/-- A line of the graphics driver about a benchmark. Its command is named like another
    probe. -/
def benchmarkRequest : RequestLine where
  pad := [' ']
  whole := "12".toList
  part := "5".toList
  driver := "kgsl".toList
  app := "benchmark_model 2".toList
  command := "TIME".toList
  number := "74".toList
  seconds := signedMilliseconds
  pad_blank := Text.forall_blank
  whole_valid := isDigits_of (by decide) (by decide)
  part_valid := isDigits_of (by decide) (by decide)
  driver_ne_nil := by decide
  driver_valid := List.all_eq_true.mp (by decide)
  app_plain := List.all_eq_true.mp (by decide)
  app_trimmed := Text.isTrimmed_of (by decide) (by decide)
  command_ne_nil := by decide
  command_plain := List.all_eq_true.mp (by decide)
  command_trimmed := Text.isTrimmed_of (by decide) (by decide)
  number_ne_nil := by decide
  number_decimal := List.all_eq_true.mp (by decide)

/-- The case of this line. -/
theorem parsers_agree_benchmark :
    benchmarkRequest.text
      = "[ 12.5] IOCTL kgsl: (app: benchmark_model 2) (cmd: TIME [74]) (time: +1.5e-3)" ∧
    benchmarkRequest.seconds.literal = ⟨false, 15, -4⟩ ∧
    Offload.sample? .gpu benchmarkRequest.text = some (Literal.value ⟨false, 15, -4⟩) ∧
    ∀ stats, Offload.update .gpu [benchmarkRequest.text] stats
      = Offload.applySamples [Literal.value ⟨false, 15, -4⟩] stats := by
  rcases parsers_agree benchmarkRequest with ⟨_, _, _, hsample, hupdate⟩
  have hbenchmark : benchmarkRequest.driver = "kgsl".toList ∧
      ∃ p ∈ Offload.benchmarkProcesses, p.toList <+: benchmarkRequest.app :=
    ⟨rfl, "benchmark_model", by decide, by decide⟩
  refine ⟨by decide, by decide, ?_, fun stats => ?_⟩
  · exact hsample.trans (if_pos hbenchmark)
  · have hadded := (hupdate [] [] stats).1
    rw [if_pos hbenchmark] at hadded
    exact hadded

end RequestLine

end AccelMonitor
