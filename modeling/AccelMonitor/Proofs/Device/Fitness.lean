import AccelMonitor.Monitor.Program
import AccelMonitor.Proofs.Number.Digits
import AccelMonitor.Proofs.Text.Pieces
import AccelMonitor.Proofs.Text.Splitting
import AccelMonitor.Proofs.Text.Words

/-!
# Which Setups Are Fit

What the preflight accepts, what it asks, and what the exit code makes of its failures.

A host answers each question from a state of its own, so the same question may be answered
differently the second time. An `Interview` holds the answers that the host would give if
all questions were asked in order. The checks ask them up to the first one that fails, so
whatever they find out is a matter of the interview.

The exit code is found out from the wording of a failure, by looking for phrases. Two
failures are worded with the phrase for a missing permission. The wordings of the others
hold no phrase, although they may hold a number or the reason why a command could not be
started: a phrase has no digit in it, and neither a colon, so it does not stand across the
places where such a wording was put together.

## Main definitions

* `Harmless`: A text without the phrases that decide about the exit code.
* `Preflight.Interview`, `Preflight.interview`: What a host answers to the questions.
* `Preflight.Lists`: The only line of a listing that stands for a device.
* `Preflight.Connects`, `Preflight.Unauthorized`: What such a line says.
* `Preflight.EndsAsRoot`, `Preflight.StaysOther`: Who the bridge runs as in the end.
* `Preflight.verdict`, `Preflight.asked`: What the checks come to, and what they ask.

## Theorems

* `Attempt.perform_bind`, `Attempt.commands_bind`: One attempt after another.
* `Harmless.append_cause`, `Harmless.append_natText`: Harmless texts stay harmless.
* `deviceLines_eq_singleton`, `entryOf_eq_ok`, `entryOf_eq_unauthorized`: What a listing
  says.
* `perform_check`, `commands_check`: All checks are a matter of the interview.
* `verdict_eq_ok`, `verdict_eq_unauthorized`, `verdict_eq_notRoot`: What all checks come to.
* `exitCode_message`: The exit code of a failure.
* `fit_exactly`: All of it, for any host.
* `passed_without_status`: A device without a status is accepted.
-/

namespace AccelMonitor

namespace Attempt

variable {ε α β σ : Type}

/-- What one attempt after another comes to. -/
theorem perform_bind (shell : Shell σ) (p : Attempt ε α) (f : α → Attempt ε β) (s : σ) :
    (p >>= f).perform shell s
      = match p.perform shell s with
        | (.ok a, s') => (f a).perform shell s'
        | (.error e, s') => (.error e, s') := by
  have hscript : (p >>= f).script = p.script.bind (ExceptT.bindCont f) := rfl
  unfold perform
  rw [hscript, Script.run_bind]
  rcases p.script.run shell s with ⟨e | a, s'⟩
  · rfl
  · rfl

/-- The commands that one attempt after another asks. -/
theorem commands_bind (shell : Shell σ) (p : Attempt ε α) (f : α → Attempt ε β) (s : σ) :
    (p >>= f).script.commands shell s
      = p.script.commands shell s ++ match p.perform shell s with
        | (.ok a, s') => (f a).script.commands shell s'
        | (.error _, _) => [] := by
  have hscript : (p >>= f).script = p.script.bind (ExceptT.bindCont f) := rfl
  unfold Script.commands perform
  rw [hscript, Script.transcript_bind, List.map_append]
  rcases p.script.run shell s with ⟨e | a, s'⟩
  · rfl
  · rfl

end Attempt

/-! ### Wordings without a phrase -/

/-- The phrases that decide about the exit code. -/
def decidingPhrases : List String :=
  ["permission denied", "requires root", "missing required argument"]

/-- The text holds none of the phrases that decide about the exit code. -/
def Harmless (text : String) : Prop :=
  ∀ phrase ∈ decidingPhrases, Text.holds phrase (lowered text) = false

instance (text : String) : Decidable (Harmless text) :=
  inferInstanceAs (Decidable (∀ phrase ∈ decidingPhrases, _))

theorem harmless_iff {text : String} :
    Harmless text ↔
      ∀ phrase ∈ decidingPhrases, ¬ phrase.toList <:+: text.toList.map Char.toLower := by
  simp only [Harmless, Text.holds, lowered, String.toList_ofList, ← Bool.not_eq_true,
    Text.holdsList_iff]

theorem exitCode_harmless {text : String} (h : Harmless text) : exitCode text = 1 := by
  rw [Harmless, decidingPhrases, List.forall_mem_cons, List.forall_mem_cons,
    List.forall_mem_singleton] at h
  rw [exitCode, h.1, h.2.1, h.2.2]
  rfl

/-- The end of a harmless text is harmless. -/
theorem Harmless.of_append {a b : String} (h : Harmless (a ++ b)) : Harmless b := by
  rw [harmless_iff] at h ⊢
  intro phrase hphrase hb
  refine h phrase hphrase (hb.trans ?_)
  rw [String.toList_append, List.map_append]
  exact (List.suffix_append _ _).isInfix

/-- Why a command could not be started is said at the end of the wording. -/
theorem Harmless.reason {f : SpawnFailure} (h : Harmless f.message) : Harmless f.reason :=
  Harmless.of_append (a := "Failed to spawn `" ++ f.command ++ "`: ") h

/-- No phrase stands across the colon in front of a cause, since none contains a colon and none
    begins with a blank. So a message made of harmless parts is harmless. -/
theorem Harmless.append_cause {a b : String} (ha : Harmless a) (hb : Harmless b) :
    Harmless (a ++ ": " ++ b) := by
  rw [harmless_iff] at ha hb ⊢
  intro phrase hphrase h
  have hchars : (a ++ ": " ++ b).toList.map Char.toLower
      = a.toList.map Char.toLower ++ ':' :: ' ' :: b.toList.map Char.toLower := by
    rw [String.toList_append, String.toList_append, List.append_assoc, List.map_append]
    rfl
  have hcolon : ∀ phrase ∈ decidingPhrases, ':' ∉ phrase.toList := by decide
  have hblank : ∀ phrase ∈ decidingPhrases,
      phrase.toList ≠ [] ∧ phrase.toList.head? ≠ some ' ' := by decide
  rw [hchars] at h
  rcases Text.infix_append_cons (hcolon phrase hphrase) h with h | h
  · exact ha phrase hphrase h
  · rcases List.infix_cons_iff.mp h with h | h
    · rcases List.prefix_cons_iff.mp h with hnil | ⟨rest, hcons, _⟩
      · exact (hblank phrase hphrase).1 hnil
      · exact (hblank phrase hphrase).2 (congrArg List.head? hcons)
    · exact hb phrase hphrase h

/-- A digit is no capital. -/
theorem toLower_of_isDigit {c : Char} (h : Text.isDigit c = true) : c.toLower = c := by
  rw [Text.isDigit, Bool.and_eq_true, decide_eq_true_eq, decide_eq_true_eq] at h
  have hsmall : ¬ (c.val ≥ 'A'.val ∧ c.val ≤ 'Z'.val) := by
    intro hcapital
    have hle : 'A'.val ≤ '9'.val := UInt32.le_trans hcapital.1 h.2
    exact absurd hle (by decide)
  exact dif_neg hsmall

/-- No phrase stands across the beginning of a number, because no phrase has a digit in it. -/
theorem Harmless.append_natText {a : String} (ha : Harmless a) (n : Nat) :
    Harmless (a ++ natText n) := by
  rw [harmless_iff] at ha ⊢
  intro phrase hphrase h
  rw [String.toList_append, List.map_append] at h
  refine ha phrase hphrase (Text.infix_append ?_ h)
  -- No phrase contains a digit, so none reaches into the number.
  have hletters : ∀ phrase ∈ decidingPhrases,
      (phrase.toList.all fun c => !Text.isDigit c) = true := by decide
  intro c hc hmem
  rcases List.mem_map.mp hc with ⟨d, hd, rfl⟩
  rw [natText, String.toList_ofList] at hd
  have hdigit := isDigit_of_mem_decimalDigits hd
  rw [toLower_of_isDigit hdigit] at hmem
  have hletter := List.all_eq_true.mp (hletters phrase hphrase) d hmem
  rw [hdigit] at hletter
  cases hletter

namespace Preflight

/-! ### What a host answers -/

/-- What a host answers to the questions of the checks, asked in order. A check that fails
    leaves the later questions unasked. Their answers are here all the same, and statements
    about them say first that they were reached. -/
structure Interview where
  which : Answer
  devices : Answer
  /-- Who the bridge runs as. -/
  user : Answer
  /-- The restart as root. -/
  restart : Answer
  /-- Who the bridge runs as after that. -/
  userAgain : Answer

/-- The command could be started. -/
def Started (answer : Answer) : Prop :=
  ∃ lines, answer = .ok lines

/-- The command printed something. -/
def Prints (answer : Answer) : Prop :=
  ∃ line rest, answer = .ok (line :: rest)

/-- There is nothing to see on the line. -/
def IsBlankLine (line : String) : Prop :=
  ∀ c ∈ line.toList, Text.isBlank c = true

/-- Behind the heading of a listing there is this line, and all others are blank. -/
def Lists (answer : Answer) (line : String) : Prop :=
  ∃ heading before after, answer = .ok (heading :: (before ++ line :: after)) ∧
    ¬ IsBlankLine line ∧ ∀ other ∈ before ++ after, IsBlankLine other

/-- The only device has the serial number, and whatever its status is, it has accepted the
    host. -/
def Connects (answer : Answer) (serial : String) : Prop :=
  ∃ line rest, Lists answer line ∧ Text.words line = serial :: rest ∧
    rest.head? ≠ some "unauthorized"

/-- The only device has not accepted the host. -/
def Unauthorized (answer : Answer) : Prop :=
  ∃ line serial rest, Lists answer line ∧ Text.words line = serial :: "unauthorized" :: rest

/-- The first line of the output is the name of root. -/
def NamesRoot (answer : Answer) : Prop :=
  ∃ user rest, answer = .ok (user :: rest) ∧ Text.trim user = "root"

/-- There is an output, and it does not name root. -/
def NamesOther (answer : Answer) : Prop :=
  Started answer ∧ ¬ NamesRoot answer

/-- The bridge runs as root, at once or after the restart. -/
def EndsAsRoot (i : Interview) : Prop :=
  NamesRoot i.user ∨ NamesOther i.user ∧ Started i.restart ∧ NamesRoot i.userAgain

/-- The bridge does not run as root, not even after the restart. -/
def StaysOther (i : Interview) : Prop :=
  NamesOther i.user ∧ Started i.restart ∧ NamesOther i.userAgain

/-- The first two checks are passed, so it is asked who the bridge runs as. -/
def HasDevice (i : Interview) : Prop :=
  Prints i.which ∧ ∃ serial, Connects i.devices serial

/-- The device has not accepted the host, or it has and the bridge does not run as root. -/
def LacksPermission (i : Interview) : Prop :=
  Prints i.which ∧ Unauthorized i.devices ∨ HasDevice i ∧ StaysOther i

variable {σ : Type} (shell : Shell σ) (s : σ)

/-- What a host answers to the questions, from a state on. -/
def interview : Interview :=
  let which := shell.answer "which adb" s
  let devices := shell.answer "adb devices" which.2
  let user := shell.answer "adb shell whoami" devices.2
  let restart := shell.answer "adb root" user.2
  let userAgain := shell.answer "adb shell whoami" restart.2
  ⟨which.1, devices.1, user.1, restart.1, userAgain.1⟩

theorem not_started_error (f : SpawnFailure) : ¬ Started (.error f) := by
  rintro ⟨lines, h⟩
  cases h

theorem prints_ok_iff {lines : List String} : Prints (.ok lines) ↔ lines ≠ [] := by
  cases lines with
  | nil =>
    constructor
    · rintro ⟨_, _, h⟩
      cases h
    · intro h
      exact absurd rfl h
  | cons line rest => exact ⟨fun _ => List.cons_ne_nil _ _, fun _ => ⟨line, rest, rfl⟩⟩

/-- A line is left out of a listing exactly if it is blank. -/
theorem trim_eq_empty_iff {line : String} : Text.trim line = "" ↔ IsBlankLine line := by
  rw [IsBlankLine, ← Text.trimList_eq_nil_iff, Text.trim]
  exact ⟨fun h => String.ofList_inj.mp h, fun h => congrArg String.ofList h⟩

/-- A listing has one line for a device exactly if that is the only one that is not blank. The
    first line of a listing is its heading and is never counted, whatever it says, so an empty
    listing has no line for a device either. -/
theorem deviceLines_eq_singleton {listing : List String} {line : String} :
    deviceLines listing = [line] ↔ Lists (.ok listing) line := by
  -- The filter drops exactly the blank lines.
  have hfilter : ∀ {other : String}, ¬ (Text.trim other != "") = true ↔ IsBlankLine other := by
    intro other
    rw [bne_iff_ne, not_not, trim_eq_empty_iff]
  rw [deviceLines, List.filter_eq_cons_iff]
  constructor
  · rintro ⟨before, after, hsplit, hbefore, hline, hafter⟩
    cases listing with
    | nil =>
      have hnil := congrArg List.length hsplit
      rw [List.length_append, List.length_cons] at hnil
      exact absurd hnil (Nat.ne_of_lt (Nat.lt_add_left _ (Nat.succ_pos _)))
    | cons heading rest =>
      have hrest : rest = before ++ line :: after := hsplit
      refine ⟨heading, before, after, by rw [hrest],
        fun hblank => hfilter.mpr hblank hline, ?_⟩
      rw [List.forall_mem_append]
      exact ⟨fun other hmem => hfilter.mp (hbefore other hmem),
        fun other hmem => hfilter.mp (List.filter_eq_nil_iff.mp hafter other hmem)⟩
  · rintro ⟨heading, before, after, hlisting, hline, hblank⟩
    cases hlisting
    rw [List.forall_mem_append] at hblank
    exact ⟨before, after, rfl, fun other hmem => hfilter.mpr (hblank.1 other hmem),
      Decidable.not_not.mp fun h => hline (hfilter.mp h),
      List.filter_eq_nil_iff.mpr fun other hmem => hfilter.mpr (hblank.2 other hmem)⟩

/-- The line of a device begins with a serial number. It is refused if the next word is the one
    for a host that was not accepted, and taken otherwise, even if there is no next word. -/
theorem serialOf_cases {answer : Answer} {line : String} (h : Lists answer line) :
    (∃ serial rest, Text.words line = serial :: rest ∧ rest.head? ≠ some "unauthorized" ∧
      serialOf line = .ok serial) ∨
    ∃ serial rest, Text.words line = serial :: "unauthorized" :: rest ∧
      serialOf line = .error .unauthorized := by
  rcases h with ⟨_, _, _, _, hline, _⟩
  unfold serialOf
  rcases hwords : Text.words line with _ | ⟨serial, _ | ⟨status, rest⟩⟩
  · exact absurd hwords (Text.words_ne_nil hline)
  · refine Or.inl ⟨serial, [], rfl, ?_, rfl⟩
    simp only [List.head?_nil, ne_eq, reduceCtorEq, not_false_eq_true]
  · by_cases hstatus : status = "unauthorized"
    · rw [hstatus]
      exact Or.inr ⟨serial, rest, rfl, rfl⟩
    · refine Or.inl ⟨serial, status :: rest, rfl, fun h => hstatus (Option.some.inj h), ?_⟩
      exact if_neg hstatus

/-- A listing is accepted with the serial number of its only device. No device, several devices
    and a device that has not accepted the host are the ways not to be. -/
theorem entryOf_eq_ok {listing : List String} {serial : String} :
    entryOf listing = .ok serial ↔ Connects (.ok listing) serial := by
  constructor
  · intro h
    rcases hlines : deviceLines listing with _ | ⟨line, _ | ⟨other, lines⟩⟩
    · rw [entryOf_error hlines] at h
      cases h
    · rw [entryOf, hlines] at h
      have hlists := deviceLines_eq_singleton.mp hlines
      rcases serialOf_cases hlists with ⟨first, rest, hwords, hstatus, hserial⟩ | ⟨_, _, _, hserial⟩
      · cases hserial.symm.trans h
        exact ⟨line, rest, hlists, hwords, hstatus⟩
      · cases hserial.symm.trans h
    · rw [entryOf, hlines] at h
      cases h
  · rintro ⟨line, rest, hlists, hwords, hstatus⟩
    rw [entryOf, deviceLines_eq_singleton.mpr hlists]
    rcases serialOf_cases hlists with ⟨_, _, hwords', _, hserial⟩ | ⟨_, rest', hwords', _⟩
    · cases hwords.symm.trans hwords'
      exact hserial
    · cases hwords.symm.trans hwords'
      exact absurd rfl hstatus

/-- A listing is refused for its status exactly if its only device has not accepted the host. With
    no device or several of them, the status is not looked at. -/
theorem entryOf_eq_unauthorized {listing : List String} :
    entryOf listing = .error .unauthorized ↔ Unauthorized (.ok listing) := by
  constructor
  · intro h
    rcases hlines : deviceLines listing with _ | ⟨line, _ | ⟨other, lines⟩⟩
    · rw [entryOf_error hlines] at h
      cases h
    · rw [entryOf, hlines] at h
      have hlists := deviceLines_eq_singleton.mp hlines
      rcases serialOf_cases hlists with ⟨_, _, _, _, hserial⟩ | ⟨serial, rest, hwords, _⟩
      · cases hserial.symm.trans h
      · exact ⟨line, serial, rest, hlists, hwords⟩
    · rw [entryOf, hlines] at h
      cases h
  · rintro ⟨line, serial, rest, hlists, hwords⟩
    rw [entryOf, deviceLines_eq_singleton.mpr hlists]
    rcases serialOf_cases hlists with ⟨_, _, hwords', hstatus, _⟩ | ⟨_, _, _, hserial⟩
    · cases hwords.symm.trans hwords'
      exact absurd rfl hstatus
    · exact hserial

/-- The output says root if its first line does. Without a line it does not. -/
theorem saysRoot_iff {out : List String} : saysRoot out = true ↔ NamesRoot (.ok out) := by
  cases out with
  | nil =>
    constructor
    · intro h
      cases h
    · rintro ⟨_, _, h, _⟩
      cases h
  | cons user rest =>
    rw [saysRoot, List.head?_cons, Option.any_some, beq_iff_eq]
    constructor
    · intro h
      exact ⟨user, rest, rfl, h⟩
    · rintro ⟨_, _, h, huser⟩
      cases h
      exact huser

theorem saysOther_iff {out : List String} : saysRoot out = false ↔ NamesOther (.ok out) := by
  rw [← Bool.not_eq_true, saysRoot_iff]
  exact ⟨fun h => ⟨⟨out, rfl⟩, h⟩, And.right⟩

/-! ### What the checks come to -/

/-- The verdict of the first check. -/
def binariesVerdict : Answer → Except PreflightFailure Unit
  | .error f => .error (.command "Failed to run `which`" f)
  | .ok [] => .error (.missingBinaries ["adb"])
  | .ok (_ :: _) => .ok ()

/-- The verdict of the second check. -/
def deviceVerdict : Answer → Except PreflightFailure String
  | .error f => .error (.command "Failed to list adb devices" f)
  | .ok listing => entryOf listing

/-- Whether the bridge runs as root. -/
def userVerdict : Answer → Except PreflightFailure Bool
  | .error f => .error (.command "Failed to query adb user" f)
  | .ok out => .ok (saysRoot out)

/-- The verdict of the last check. -/
def rootVerdict (i : Interview) : Except PreflightFailure Unit :=
  match userVerdict i.user with
  | .error f => .error f
  | .ok true => .ok ()
  | .ok false =>
    match i.restart with
    | .error f => .error (.command "Failed to run `adb root`" f)
    | .ok _ =>
      match userVerdict i.userAgain with
      | .error f => .error f
      | .ok true => .ok ()
      | .ok false => .error .notRoot

theorem perform_output (purpose command : String) :
    (output purpose command).perform shell s
      = ((shell.answer command s).1.mapError (.command purpose), (shell.answer command s).2) :=
  rfl

theorem perform_checkBinaries :
    checkBinaries.perform shell s
      = (binariesVerdict (shell.answer "which adb" s).1, (shell.answer "which adb" s).2) := by
  have hname : "which " ++ "adb" = "which adb" := by decide
  rw [checkBinaries, requiredBinaries, missing, hname]
  rcases hanswer : shell.answer "which adb" s with ⟨f | found, s'⟩
  · simp only [Attempt.perform_bind, perform_output, hanswer, Except.mapError]
    rfl
  · simp only [Attempt.perform_bind, perform_output, hanswer, Except.mapError]
    cases found with
    | nil => rfl
    | cons line rest => rfl

theorem perform_checkDevice :
    checkDevice.perform shell s
      = (deviceVerdict (shell.answer "adb devices" s).1, (shell.answer "adb devices" s).2) := by
  rw [checkDevice]
  rcases hanswer : shell.answer "adb devices" s with ⟨f | listing, s'⟩
  · simp only [Attempt.perform_bind, perform_output, hanswer, Except.mapError]
    rfl
  · simp only [Attempt.perform_bind, perform_output, hanswer, Except.mapError, deviceVerdict]
    cases entryOf listing with
    | ok serial => rfl
    | error f => rfl

theorem perform_isRoot :
    isRoot.perform shell s
      = (userVerdict (shell.answer "adb shell whoami" s).1,
        (shell.answer "adb shell whoami" s).2) := by
  rw [isRoot]
  rcases hanswer : shell.answer "adb shell whoami" s with ⟨f | out, s'⟩
  · simp only [Attempt.perform_bind, perform_output, hanswer, Except.mapError]
    rfl
  · simp only [Attempt.perform_bind, perform_output, hanswer, Except.mapError]
    rfl

/-- The last check, for a host that would answer the first two questions in front of it. -/
theorem perform_checkRoot :
    (checkRoot.perform shell
        (shell.answer "adb devices" (shell.answer "which adb" s).2).2).1
      = rootVerdict (interview shell s) := by
  rw [checkRoot, rootVerdict, interview]
  generalize (shell.answer "adb devices" (shell.answer "which adb" s).2).2 = s
  dsimp only
  rcases huser : shell.answer "adb shell whoami" s with ⟨user, s'⟩
  rw [Attempt.perform_bind, perform_isRoot, huser]
  -- The user cannot be told, is another one, or is root.
  rcases userVerdict user with f | (_ | _)
  · rfl
  · rcases hrestart : shell.answer "adb root" s' with ⟨f | out, s''⟩
    · simp only [Bool.false_eq_true, if_false, Attempt.perform_bind, perform_output, hrestart,
        Except.mapError]
    · simp only [Bool.false_eq_true, if_false, Attempt.perform_bind, perform_output, hrestart,
        Except.mapError, perform_isRoot]
      rcases userVerdict (shell.answer "adb shell whoami" s'').1 with f | (_ | _)
      · rfl
      · rfl
      · rfl
  · rfl

/-- The first verdict that is a failure, or else the serial number. -/
def verdict (i : Interview) : Except PreflightFailure String :=
  (binariesVerdict i.which).bind fun _ =>
    (deviceVerdict i.devices).bind fun serial =>
      (rootVerdict i).map fun _ => serial

/-- All checks together come to the verdict on the interview. Each check is replaced by its own
    verdict, one after the other; the first that fails ends the interview. -/
theorem perform_check : (check.perform shell s).1 = verdict (interview shell s) := by
  rw [check, Attempt.perform_bind, perform_checkBinaries, verdict]
  rcases hbinaries : binariesVerdict (shell.answer "which adb" s).1 with f | found
  · rw [interview, hbinaries]
    rfl
  have hroot := perform_checkRoot shell s
  rw [interview] at hroot ⊢
  rw [hbinaries]
  dsimp only [Except.bind]
  rw [Attempt.perform_bind, perform_checkDevice]
  rcases deviceVerdict (shell.answer "adb devices" (shell.answer "which adb" s).2).1
    with f | serial
  · rfl
  dsimp only
  rw [Attempt.perform_bind, ← hroot]
  rcases checkRoot.perform shell (shell.answer "adb devices" (shell.answer "which adb" s).2).2
    with ⟨f | _, s'⟩
  · rfl
  · rfl

/-! ### What the checks ask -/

theorem commands_output (purpose command : String) :
    (output purpose command).script.commands shell s = [command] :=
  rfl

theorem commands_checkBinaries :
    checkBinaries.script.commands shell s = ["which adb"] := by
  have hname : "which " ++ "adb" = "which adb" := by decide
  rw [checkBinaries, requiredBinaries, missing, hname, Attempt.commands_bind,
    Attempt.commands_bind, Attempt.perform_bind, commands_output, perform_output]
  rcases (shell.answer "which adb" s).1 with f | found
  · rfl
  · cases found with
    | nil => rfl
    | cons line rest => rfl

theorem commands_checkDevice :
    checkDevice.script.commands shell s = ["adb devices"] := by
  rw [checkDevice, Attempt.commands_bind, commands_output, perform_output]
  rcases (shell.answer "adb devices" s).1 with f | listing
  · rfl
  · dsimp only [Except.mapError]
    cases entryOf listing with
    | ok serial => rfl
    | error f => rfl

theorem commands_isRoot :
    isRoot.script.commands shell s = ["adb shell whoami"] := by
  rw [isRoot, Attempt.commands_bind, commands_output, perform_output]
  rcases (shell.answer "adb shell whoami" s).1 with f | out
  · rfl
  · rfl

/-- What the last check asks. -/
def askedForRoot (i : Interview) : List String :=
  "adb shell whoami" :: match userVerdict i.user with
    | .ok false =>
      "adb root" :: match i.restart with
        | .ok _ => ["adb shell whoami"]
        | .error _ => []
    | _ => []

/-- The last check asks in front of a restart and, if that went well, once more. If the bridge is
    found to run as root at once, it is not restarted. -/
theorem commands_checkRoot :
    checkRoot.script.commands shell
        (shell.answer "adb devices" (shell.answer "which adb" s).2).2
      = askedForRoot (interview shell s) := by
  rw [checkRoot, askedForRoot, interview]
  generalize (shell.answer "adb devices" (shell.answer "which adb" s).2).2 = s
  dsimp only
  rcases huser : shell.answer "adb shell whoami" s with ⟨user, s'⟩
  rw [Attempt.commands_bind, commands_isRoot, perform_isRoot, huser]
  rcases userVerdict user with f | (_ | _)
  · rfl
  · dsimp only
    rw [if_neg Bool.false_ne_true, Attempt.commands_bind, commands_output, perform_output]
    rcases shell.answer "adb root" s' with ⟨f | out, s''⟩
    · rfl
    · dsimp only [Except.mapError]
      rw [Attempt.commands_bind, commands_isRoot, perform_isRoot]
      rcases userVerdict (shell.answer "adb shell whoami" s'').1 with f | (_ | _)
      · rfl
      · rfl
      · rfl
  · rfl

/-- What all checks ask: each only if the ones in front of it were passed. -/
def asked (i : Interview) : List String :=
  "which adb" :: match binariesVerdict i.which with
    | .error _ => []
    | .ok _ =>
      "adb devices" :: match deviceVerdict i.devices with
        | .error _ => []
        | .ok _ => askedForRoot i

/-- All checks together ask what they have to know, and nothing behind the first failure. -/
theorem commands_check : check.script.commands shell s = asked (interview shell s) := by
  rw [check, Attempt.commands_bind, commands_checkBinaries, perform_checkBinaries, asked]
  rcases hbinaries : binariesVerdict (shell.answer "which adb" s).1 with f | found
  · rw [interview, hbinaries]
    rfl
  have hroot := commands_checkRoot shell s
  rw [interview] at hroot ⊢
  rw [hbinaries]
  dsimp only
  rw [Attempt.commands_bind, commands_checkDevice, perform_checkDevice]
  rcases deviceVerdict (shell.answer "adb devices" (shell.answer "which adb" s).2).1
    with f | serial
  · rfl
  dsimp only
  rw [Attempt.commands_bind, hroot]
  rcases checkRoot.perform shell (shell.answer "adb devices" (shell.answer "which adb" s).2).2
    with ⟨f | _, s'⟩
  · exact congrArg (["which adb", "adb devices"] ++ ·) (List.append_nil _)
  · exact congrArg (["which adb", "adb devices"] ++ ·) (List.append_nil _)

/-! ### What the verdicts say -/

theorem binariesVerdict_eq_ok {answer : Answer} :
    binariesVerdict answer = .ok () ↔ Prints answer := by
  rcases answer with f | lines
  · exact iff_of_false nofun fun ⟨_, _, h⟩ => nomatch h
  · rw [prints_ok_iff]
    cases lines with
    | nil => exact iff_of_false nofun fun h => h rfl
    | cons line rest => exact iff_of_true rfl (List.cons_ne_nil _ _)

theorem deviceVerdict_eq_ok {answer : Answer} {serial : String} :
    deviceVerdict answer = .ok serial ↔ Connects answer serial := by
  rcases answer with f | listing
  · exact iff_of_false nofun fun ⟨_, _, ⟨_, _, _, h, _⟩, _⟩ => nomatch h
  · exact entryOf_eq_ok

theorem deviceVerdict_eq_unauthorized {answer : Answer} :
    deviceVerdict answer = .error .unauthorized ↔ Unauthorized answer := by
  rcases answer with f | listing
  · exact iff_of_false nofun fun ⟨_, _, _, ⟨_, _, _, h, _⟩, _⟩ => nomatch h
  · exact entryOf_eq_unauthorized

theorem userVerdict_eq_true {answer : Answer} :
    userVerdict answer = .ok true ↔ NamesRoot answer := by
  rcases answer with f | out
  · exact iff_of_false nofun fun ⟨_, _, h, _⟩ => nomatch h
  · rw [userVerdict, Except.ok.injEq, saysRoot_iff]

theorem userVerdict_eq_false {answer : Answer} :
    userVerdict answer = .ok false ↔ NamesOther answer := by
  rcases answer with f | out
  · exact iff_of_false nofun fun h => not_started_error f h.1
  · rw [userVerdict, Except.ok.injEq, saysOther_iff]

theorem rootVerdict_eq_ok {i : Interview} : rootVerdict i = .ok () ↔ EndsAsRoot i := by
  rw [EndsAsRoot, rootVerdict, ← userVerdict_eq_true, ← userVerdict_eq_false, ← userVerdict_eq_true]
  rcases userVerdict i.user with f | (_ | _)
  · exact iff_of_false nofun fun h => h.elim nofun fun h => nomatch h.1
  · rcases i.restart with f | out
    · exact iff_of_false nofun fun h => h.elim nofun fun h => not_started_error f h.2.1
    · rcases userVerdict i.userAgain with f | (_ | _)
      · exact iff_of_false nofun fun h => h.elim nofun fun h => nomatch h.2.2
      · exact iff_of_false nofun fun h => h.elim nofun fun h => nomatch h.2.2
      · exact iff_of_true rfl (Or.inr ⟨rfl, ⟨out, rfl⟩, rfl⟩)
  · exact iff_of_true rfl (Or.inl rfl)

theorem userVerdict_error {answer : Answer} {f : PreflightFailure}
    (h : userVerdict answer = .error f) :
    ∃ failure, f = .command "Failed to query adb user" failure := by
  rcases answer with failure | out
  · cases h
    exact ⟨failure, rfl⟩
  · cases h

/-- The check for root fails with its own failure exactly if the user is another one before the
    restart and after it. -/
theorem rootVerdict_eq_notRoot {i : Interview} :
    rootVerdict i = .error .notRoot ↔ StaysOther i := by
  rw [StaysOther, rootVerdict, ← userVerdict_eq_false, ← userVerdict_eq_false]
  rcases huser : userVerdict i.user with f | (_ | _)
  · rcases userVerdict_error huser with ⟨failure, rfl⟩
    exact iff_of_false nofun fun h => nomatch h.1
  · rcases i.restart with f | out
    · exact iff_of_false nofun fun h => not_started_error f h.2.1
    · rcases hagain : userVerdict i.userAgain with f | (_ | _)
      · rcases userVerdict_error hagain with ⟨failure, rfl⟩
        exact iff_of_false nofun fun h => nomatch h.2.2
      · exact iff_of_true rfl ⟨rfl, ⟨out, rfl⟩, rfl⟩
      · exact iff_of_false nofun fun h => nomatch h.2.2
  · exact iff_of_false nofun fun h => nomatch h.1

/-! ### The exit code of a failure -/

/-- What the checks were about when a command could not be started. -/
def purposes : List String :=
  ["Failed to run `which`", "Failed to list adb devices", "Failed to query adb user",
    "Failed to run `adb root`"]

/-- The failure names only what the checks look for. -/
def Spoken : PreflightFailure → Prop
  | .command purpose _ => purpose ∈ purposes
  | .missingBinaries names => names = requiredBinaries
  | _ => True

/-- A failure for a missing permission is told from all others by its wording. The exit code is
    chosen by phrases in the message; the two messages about permissions contain one, and the
    others do not as long as the failures of commands that they quote do not. -/
theorem exitCode_message {f : PreflightFailure} (hf : Spoken f)
    (hharmless : ∀ purpose failure, f = .command purpose failure → Harmless failure.message) :
    exitCode f.message = if f = .unauthorized ∨ f = .notRoot then 77 else 1 := by
  cases f with
  | command purpose failure =>
    have hpurposes : ∀ purpose ∈ purposes, Harmless purpose := by decide +kernel
    have hmessage := hharmless purpose failure rfl
    rw [if_neg (by simp only [reduceCtorEq, or_self, not_false_eq_true])]
    exact exitCode_harmless (((hpurposes purpose hf).append_cause hmessage).append_cause
      hmessage.reason)
  | missingBinaries names =>
    have hnames : names = requiredBinaries := hf
    rw [hnames]
    decide +kernel
  | noDevice => decide +kernel
  | manyDevices count =>
    have hstart : Harmless "atop expects only a single connected Android device, found " := by
      decide +kernel
    rw [if_neg (by simp only [reduceCtorEq, or_self, not_false_eq_true])]
    exact exitCode_harmless (hstart.append_natText count)
  | unauthorized => decide +kernel
  | notRoot => decide +kernel

theorem spoken_command {purpose : String} (h : purpose ∈ purposes) (failure : SpawnFailure) :
    Spoken (.command purpose failure) :=
  h

theorem binariesVerdict_error {answer : Answer} {f : PreflightFailure}
    (h : binariesVerdict answer = .error f) :
    Spoken f ∧ f ≠ .unauthorized ∧ f ≠ .notRoot := by
  rcases answer with failure | (_ | ⟨line, rest⟩)
  · cases h
    exact ⟨spoken_command (by decide) failure, nofun, nofun⟩
  · cases h
    exact ⟨rfl, nofun, nofun⟩
  · cases h

/-- The check of the device fails with what it looks for, and never in the way in which the check
    for root does. -/
theorem deviceVerdict_error {answer : Answer} {f : PreflightFailure}
    (h : deviceVerdict answer = .error f) : Spoken f ∧ f ≠ .notRoot := by
  rcases answer with failure | listing
  · cases h
    exact ⟨spoken_command (by decide) failure,
      by simp only [ne_eq, reduceCtorEq, not_false_eq_true]⟩
  rw [deviceVerdict] at h
  rcases hlines : deviceLines listing with _ | ⟨line, _ | ⟨other, lines⟩⟩
  · rw [entryOf_error hlines] at h
    cases h
    exact ⟨trivial, by simp only [ne_eq, reduceCtorEq, not_false_eq_true]⟩
  · rw [entryOf, hlines] at h
    rcases serialOf_cases (deviceLines_eq_singleton.mp hlines)
      with ⟨_, _, _, _, hserial⟩ | ⟨_, _, _, hserial⟩
    · cases hserial.symm.trans h
    · cases hserial.symm.trans h
      exact ⟨trivial, by simp only [ne_eq, reduceCtorEq, not_false_eq_true]⟩
  · rw [entryOf, hlines] at h
    cases h
    exact ⟨trivial, by simp only [ne_eq, reduceCtorEq, not_false_eq_true]⟩

/-- Whatever the check for root fails with has a message of its own, and none of them is that of
    a device that has not accepted the host. -/
theorem rootVerdict_error {i : Interview} {f : PreflightFailure}
    (h : rootVerdict i = .error f) : Spoken f ∧ f ≠ .unauthorized := by
  -- What a failed query is reported as does not depend on who asked for the user.
  have hquery : ∀ {answer f}, userVerdict answer = .error f → Spoken f ∧ f ≠ .unauthorized := by
    intro answer f h
    rcases userVerdict_error h with ⟨failure, rfl⟩
    exact ⟨spoken_command (by decide) failure, nofun⟩
  rw [rootVerdict] at h
  -- The user is asked for, then a restart if it is not root, then the user again.
  rcases huser : userVerdict i.user with g | (_ | _)
  · rw [huser] at h
    cases h
    exact hquery huser
  · rw [huser] at h
    rcases hrestart : i.restart with failure | out
    · rw [hrestart] at h
      cases h
      exact ⟨spoken_command (by decide) failure, nofun⟩
    · rw [hrestart] at h
      rcases hagain : userVerdict i.userAgain with g | (_ | _)
      · rw [hagain] at h
        cases h
        exact hquery hagain
      · rw [hagain] at h
        cases h
        exact ⟨trivial, nofun⟩
      · rw [hagain] at h
        cases h
  · rw [huser] at h
    cases h

/-! ### All checks -/

theorem verdict_eq_ok {i : Interview} {serial : String} :
    verdict i = .ok serial ↔ Prints i.which ∧ Connects i.devices serial ∧ EndsAsRoot i := by
  rw [verdict, ← binariesVerdict_eq_ok, ← deviceVerdict_eq_ok, ← rootVerdict_eq_ok]
  rcases binariesVerdict i.which with f | _
  · exact iff_of_false nofun fun h => nomatch h.1
  rcases deviceVerdict i.devices with f | found
  · exact iff_of_false nofun fun h => nomatch h.2.1
  rcases rootVerdict i with f | _
  · exact iff_of_false nofun fun h => nomatch h.2.2
  · exact ⟨fun h => ⟨rfl, h, rfl⟩, fun h => h.2.1⟩

/-- A failure of all checks is one of a check whose forerunners were passed. This is the one
    place that knows the order of the checks. What each of them fails with is said where the
    check is. -/
theorem verdict_eq_error {i : Interview} {f : PreflightFailure} :
    verdict i = .error f ↔
      binariesVerdict i.which = .error f ∨
      Prints i.which ∧ deviceVerdict i.devices = .error f ∨
      HasDevice i ∧ rootVerdict i = .error f := by
  simp only [verdict, HasDevice, ← binariesVerdict_eq_ok, ← deviceVerdict_eq_ok]
  constructor
  -- A check is made only if those in front of it were passed.
  · rcases binariesVerdict i.which with g | _
    · intro h
      cases h
      exact Or.inl rfl
    rcases deviceVerdict i.devices with g | serial
    · exact fun h => Or.inr (Or.inl ⟨rfl, h⟩)
    rcases rootVerdict i with g | _
    · intro h
      cases h
      exact Or.inr (Or.inr ⟨⟨rfl, ⟨serial, rfl⟩⟩, rfl⟩)
    · exact nofun
  · rintro (h | ⟨hbinaries, h⟩ | ⟨⟨hbinaries, ⟨serial, hdevice⟩⟩, h⟩)
    · rw [h]
      rfl
    · rw [hbinaries, h]
      rfl
    · rw [hbinaries, hdevice, h]
      rfl

theorem verdict_eq_unauthorized {i : Interview} :
    verdict i = .error .unauthorized ↔ Prints i.which ∧ Unauthorized i.devices := by
  rw [verdict_eq_error, deviceVerdict_eq_unauthorized]
  constructor
  · rintro (h | h | ⟨_, h⟩)
    · exact absurd rfl (binariesVerdict_error h).2.1
    · exact h
    · exact absurd rfl (rootVerdict_error h).2
  · exact fun h => Or.inr (Or.inl h)

theorem verdict_eq_notRoot {i : Interview} :
    verdict i = .error .notRoot ↔ HasDevice i ∧ StaysOther i := by
  rw [verdict_eq_error, rootVerdict_eq_notRoot]
  constructor
  · rintro (h | ⟨_, h⟩ | h)
    · exact absurd rfl (binariesVerdict_error h).2.2
    · exact absurd rfl (deviceVerdict_error h).2
    · exact h
  · exact fun h => Or.inr (Or.inr h)

theorem verdict_error {i : Interview} {f : PreflightFailure} (h : verdict i = .error f) :
    Spoken f := by
  rcases verdict_eq_error.mp h with h | ⟨_, h⟩ | ⟨_, h⟩
  · exact (binariesVerdict_error h).1
  · exact (deviceVerdict_error h).1
  · exact (rootVerdict_error h).1

/-- A permission is missing exactly if the failure is one of two. -/
theorem lacksPermission_iff {i : Interview} {f : PreflightFailure} (h : verdict i = .error f) :
    LacksPermission i ↔ f = .unauthorized ∨ f = .notRoot := by
  have hunauthorized := verdict_eq_unauthorized (i := i)
  have hnotRoot := verdict_eq_notRoot (i := i)
  rw [h, Except.error.injEq] at hunauthorized hnotRoot
  rw [hunauthorized, hnotRoot, LacksPermission]

/-- What is asked if the binary cannot be found. -/
theorem asked_of_not_prints {i : Interview} (h : ¬ Prints i.which) : asked i = ["which adb"] := by
  rw [← binariesVerdict_eq_ok] at h
  rw [asked]
  rcases hbinaries : binariesVerdict i.which with f | _
  · rfl
  · exact absurd hbinaries h

/-- What is asked if there is no device to use. -/
theorem asked_of_not_hasDevice {i : Interview} (hwhich : Prints i.which) (h : ¬ HasDevice i) :
    asked i = ["which adb", "adb devices"] := by
  rw [asked, binariesVerdict_eq_ok.mpr hwhich]
  rcases hdevice : deviceVerdict i.devices with f | serial
  · rfl
  · exact absurd ⟨hwhich, serial, deviceVerdict_eq_ok.mp hdevice⟩ h

/-- What is asked if there is a device to use. -/
theorem asked_of_hasDevice {i : Interview} (h : HasDevice i) :
    asked i = "which adb" :: "adb devices" :: askedForRoot i := by
  rcases h with ⟨hwhich, serial, h⟩
  rw [asked, binariesVerdict_eq_ok.mpr hwhich, deviceVerdict_eq_ok.mpr h]

theorem askedForRoot_of_not_namesOther {i : Interview} (h : ¬ NamesOther i.user) :
    askedForRoot i = ["adb shell whoami"] := by
  rw [← userVerdict_eq_false] at h
  rw [askedForRoot]
  rcases huser : userVerdict i.user with f | (_ | _)
  · rfl
  · exact absurd huser h
  · rfl

theorem askedForRoot_of_not_started {i : Interview} (huser : NamesOther i.user)
    (h : ¬ Started i.restart) : askedForRoot i = ["adb shell whoami", "adb root"] := by
  rw [askedForRoot, userVerdict_eq_false.mpr huser]
  rcases hrestart : i.restart with f | out
  · rfl
  · exact absurd ⟨out, hrestart⟩ h

theorem askedForRoot_of_started {i : Interview} (huser : NamesOther i.user)
    (h : Started i.restart) :
    askedForRoot i = ["adb shell whoami", "adb root", "adb shell whoami"] := by
  rcases h with ⟨out, hrestart⟩
  rw [askedForRoot, userVerdict_eq_false.mpr huser, hrestart]

/-- A restart is asked for exactly if the bridge is found to run as somebody else, which
    presupposes that the checks in front of that one were passed. -/
theorem restart_mem_asked {i : Interview} :
    "adb root" ∈ asked i ↔ HasDevice i ∧ NamesOther i.user := by
  by_cases hdevice : HasDevice i
  · rw [asked_of_hasDevice hdevice]
    by_cases huser : NamesOther i.user
    · refine iff_of_true ?_ ⟨hdevice, huser⟩
      by_cases hrestart : Started i.restart
      · rw [askedForRoot_of_started huser hrestart]
        decide
      · rw [askedForRoot_of_not_started huser hrestart]
        decide
    · rw [askedForRoot_of_not_namesOther huser]
      exact iff_of_false (by decide) fun h => huser h.2
  · refine iff_of_false ?_ fun h => hdevice h.1
    by_cases hwhich : Prints i.which
    · rw [asked_of_not_hasDevice hwhich hdevice]
      decide
    · rw [asked_of_not_prints hwhich]
      decide

/-- The preflight is passed, with the serial number of the device, exactly by a host that has
    the binary and whose only device has accepted it and runs the bridge as root, at once or
    after one restart. A device whose line has no status has accepted the host. What is asked
    stops at the first failure, and a restart is asked for exactly if the bridge is found to
    run as somebody else. A failure has the exit code of a missing permission exactly if the
    device has not accepted the host or the bridge does not run as root after the restart. -/
theorem fit_exactly :
    (∀ serial, (check.perform shell s).1 = .ok serial ↔
      Prints (interview shell s).which ∧ Connects (interview shell s).devices serial ∧
        EndsAsRoot (interview shell s)) ∧
    ("adb root" ∈ check.script.commands shell s ↔
      HasDevice (interview shell s) ∧ NamesOther (interview shell s).user) ∧
    (¬ Prints (interview shell s).which →
      check.script.commands shell s = ["which adb"]) ∧
    (Prints (interview shell s).which → ¬ HasDevice (interview shell s) →
      check.script.commands shell s = ["which adb", "adb devices"]) ∧
    (HasDevice (interview shell s) → ¬ NamesOther (interview shell s).user →
      check.script.commands shell s = ["which adb", "adb devices", "adb shell whoami"]) ∧
    (HasDevice (interview shell s) → NamesOther (interview shell s).user →
      ¬ Started (interview shell s).restart →
      check.script.commands shell s
        = ["which adb", "adb devices", "adb shell whoami", "adb root"]) ∧
    (HasDevice (interview shell s) → NamesOther (interview shell s).user →
      Started (interview shell s).restart →
      check.script.commands shell s
        = ["which adb", "adb devices", "adb shell whoami", "adb root", "adb shell whoami"]) ∧
    ∀ f, (check.perform shell s).1 = .error f →
      (∀ purpose failure, f = .command purpose failure → Harmless failure.message) →
      (LacksPermission (interview shell s) →
        exitCode (ProgramFailure.preflight f).message = 77) ∧
      (¬ LacksPermission (interview shell s) →
        exitCode (ProgramFailure.preflight f).message = 1) := by
  rw [perform_check, commands_check]
  -- From here on the answers are any, however the shell came to give them.
  generalize interview shell s = i
  refine ⟨fun serial => verdict_eq_ok, restart_mem_asked, asked_of_not_prints,
    asked_of_not_hasDevice, ?_, ?_, ?_, ?_⟩
  · intro hdevice huser
    rw [asked_of_hasDevice hdevice, askedForRoot_of_not_namesOther huser]
  · intro hdevice huser hrestart
    rw [asked_of_hasDevice hdevice, askedForRoot_of_not_started huser hrestart]
  · intro hdevice huser hrestart
    rw [asked_of_hasDevice hdevice, askedForRoot_of_started huser hrestart]
  -- The exit code is looked up in the message, which harmless parts do not disturb.
  · intro f hf hharmless
    have hcode := exitCode_message (verdict_error hf) hharmless
    rw [lacksPermission_iff hf]
    exact ⟨fun h => hcode.trans (if_pos h), fun h => hcode.trans (if_neg h)⟩

/-- A host with one device, whose line may have any status, that says who its bridge runs as. -/
def host (entry user : String) : Shell Unit where
  answer command _ :=
    (if command = "which adb" then .ok ["/usr/bin/adb"]
      else if command = "adb devices" then .ok ["List of devices attached", entry]
      else if command = "adb shell whoami" then .ok [user]
      else .error ⟨command, "No such file or directory (os error 2)"⟩, ())

/-- A restart that cannot be started is no missing permission. The exit code says so by the
    wording of the message. -/
theorem fit_exactly_unstartable :
    exitCode (ProgramFailure.preflight (.command "Failed to run `adb root`"
      ⟨"adb root", "No such file or directory (os error 2)"⟩)).message = 1 := by
  have hfit := (fit_exactly (host "8a2b3c4d\tdevice" "shell") ()).2.2.2.2.2.2.2
  have houtcome : (check.perform (host "8a2b3c4d\tdevice" "shell") ()).1
      = .error (.command "Failed to run `adb root`"
        ⟨"adb root", "No such file or directory (os error 2)"⟩) := by decide +kernel
  refine (hfit _ houtcome ?_).2 ?_
  · rintro purpose failure hfailure
    cases hfailure
    decide +kernel
  · rw [lacksPermission_iff ((perform_check _ _).symm.trans houtcome)]
    decide +kernel

/-- A device whose line has no status passes for one that has accepted the host. -/
theorem passed_without_status :
    (check.perform (host "8a2b3c4d" "root") ()).1 = .ok "8a2b3c4d" ∧
    ¬ ∃ line status rest, Lists (interview (host "8a2b3c4d" "root") ()).devices line ∧
      Text.words line = "8a2b3c4d" :: status :: rest ∧ status ≠ "unauthorized" := by
  refine ⟨by decide +kernel, ?_⟩
  rintro ⟨line, status, rest, hlists, hwords, _⟩
  have hlines : deviceLines ["List of devices attached", "8a2b3c4d"] = ["8a2b3c4d"] := by
    decide +kernel
  have hentry : Text.words "8a2b3c4d" = ["8a2b3c4d"] := by decide +kernel
  have hline : [line] = ["8a2b3c4d"] := (deviceLines_eq_singleton.mpr hlists).symm.trans hlines
  rw [List.singleton_inj.mp hline, hentry] at hwords
  cases hwords

end Preflight

end AccelMonitor
