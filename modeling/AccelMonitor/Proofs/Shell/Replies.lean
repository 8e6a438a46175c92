import AccelMonitor.Shell.Recording
import Mathlib.Data.List.Induction

/-!
# Which Response Is Given

What a recording answers, after any responses were added and any commands asked.

The life of a recording is a list of events. A response is added for a beginning of
commands, or a command is asked. The responses of one beginning are numbered in the order
in which they were added. A call of its rule gives the response whose turn it is, and the
turn passes to the next one if that was there by then. Otherwise the response stays, and
whatever is added afterwards waits until it was given once more.

Of a rule one sees the responses that still wait. They are the end of all that were added,
so the turn is the number of those in front of them. Every event either leaves the turn
where it is or is a call that passes it on, which `turn_ask` says, and everything about
longer stretches of events follows from this by induction.

## Main definitions

* `RecordingEvent`, `Recording.ofEvents`: What can be done with a recording.
* `RecordingEvent.responses`: The responses that were added for a beginning.
* `RecordingEvent.Chosen`: The longest beginning of a command.
* `RecordingEvent.Silent`, `RecordingEvent.CalledTimes`: How often a rule is called.
* `Recording.waiting`: The responses that a rule still has.
* `Recording.turn`: The number of the response whose turn it is.

## Theorems

* `waiting_addResponse`, `waiting_advanceRule`: What the operations do to the rules.
* `ruleFor_eq_some`, `ruleFor_eq_none`: Which rule fits a command best.
* `Records.step`, `records_ofEvents`: What a recording holds after any events.
* `turn_record`, `turn_ask`: What an event does to the turn.
* `turn_silent`, `turn_mono`, `exists_call`, `reaches_turn`: What many events do.
* `replies_numbered`: All of it, for every life of a recording.
-/

namespace AccelMonitor

/-- What can be done with a recording. -/
inductive RecordingEvent where
  /-- A response is added to commands of a beginning. -/
  | record (opening : String) (response : Response)
  /-- A command is asked. -/
  | ask (command : String)

namespace RecordingEvent

/-- The command that is asked. -/
def command? : RecordingEvent → Option String
  | record _ _ => none
  | ask command => some command

/-- The response that is added for a beginning. -/
def response? (opening : String) : RecordingEvent → Option Response
  | record other response => if other = opening then some response else none
  | ask _ => none

/-- The responses that were added for a beginning, oldest first. -/
def responses (opening : String) (events : List RecordingEvent) : List Response :=
  events.filterMap (response? opening)

/-- Of the beginnings that a response was added for, this is the longest one that the command
    has. Two beginnings of one command that are equally long are the same, so it is determined
    by the events. -/
def Chosen (events : List RecordingEvent) (command opening : String) : Prop :=
  responses opening events ≠ [] ∧ opening.toList <+: command.toList ∧
    ∀ other, responses other events ≠ [] → other.toList <+: command.toList →
      other.toList.length ≤ opening.toList.length

/-- The command has none of the beginnings that a response was added for. -/
def Unmatched (events : List RecordingEvent) (command : String) : Prop :=
  ∀ opening, responses opening events ≠ [] → ¬ opening.toList <+: command.toList

/-- No command that is asked later is one for the rule. -/
def Silent (opening : String) (before later : List RecordingEvent) : Prop :=
  ∀ x command y, later = x ++ ask command :: y → ¬ Chosen (before ++ x) command opening

/-- At least so many of the commands that are asked later are for the rule. -/
def CalledTimes (opening : String) : Nat → List RecordingEvent → List RecordingEvent → Prop
  | 0, _, _ => True
  | n + 1, before, later => ∃ x command y, later = x ++ ask command :: y ∧
      Chosen (before ++ x) command opening ∧
      CalledTimes opening n (before ++ x ++ [ask command]) y

theorem responses_append (opening : String) (events later : List RecordingEvent) :
    responses opening (events ++ later) = responses opening events ++ responses opening later :=
  List.filterMap_append

@[simp] theorem responses_ask (opening command : String) : responses opening [ask command] = [] :=
  rfl

theorem responses_record (opening other : String) (response : Response) :
    responses opening [record other response] = if other = opening then [response] else [] := by
  by_cases h : other = opening
  · rw [if_pos h]
    exact List.filterMap_cons_some (if_pos h)
  · rw [if_neg h]
    exact List.filterMap_cons_none (if_neg h)

/-- A command has one longest beginning at most. -/
theorem Chosen.unique {events : List RecordingEvent} {command opening other : String}
    (h : Chosen events command opening) (h' : Chosen events command other) : opening = other := by
  have hlength := Nat.le_antisymm (h'.2.2 opening h.1 h.2.1) (h.2.2 other h'.1 h'.2.1)
  have hbegins := List.prefix_of_prefix_length_le h.2.1 h'.2.1 (Nat.le_of_eq hlength)
  exact String.toList_inj.mp (hbegins.eq_of_length hlength)

theorem Silent.of_append {opening : String} {before x y : List RecordingEvent}
    (h : Silent opening before (x ++ y)) : Silent opening before x := by
  rintro x' command y' rfl
  refine h x' command (y' ++ y) ?_
  rw [List.append_assoc, List.cons_append]

end RecordingEvent

namespace Recording

open RecordingEvent

/-- The recording after an event. -/
def step (s : Recording) : RecordingEvent → Recording
  | record opening response => s.push opening response
  | ask command => (s.reply command).2

/-- The recording after some events, from none at all. -/
def ofEvents (events : List RecordingEvent) : Recording :=
  events.foldl step empty

theorem ofEvents_concat (events : List RecordingEvent) (event : RecordingEvent) :
    ofEvents (events ++ [event]) = (ofEvents events).step event := by
  rw [ofEvents, List.foldl_append, List.foldl_cons, List.foldl_nil, ofEvents]

/-! ### What the rules hold -/

/-- The responses that the rule of a beginning still has, none without such a rule. -/
def waiting (opening : String) (rules : List Rule) : List Response :=
  ((rules.find? fun r => r.opening = opening).map fun r => r.current :: r.later).getD []

/-- The beginnings of the rules. -/
def openings (rules : List Rule) : List String :=
  rules.map Rule.opening

/-- What is left of some responses after the first was given. The last one stays. -/
def spend : List Response → List Response
  | [] => []
  | [response] => [response]
  | _ :: next :: rest => next :: rest

theorem waiting_cons (opening : String) (r : Rule) (rules : List Rule) :
    waiting opening (r :: rules)
      = if r.opening = opening then r.current :: r.later else waiting opening rules := by
  unfold waiting
  rw [List.find?_cons]
  by_cases h : r.opening = opening
  · simp only [h, decide_true, if_true, Option.map_some, Option.getD_some]
  · simp only [h, decide_false, if_false]

theorem waiting_ne_nil_iff {opening : String} {rules : List Rule} :
    waiting opening rules ≠ [] ↔ opening ∈ openings rules := by
  induction rules with
  | nil => exact ⟨fun h => absurd rfl h, fun h => absurd h List.not_mem_nil⟩
  | cons r rules ih =>
    rw [waiting_cons, openings, List.map_cons, List.mem_cons]
    by_cases h : r.opening = opening
    · rw [if_pos h]
      exact ⟨fun _ => Or.inl h.symm, fun _ => List.cons_ne_nil _ _⟩
    · rw [if_neg h, ih]
      exact ⟨Or.inr, fun hmem => hmem.resolve_left (Ne.symm h)⟩

/-- Adding a response puts it behind those of its beginning. Rules with other beginnings are not
    changed, and a beginning without a rule gets one. -/
theorem waiting_addResponse (opening other : String) (response : Response) (rules : List Rule) :
    waiting opening (addResponse other response rules)
      = waiting opening rules ++ if other = opening then [response] else [] := by
  induction rules with
  | nil =>
    rw [addResponse, waiting_cons]
    split <;> rfl
  | cons r rules ih =>
    rw [addResponse, waiting_cons]
    by_cases hother : r.opening = other
    · rw [if_pos hother, waiting_cons, Rule.add]
      dsimp only
      by_cases hopening : r.opening = opening
      · rw [if_pos hopening, if_pos hopening, if_pos (hother.symm.trans hopening),
          List.cons_append]
      · rw [if_neg hopening, if_neg hopening, if_neg fun h => hopening (hother.trans h),
          List.append_nil]
    · rw [if_neg hother, waiting_cons, ih]
      by_cases hopening : r.opening = opening
      · rw [if_pos hopening, if_pos hopening,
          if_neg fun h => hother (hopening.trans h.symm), List.append_nil]
      · rw [if_neg hopening, if_neg hopening]

theorem mem_openings_addResponse {opening other : String} {response : Response}
    {rules : List Rule} (h : opening ∈ openings (addResponse other response rules)) :
    opening = other ∨ opening ∈ openings rules := by
  rw [← waiting_ne_nil_iff, waiting_addResponse] at h
  by_cases heq : other = opening
  · exact Or.inl heq.symm
  · rw [if_neg heq, List.append_nil, waiting_ne_nil_iff] at h
    exact Or.inr h

/-- No beginning gets a second rule: where there is one, the response is added to it. -/
theorem nodup_addResponse (other : String) (response : Response) {rules : List Rule}
    (h : (openings rules).Nodup) : (openings (addResponse other response rules)).Nodup := by
  induction rules with
  | nil => exact List.nodup_cons.mpr ⟨List.not_mem_nil, List.nodup_nil⟩
  | cons r rules ih =>
    rw [openings, List.map_cons, List.nodup_cons] at h
    rw [addResponse]
    by_cases hother : r.opening = other
    · rw [if_pos hother]
      exact List.nodup_cons.mpr h
    · rw [if_neg hother]
      -- What is added further back is a response, or a rule with this new beginning.
      refine List.nodup_cons.mpr ⟨fun hmem => ?_, ih h.2⟩
      rcases mem_openings_addResponse hmem with heq | hmem
      · exact hother heq
      · exact h.1 hmem

theorem opening_advance (r : Rule) : r.advance.opening = r.opening := by
  unfold Rule.advance
  split <;> rfl

theorem responses_advance (r : Rule) :
    r.advance.current :: r.advance.later = spend (r.current :: r.later) := by
  unfold Rule.advance
  split
  · rename_i hnil
    rw [hnil]
    rfl
  · rename_i next rest hcons
    rw [hcons]
    rfl

/-- Using a response up changes its rule and no other. The last response of a rule stays. -/
theorem waiting_advanceRule (opening other : String) (rules : List Rule) :
    waiting opening (advanceRule other rules)
      = if other = opening then spend (waiting opening rules) else waiting opening rules := by
  induction rules with
  | nil => exact (ite_self _).symm
  | cons r rules ih =>
    rw [advanceRule, List.map_cons, ← advanceRule, waiting_cons, ih, waiting_cons]
    by_cases hother : r.opening = other
    · rw [if_pos hother, opening_advance, responses_advance]
      by_cases hopening : r.opening = opening
      · rw [if_pos hopening, if_pos hopening, if_pos (hother.symm.trans hopening)]
      · rw [if_neg hopening, if_neg hopening]
    · rw [if_neg hother]
      by_cases hopening : r.opening = opening
      · rw [if_pos hopening, if_pos hopening, if_neg fun h => hother (hopening.trans h.symm)]
      · rw [if_neg hopening, if_neg hopening]

theorem openings_advanceRule (other : String) (rules : List Rule) :
    openings (advanceRule other rules) = openings rules := by
  unfold openings advanceRule
  rw [List.map_map]
  refine List.map_congr_left fun r _ => ?_
  rw [Function.comp_apply]
  split
  · exact opening_advance r
  · rfl

theorem fits_iff {command : String} {r : Rule} :
    r.fits command = true ↔ r.opening.toList <+: command.toList := by
  rw [Rule.fits, Text.startsWith, List.isPrefixOf_iff_prefix]

/-- A command without a rule is one that no rule fits. -/
theorem ruleFor_eq_none {command : String} {rules : List Rule} (h : ruleFor command rules = none) :
    ∀ r ∈ rules, r.fits command = false := by
  induction rules with
  | nil => exact List.forall_mem_nil _
  | cons r rules ih =>
    rw [ruleFor] at h
    split at h
    · rename_i hrest
      split at h
      · cases h
      · rename_i hfits
        exact List.forall_mem_cons.mpr ⟨Bool.eq_false_iff.mpr hfits, ih hrest⟩
    · split at h
      · cases h
      · cases h

/-- The rule of a command fits it, and no rule with a longer beginning does. The search goes
    through the rules from the end and replaces what it has found only by a longer beginning, so
    that what it holds is the longest one of the rules behind, which is what the induction needs
    of them. -/
theorem ruleFor_eq_some {command : String} {rules : List Rule} {best : Rule}
    (h : ruleFor command rules = some best) :
    best ∈ rules ∧ best.fits command = true ∧
      ∀ r ∈ rules, r.fits command = true → r.opening.length ≤ best.opening.length := by
  induction rules generalizing best with
  | nil => cases h
  | cons r rules ih =>
    rw [ruleFor] at h
    -- The search has looked at the rules behind this one first, so this one has to be longer.
    cases hrest : ruleFor command rules with
    | none =>
      simp only [hrest] at h
      split at h
      · rename_i hfits
        cases h
        refine ⟨List.mem_cons_self .., hfits, List.forall_mem_cons.mpr ⟨fun _ => Nat.le_refl _, ?_⟩⟩
        intro other hother hfits'
        rw [ruleFor_eq_none hrest other hother] at hfits'
        cases hfits'
      · cases h
    | some found =>
      rcases ih hrest with ⟨hmem, hfound, hmax⟩
      simp only [hrest, Bool.and_eq_true, decide_eq_true_eq] at h
      split at h
      · rename_i hlonger
        cases h
        refine ⟨List.mem_cons_self .., hlonger.1,
          List.forall_mem_cons.mpr ⟨fun _ => Nat.le_refl _, ?_⟩⟩
        exact fun other hother hfits =>
          Nat.le_trans (hmax other hother hfits) (Nat.le_of_lt hlonger.2)
      · rename_i hshorter
        cases h
        -- A rule of the same length behind it wins, and the maximum is not strict.
        refine ⟨List.mem_cons_of_mem _ hmem, hfound, List.forall_mem_cons.mpr ⟨?_, hmax⟩⟩
        exact fun hfits => Nat.le_of_not_lt fun hlt => hshorter ⟨hfits, hlt⟩

/-- The first of the responses that wait is the one that the rule gives. -/
theorem head_waiting {rules : List Rule} (h : (openings rules).Nodup) {r : Rule}
    (hr : r ∈ rules) : waiting r.opening rules = r.current :: r.later := by
  induction rules with
  | nil => exact absurd hr List.not_mem_nil
  | cons other rules ih =>
    rw [openings, List.map_cons, List.nodup_cons] at h
    rw [waiting_cons]
    rcases List.mem_cons.mp hr with rfl | hr
    · rw [if_pos rfl]
    · rw [if_neg fun heq : other.opening = r.opening => h.1 (heq ▸ List.mem_map_of_mem hr)]
      exact ih h.2 hr

/-! ### What a recording holds -/

/-- What a recording holds after some events: each rule the end of the responses that were added
    for it, which is not empty if there were any. How much of them is left depends on the calls,
    and is said by the turn of a rule. -/
structure Records (events : List RecordingEvent) (s : Recording) : Prop where
  history : s.history = events.filterMap command?
  nodup : (openings s.rules).Nodup
  suffix : ∀ opening, waiting opening s.rules <:+ responses opening events
  waits : ∀ opening, responses opening events ≠ [] → waiting opening s.rules ≠ []

namespace Records

variable {events : List RecordingEvent} {s : Recording}

/-- A rule is there exactly if a response was added for its beginning. -/
theorem mem_openings (h : Records events s) {opening : String} :
    opening ∈ openings s.rules ↔ responses opening events ≠ [] := by
  rw [← waiting_ne_nil_iff]
  refine ⟨fun hwaiting hnil => hwaiting ?_, h.waits opening⟩
  rw [← List.suffix_nil, ← hnil]
  exact h.suffix opening

/-- The rule that answers is the one of the longest beginning. -/
theorem chosen_of_ruleFor (h : Records events s) {command : String} {r : Rule}
    (hr : ruleFor command s.rules = some r) : Chosen events command r.opening := by
  rcases ruleFor_eq_some hr with ⟨hmem, hfits, hmax⟩
  refine ⟨h.mem_openings.mp (List.mem_map_of_mem hmem), fits_iff.mp hfits, ?_⟩
  intro other hother hbegins
  rcases List.mem_map.mp (h.mem_openings.mpr hother) with ⟨r', hr', rfl⟩
  exact hmax r' hr' (fits_iff.mpr hbegins)

/-- Without a rule none of the beginnings fits. -/
theorem unmatched_of_ruleFor (h : Records events s) {command : String}
    (hnone : ruleFor command s.rules = none) : Unmatched events command := by
  intro opening hopening hbegins
  rcases List.mem_map.mp (h.mem_openings.mpr hopening) with ⟨r, hr, rfl⟩
  have hfits := ruleFor_eq_none hnone r hr
  rw [fits_iff.mpr hbegins] at hfits
  cases hfits

/-- Asking a command spends a response of the rule of its longest beginning. -/
theorem waiting_reply (h : Records events s) {command opening : String}
    (hchosen : Chosen events command opening) (other : String) :
    waiting other (s.reply command).2.rules
      = if opening = other then spend (waiting other s.rules) else waiting other s.rules := by
  unfold reply
  cases hr : ruleFor command s.rules with
  | none => exact absurd hchosen.2.1 (h.unmatched_of_ruleFor hr opening hchosen.1)
  | some r =>
    rw [hchosen.unique (h.chosen_of_ruleFor hr)]
    exact waiting_advanceRule other r.opening s.rules

/-- The answer is the first response that waits. -/
theorem answer_reply (h : Records events s) {command opening : String}
    (hchosen : Chosen events command opening) :
    ∃ response, (waiting opening s.rules).head? = some response ∧
      (s.reply command).1 = response.answer command := by
  unfold reply
  cases hr : ruleFor command s.rules with
  | none => exact absurd hchosen.2.1 (h.unmatched_of_ruleFor hr opening hchosen.1)
  | some r =>
    rw [hchosen.unique (h.chosen_of_ruleFor hr),
      head_waiting h.nodup (ruleFor_eq_some hr).1]
    exact ⟨r.current, rfl, rfl⟩

/-- A command that no rule fits has empty output and changes no rule. -/
theorem reply_unmatched (h : Records events s) {command : String}
    (hunmatched : Unmatched events command) :
    (s.reply command).1 = .ok [] ∧ (s.reply command).2.rules = s.rules := by
  unfold reply
  cases hr : ruleFor command s.rules with
  | none => exact ⟨rfl, rfl⟩
  | some r =>
    have hchosen := h.chosen_of_ruleFor hr
    exact absurd hchosen.2.1 (hunmatched _ hchosen.1)

/-- A command has a longest beginning, or none at all. -/
theorem chosen_or_unmatched (h : Records events s) (command : String) :
    (∃ opening, Chosen events command opening) ∨ Unmatched events command := by
  cases hr : ruleFor command s.rules with
  | none => exact Or.inr (h.unmatched_of_ruleFor hr)
  | some r => exact Or.inl ⟨r.opening, h.chosen_of_ruleFor hr⟩

end Records

theorem spend_suffix (l : List Response) : spend l <:+ l := by
  match l with
  | [] => exact List.suffix_rfl
  | [_] => exact List.suffix_rfl
  | response :: next :: rest => exact List.suffix_cons response (next :: rest)

theorem spend_ne_nil {l : List Response} (h : l ≠ []) : spend l ≠ [] := by
  match l with
  | [] => exact absurd rfl h
  | [_] => exact List.cons_ne_nil _ _
  | _ :: _ :: _ => exact List.cons_ne_nil _ _

theorem length_spend (l : List Response) :
    (spend l).length = if 1 < l.length then l.length - 1 else l.length := by
  match l with
  | [] => rfl
  | [_] => rfl
  | _ :: next :: rest =>
    rw [if_pos (by simp only [List.length_cons]; omega)]
    rfl

theorem openings_reply (command : String) (s : Recording) :
    openings (s.reply command).2.rules = openings s.rules := by
  unfold reply
  cases ruleFor command s.rules with
  | none => rfl
  | some r => exact openings_advanceRule r.opening s.rules

/-- Every event keeps what a recording holds. The fields speak of one beginning at a time, so a
    response that is added and a call that is answered each change what waits under one
    beginning, and leave the others as they were. That a rule which has had a response never
    runs dry is kept beside, since the last one is given again. -/
theorem Records.step {events : List RecordingEvent} {s : Recording} (h : Records events s)
    (event : RecordingEvent) : Records (events ++ [event]) (s.step event) := by
  cases event with
  -- A response is added at the end of one rule, or begins one, and its turn is not yet.
  | record other response =>
    have hwaiting := fun opening => waiting_addResponse opening other response s.rules
    have hresponses := fun opening =>
      (responses_append opening events _).trans
        (congrArg (responses opening events ++ ·) (responses_record opening other response))
    refine ⟨?_, nodup_addResponse other response h.nodup, fun opening => ?_,
      fun opening hne => ?_⟩
    -- Adding is not asking.
    · rw [List.filterMap_append, ← h.history]
      exact (List.append_nil _).symm
    · rcases h.suffix opening with ⟨given, hgiven⟩
      refine ⟨given, ?_⟩
      rw [Recording.step, push, hwaiting, hresponses, ← List.append_assoc, hgiven]
    · rw [Recording.step, push, hwaiting]
      rw [hresponses] at hne
      by_cases hold : responses opening events = []
      · rw [hold, List.nil_append] at hne
        exact List.append_ne_nil_of_right_ne_nil _ hne
      · exact List.append_ne_nil_of_left_ne_nil (h.waits opening hold) _
  -- A call takes from the rule that is chosen, and the responses that were added stay.
  | ask command =>
    have hresponses : ∀ opening, responses opening (events ++ [ask command])
        = responses opening events := fun opening => by
      rw [responses_append, responses_ask, List.append_nil]
    have hhistory : (s.reply command).2.history = (events ++ [ask command]).filterMap command? := by
      rw [reply_history, h.history, List.filterMap_append]
      rfl
    have hnodup : (openings (s.reply command).2.rules).Nodup :=
      (openings_reply command s).symm ▸ h.nodup
    -- Which rule this is depends on the events alone.
    rcases h.chosen_or_unmatched command with ⟨chosen, hchosen⟩ | hunmatched
    · refine ⟨hhistory, hnodup, fun opening => ?_, fun opening hne => ?_⟩
      · rw [Recording.step, h.waiting_reply hchosen, hresponses]
        split
        · exact (spend_suffix _).trans (h.suffix opening)
        · exact h.suffix opening
      · rw [hresponses] at hne
        rw [Recording.step, h.waiting_reply hchosen]
        split
        · exact spend_ne_nil (h.waits opening hne)
        · exact h.waits opening hne
    · have hrules := (h.reply_unmatched hunmatched).2
      refine ⟨hhistory, hnodup, fun opening => ?_, fun opening hne => ?_⟩
      · rw [Recording.step, hrules, hresponses]
        exact h.suffix opening
      · rw [hresponses] at hne
        rw [Recording.step, hrules]
        exact h.waits opening hne

theorem records_ofEvents (events : List RecordingEvent) : Records events (ofEvents events) := by
  induction events using List.reverseRecOn with
  | nil =>
    exact ⟨rfl, List.nodup_nil, fun _ => List.suffix_rfl, fun _ h => absurd rfl h⟩
  | append_singleton events event ih =>
    rw [ofEvents_concat]
    exact ih.step event

/-! ### Whose turn it is -/

/-- The number of the response whose turn it is: so many were added before those that wait. -/
def turn (opening : String) (events : List RecordingEvent) : Nat :=
  (responses opening events).length - (waiting opening (ofEvents events).rules).length

variable {opening : String}

theorem waiting_eq_drop (opening : String) (events : List RecordingEvent) :
    waiting opening (ofEvents events).rules
      = (responses opening events).drop (turn opening events) :=
  List.suffix_iff_eq_drop.mp ((records_ofEvents events).suffix opening)

/-- How many responses wait, by the turn. -/
theorem turn_add_length (opening : String) (events : List RecordingEvent) :
    turn opening events + (waiting opening (ofEvents events).rules).length
      = (responses opening events).length := by
  have hle := ((records_ofEvents events).suffix opening).length_le
  rw [turn]
  omega

/-- Adding a response does not pass the turn on. -/
theorem turn_record (opening other : String) (response : Response)
    (events : List RecordingEvent) :
    turn opening (events ++ [record other response]) = turn opening events := by
  have hold := turn_add_length opening events
  have hnew := turn_add_length opening (events ++ [record other response])
  rw [ofEvents_concat, Recording.step, push, waiting_addResponse, responses_append,
    responses_record, List.length_append, List.length_append] at hnew
  omega

/-- A call passes the turn on if the next response is there. Otherwise the same response is given
    again at the next call. -/
theorem turn_ask {command : String} {events : List RecordingEvent}
    (h : Chosen events command opening) :
    turn opening (events ++ [ask command])
      = if turn opening events + 1 < (responses opening events).length then
          turn opening events + 1
        else turn opening events := by
  have hrecords := records_ofEvents events
  have hwaits := List.length_pos_iff.mpr (hrecords.waits opening h.1)
  have hold := turn_add_length opening events
  have hnew := turn_add_length opening (events ++ [ask command])
  rw [ofEvents_concat, Recording.step, hrecords.waiting_reply h, if_pos rfl, length_spend,
    responses_append, responses_ask, List.append_nil] at hnew
  -- What is left of the responses tells how far the turn has come.
  split
  · rw [if_pos (by omega)] at hnew
    omega
  · rw [if_neg (by omega)] at hnew
    omega

/-- A command for another rule does not pass the turn on. -/
theorem turn_ask_other {command : String} {events : List RecordingEvent}
    (h : ¬ Chosen events command opening) :
    turn opening (events ++ [ask command]) = turn opening events := by
  have hrecords := records_ofEvents events
  have hsame : waiting opening ((ofEvents events).reply command).2.rules
      = waiting opening (ofEvents events).rules := by
    rcases hrecords.chosen_or_unmatched command with ⟨chosen, hchosen⟩ | hunmatched
    · rw [hrecords.waiting_reply hchosen, if_neg fun heq : chosen = opening => h (heq ▸ hchosen)]
    · rw [(hrecords.reply_unmatched hunmatched).2]
  rw [turn, turn, ofEvents_concat, Recording.step, hsame, responses_append, responses_ask,
    List.append_nil]

/-- An event leaves the turn where it is or passes it on by one. -/
theorem turn_concat (opening : String) (events : List RecordingEvent) (event : RecordingEvent) :
    turn opening (events ++ [event]) = turn opening events ∨
      (turn opening (events ++ [event]) = turn opening events + 1 ∧
        ∃ command, event = ask command ∧ Chosen events command opening) := by
  cases event with
  | record other response => exact Or.inl (turn_record opening other response events)
  | ask command =>
    by_cases h : Chosen events command opening
    · rw [turn_ask h]
      split
      · exact Or.inr ⟨rfl, command, rfl, h⟩
      · exact Or.inl rfl
    · exact Or.inl (turn_ask_other h)

/-- While the rule is not called, the turn stays where it is. -/
theorem turn_silent {before later : List RecordingEvent} (h : Silent opening before later) :
    turn opening (before ++ later) = turn opening before := by
  induction later using List.reverseRecOn with
  | nil => rw [List.append_nil]
  | append_singleton later event ih =>
    rw [← List.append_assoc]
    rcases turn_concat opening (before ++ later) event with hsame | ⟨_, command, rfl, hchosen⟩
    · rw [hsame]
      exact ih h.of_append
    · exact absurd hchosen (h later command [] rfl)

/-- The turn never goes back. -/
theorem turn_mono (opening : String) (before later : List RecordingEvent) :
    turn opening before ≤ turn opening (before ++ later) := by
  induction later using List.reverseRecOn with
  | nil => exact Nat.le_of_eq (congrArg (turn opening) (List.append_nil before).symm)
  | append_singleton later event ih =>
    rw [← List.append_assoc]
    rcases turn_concat opening (before ++ later) event with hsame | ⟨hnext, _⟩
    · omega
    · omega

/-- No response is skipped: each one before the turn was given by a call. -/
theorem exists_call {events : List RecordingEvent} {k : Nat} (h : k < turn opening events) :
    ∃ before command rest, events = before ++ ask command :: rest ∧
      Chosen before command opening ∧ turn opening before = k := by
  induction events using List.reverseRecOn with
  | nil => exact absurd h (Nat.not_lt_zero k)
  | append_singleton events event ih =>
    by_cases hk : k < turn opening events
    · rcases ih hk with ⟨before, command, rest, rfl, hchosen, hturn⟩
      refine ⟨before, command, rest ++ [event], ?_, hchosen, hturn⟩
      rw [List.append_assoc, List.cons_append]
    · rcases turn_concat opening events event with hsame | ⟨hnext, command, rfl, hchosen⟩
      · omega
      · exact ⟨events, command, [], rfl, hchosen, by omega⟩

/-- A response that is there has its turn come up with so many calls. Each call of its rule
    passes the turn on as long as there is a response behind, and this one is behind every
    earlier one. The induction is on the number of calls, and the response may have been added
    before the first of them or between two. -/
theorem reaches_turn {n k : Nat} {before later : List RecordingEvent}
    (hcalls : CalledTimes opening (n + 1) before later)
    (hk : k < (responses opening before).length) (hle : k ≤ turn opening before + n) :
    ∃ x command y, before ++ later = x ++ ask command :: y ∧ Chosen x command opening ∧
      k ≤ turn opening x := by
  induction n generalizing before later with
  | zero =>
    rcases hcalls with ⟨x, command, y, rfl, hchosen, _⟩
    refine ⟨before ++ x, command, y, (List.append_assoc ..).symm, hchosen, ?_⟩
    exact Nat.le_trans hle (turn_mono opening before x)
  | succ n ih =>
    rcases hcalls with ⟨x, command, y, rfl, hchosen, hcalls⟩
    -- Either its turn has come by the first of the calls, or this call passes the turn on and
    -- the rest of the calls is enough by induction.
    by_cases hreached : k ≤ turn opening (before ++ x)
    · exact ⟨before ++ x, command, y, (List.append_assoc ..).symm, hchosen, hreached⟩
    · -- The first of the calls passes the turn on, for the response is there.
      have hmono := turn_mono opening before x
      have hmore : k < (responses opening (before ++ x)).length := by
        rw [responses_append, List.length_append]
        omega
      have hnext := turn_ask hchosen
      rw [if_pos (by omega)] at hnext
      have hthere : k < (responses opening (before ++ x ++ [ask command])).length := by
        rw [responses_append, List.length_append]
        omega
      rcases ih hcalls hthere (by omega) with ⟨x', command', y', hsplit, hfound⟩
      refine ⟨x', command', y', ?_, hfound⟩
      rw [← hsplit]
      simp only [List.append_assoc, List.cons_append, List.nil_append]

/-- What a recording answers after any events, the responses of a rule being numbered from
    zero on:

    * the commands that were asked are remembered in order, whatever became of them;
    * a command has one longest beginning or none, and no two rules have one beginning;
    * without one the output is empty, and no rule changes;
    * otherwise the rule of this beginning gives the response whose turn it is, which is its
      lines, or the failure of a command that could not be started, and the other rules are
      left alone;
    * at the first call it is the turn of the first response, and after a call that of the
      next one if this was there by then, and of the same one otherwise;
    * so the responses whose turn has not passed wait in their order, each one whose turn
      has passed was given at a call of its own, and each one that was added is given if the
      rule is called often enough. -/
theorem replies_numbered (events : List RecordingEvent) :
    (ofEvents events).history = events.filterMap command? ∧
    (openings (ofEvents events).rules).Nodup ∧
    (∀ command, ((∃ opening, Chosen events command opening) ∨ Unmatched events command) ∧
      (∀ opening other, Chosen events command opening → Chosen events command other →
        opening = other) ∧
      (Unmatched events command → ((ofEvents events).reply command).1 = .ok [] ∧
        ((ofEvents events).reply command).2.rules = (ofEvents events).rules) ∧
      ∀ opening, Chosen events command opening →
        (∃ response, (responses opening events)[turn opening events]? = some response ∧
          (∀ lines, response = .output lines →
            ((ofEvents events).reply command).1 = .ok lines) ∧
          (response = .spawnFailure →
            ((ofEvents events).reply command).1
              = .error ⟨command, "replayed spawn failure"⟩)) ∧
        ∀ other, other ≠ opening → waiting other ((ofEvents events).reply command).2.rules
          = waiting other (ofEvents events).rules) ∧
    ∀ opening,
      (Silent opening [] events → turn opening events = 0) ∧
      (∀ before command later, events = before ++ ask command :: later →
        Chosen before command opening → Silent opening (before ++ [ask command]) later →
        turn opening events
          = if turn opening before + 1 < (responses opening before).length then
              turn opening before + 1
            else turn opening before) ∧
      waiting opening (ofEvents events).rules
        = (responses opening events).drop (turn opening events) ∧
      (∀ before later, events = before ++ later → turn opening before ≤ turn opening events) ∧
      (∀ k < turn opening events, ∃ before command later,
        events = before ++ ask command :: later ∧ Chosen before command opening ∧
          turn opening before = k) ∧
      ∀ before later k, events = before ++ later → k < (responses opening before).length →
        CalledTimes opening (k + 1) before later →
        ∃ x command y, events = x ++ ask command :: y ∧ Chosen x command opening ∧
          turn opening x = k := by
  have hrecords := records_ofEvents events
  refine ⟨hrecords.history, hrecords.nodup, fun command => ⟨hrecords.chosen_or_unmatched command,
    fun _ _ => Chosen.unique, hrecords.reply_unmatched, fun opening hchosen => ⟨?_, ?_⟩⟩,
    fun opening => ⟨turn_silent, ?_, waiting_eq_drop opening events, ?_,
      fun _ => exists_call, ?_⟩⟩
  -- The response that is given is at the head of those that wait, and so it is the one whose
  -- turn it is.
  · rcases hrecords.answer_reply hchosen with ⟨response, hhead, hanswer⟩
    rw [waiting_eq_drop, List.head?_drop] at hhead
    refine ⟨response, hhead, ?_, ?_⟩
    · rintro lines rfl
      exact hanswer
    · rintro rfl
      exact hanswer
  · intro other hother
    rw [hrecords.waiting_reply hchosen, if_neg hother.symm]
  -- Between two calls of a rule the turn stands still.
  · rintro before command later rfl hchosen hsilent
    rw [List.append_cons, turn_silent hsilent, turn_ask hchosen]
  · rintro before later rfl
    exact turn_mono opening before later
  · rintro before later k rfl hk hcalls
    -- Enough calls bring its turn up, if it has not come earlier.
    rcases reaches_turn hcalls hk (Nat.le_add_left ..) with ⟨x, command, y, hsplit, hchosen, hle⟩
    rcases Nat.lt_or_eq_of_le hle with hlt | rfl
    · -- Its turn has passed by then, so an earlier call gave it.
      rcases exists_call hlt with ⟨before', command', rest, rfl, hcall⟩
      refine ⟨before', command', rest ++ ask command :: y, ?_, hcall⟩
      rw [hsplit, List.append_assoc, List.cons_append]
    · exact ⟨x, command, y, hsplit, hchosen, rfl⟩

/-- A response that is added later waits until the last one was given once more. -/
example :
    let events := [record "ls" (.output ["a"]), ask "ls x", record "ls" .spawnFailure,
      record "l" (.output [])]
    ((ofEvents events).reply "ls").1 = .ok ["a"] ∧
      ((ofEvents (events ++ [ask "ls"])).reply "ls").1
        = .error ⟨"ls", "replayed spawn failure"⟩ := by
  decide

end Recording

end AccelMonitor
