import AccelMonitor.Proofs.Handoff.Order
import Mathlib.Data.List.Induction
import Mathlib.Data.List.ReduceOption

/-!
# Safety of the Hand-Off

What a poller and the foreground can rely on, whatever the schedule.

The two sides share a queue and a flag, and either may act between any two steps of
the other. What can go wrong is bounded all the same. The queue holds no more than its
places, and what has left it and what is in it are together the first of the snapshots
that were polled, in their order. At most one snapshot is missing from them, the one
polled last: the poller still has it in its hands, or it was offered to a full queue
and given up when the poller found the flag raised.

`Move` says once what a step can do, and every invariant is derived from it. The
invariants are about the steps as well as the state they lead to, because giving up
takes two looks, at the queue and at the flag, with any number of steps in between.

Emptying the queue at once is one schedule of many. `drain_eq_run` reads it as taking
one value after the other, and so a foreground that is interrupted by the poller while
it empties the queue is covered too.

## Main definitions

* `Handoff.Move`: What a step does, by what the state allows.
* `Handoff.performed`: What the polls of a run came to.
* `Handoff.TurnedAway`: A value was last offered to a full queue.
* `Handoff.GivenUp`: It was then given up because the flag was up.
* `Handoff.Safe`: What the two sides can rely on.

## Theorems

* `move_step`: Every step is a move.
* `Bounded.step`, `Bounded.run`: The queue holds no more than its places.
* `polled_run`: What was polled is what the successful polls came to.
* `turnedAway_of_doubting`, `exit_of_stopped`, `settled_run`: The invariants of a run.
* `handoff_safe`: All of this, for every run.
-/

namespace AccelMonitor

namespace Queue

variable {α : Type} {q : Queue α} {a : α}

theorem push?_capacity {q' : Queue α} (h : q.push? a = some q') : q'.capacity = q.capacity := by
  rw [push?] at h
  split at h
  · cases h
    rfl
  · cases h

theorem hasRoom_of_push? (h : q.push? a = none) : q.hasRoom = false := by
  rw [push?] at h
  split at h
  · cases h
  · rename_i hroom
    exact eq_false_of_ne_true hroom

theorem pop_fits (q : Queue α) :
    q.pop.2.capacity = q.capacity ∧ q.pop.2.items.length ≤ q.items.length := by
  rcases q with ⟨capacity, items⟩
  cases items with
  | nil => exact ⟨rfl, Nat.le_refl _⟩
  | cons a rest => exact ⟨rfl, Nat.le_succ _⟩

end Queue

namespace Handoff

variable {α : Type} {h : Handoff α}

/-- What a step does, by what the state allows. A poller has its turns at any time, but each of
    its steps belongs to certain phases, and elsewhere it does nothing. -/
inductive Move (h : Handoff α) : HandoffStep α → Handoff α → Prop where
  | begin (hphase : h.phase = .resting) (hexit : h.exit = false) :
      Move h (.poller .check) { h with phase := .polling }
  | stop (hphase : h.phase = .resting) (hexit : h.exit = true) :
      Move h (.poller .check) { h with phase := .stopped }
  | goOn (a : α) (hphase : h.phase = .doubting a) (hexit : h.exit = false) :
      Move h (.poller .check) { h with phase := .offering a }
  | giveUp (a : α) (hphase : h.phase = .doubting a) (hexit : h.exit = true) :
      Move h (.poller .check) { h with phase := .stopped, offers := h.offers ++ [⟨a, false⟩] }
  | polled (a : α) (hphase : h.phase = .polling) :
      Move h (.poller (.poll (some a)))
        { h with phase := .offering a, polled := h.polled ++ [a] }
  | failed (hphase : h.phase = .polling) :
      Move h (.poller (.poll none)) { h with phase := .resting }
  | enter (a : α) (q : Queue α) (hphase : h.phase = .offering a)
      (hpush : h.queue.push? a = some q) :
      Move h (.poller .attempt)
        { h with queue := q, phase := .resting, offers := h.offers ++ [⟨a, true⟩] }
  | timeOut (a : α) (hphase : h.phase = .offering a) (hpush : h.queue.push? a = none) :
      Move h (.poller .attempt) { h with phase := .doubting a }
  /-- It is not the time for such a step. -/
  | idle (s : PollerStep α) (hpoll : ∀ outcome, s = .poll outcome → h.phase ≠ .polling) :
      Move h (.poller s) h
  | pop : Move h .pop h.pop
  | drain : Move h .drain h.drain
  | raise : Move h .raiseExit h.raiseExit

/-- Every step is a move. The cases are those of the program, and a step that the state does not
    allow does nothing. The invariants of this module go through this lemma and never unfold a
    step themselves. -/
theorem move_step (h : Handoff α) (s : HandoffStep α) : h.Move s (h.step s) := by
  -- Whatever is not a poll can be asked of a poller at any time, and then does nothing.
  have hidle : ∀ s : PollerStep α, (∀ outcome, s ≠ .poll outcome) → h.Move (.poller s) h :=
    fun s hs => .idle s fun outcome heq => absurd heq (hs outcome)
  cases s with
  | pop => exact .pop
  | drain => exact .drain
  | raiseExit => exact .raise
  | poller s =>
    cases s with
    | check =>
      simp only [step, pollerStep, check]
      -- Between two polls the exit flag decides whether there is another one.
      split
      · rename_i hphase
        split
        · rename_i hexit
          exact .stop hphase hexit
        · rename_i hexit
          exact .begin hphase (Bool.not_eq_true _ ▸ hexit)
      -- A value that found no room is given up if the flag is up, and offered again if not.
      · rename_i a hphase
        split
        · rename_i hexit
          exact .giveUp a hphase hexit
        · rename_i hexit
          exact .goOn a hphase (Bool.not_eq_true _ ▸ hexit)
      · exact hidle .check fun _ heq => by cases heq
    | poll outcome =>
      simp only [step, pollerStep, poll.eq_def]
      split
      · rename_i a hphase
        exact .polled a hphase
      · rename_i hphase
        exact .failed hphase
      · rename_i outcome _ _ hsome hnone
        refine .idle _ fun _ _ hphase => ?_
        -- A poll either finds something or fails.
        cases outcome with
        | some a => exact hsome a hphase rfl
        | none => exact hnone hphase rfl
    | attempt =>
      simp only [step, pollerStep, attempt]
      -- Only a value that is being offered can enter the queue, and only if there is room.
      split
      · rename_i a hphase
        split
        · rename_i q hpush
          exact .enter a q hphase hpush
        · rename_i hpush
          exact .timeOut a hphase hpush
      · exact hidle .attempt fun _ heq => by cases heq

/-- The poller takes nothing out of the queue. -/
theorem taken_pollerStep (h : Handoff α) (s : PollerStep α) :
    (h.pollerStep s).taken = h.taken := by
  have hmove : h.Move (.poller s) (h.pollerStep s) := move_step h (.poller s)
  generalize h.pollerStep s = h' at hmove
  cases hmove with
  | _ => rfl

theorem run_concat (h : Handoff α) (steps : List (HandoffStep α)) (s : HandoffStep α) :
    h.run (steps ++ [s]) = (h.run steps).step s := by
  simp only [run, List.foldl_append, List.foldl_cons, List.foldl_nil]

/-- The queue has so many places and no more values. -/
def Bounded (places : Nat) (h : Handoff α) : Prop :=
  h.queue.capacity = places ∧ h.queue.items.length ≤ places

/-- A step keeps the queue within its capacity. Only a value that enters makes it longer, and that
    needs room. -/
theorem Bounded.step {places : Nat} (hb : h.Bounded places) (s : HandoffStep α) :
    (h.step s).Bounded places := by
  have hmove := move_step h s
  generalize h.step s = h' at hmove
  cases hmove with
  | enter a q hphase hpush =>
    have hcapacity := Queue.push?_capacity hpush
    have hlength := Queue.push?_length_le hpush
    exact ⟨hcapacity.trans hb.1, by rw [hcapacity, hb.1] at hlength; exact hlength⟩
  | pop =>
    have hfits := Queue.pop_fits h.queue
    exact ⟨hfits.1.trans hb.1, Nat.le_trans hfits.2 hb.2⟩
  | drain => exact ⟨hb.1, Nat.zero_le _⟩
  | _ => exact hb

theorem Bounded.run {places : Nat} (hb : h.Bounded places) (steps : List (HandoffStep α)) :
    (h.run steps).Bounded places := by
  induction steps generalizing h with
  | nil => exact hb
  | cons s steps ih => exact ih (hb.step s)

/-- What one step polls, if it does: a snapshot, or a failure. -/
def performedStep (h : Handoff α) : HandoffStep α → List (Option α)
  | .poller (.poll outcome) =>
    match h.phase with
    | .polling => [outcome]
    | _ => []
  | _ => []

/-- What the polls of a run came to, oldest first. A poll step out of its turn polls
    nothing. -/
def performed (h : Handoff α) : List (HandoffStep α) → List (Option α)
  | [] => []
  | s :: steps => h.performedStep s ++ (h.step s).performed steps

/-- What was polled grows by what the step performs: one value in a poll that succeeds, and
    nothing in any other step. -/
theorem polled_step (h : Handoff α) (s : HandoffStep α) :
    (h.step s).polled = h.polled ++ (h.performedStep s).reduceOption := by
  have hmove := move_step h s
  generalize h.step s = h' at hmove
  -- What was polled grows by what the step performs, which is something in a poll alone.
  cases hmove with
  | polled a hphase =>
    simp only [performedStep, hphase, List.reduceOption_cons_of_some, List.reduceOption_nil]
  | failed hphase =>
    simp only [performedStep, hphase, List.reduceOption_cons_of_none, List.reduceOption_nil,
      List.append_nil]
  | idle s hpoll =>
    have hnone : h.performedStep (.poller s) = [] := by
      rw [performedStep.eq_def]
      split
      · rename_i outcome heq
        cases heq
        split
        · rename_i hphase
          exact absurd hphase (hpoll outcome rfl)
        · rfl
      · rfl
    rw [hnone, List.reduceOption_nil, List.append_nil]
  | _ => simp only [performedStep, List.reduceOption_nil, List.append_nil, pop, Handoff.drain,
      raiseExit]

/-- What was polled is what the successful polls came to: a failed one adds nothing. -/
theorem polled_run (h : Handoff α) (steps : List (HandoffStep α)) :
    (h.run steps).polled = h.polled ++ (h.performed steps).reduceOption := by
  induction steps generalizing h with
  | nil => exact (List.append_nil _).symm
  | cons s steps ih =>
    have hrest := ih (h.step s)
    rw [polled_step, List.append_assoc] at hrest
    rw [performed, List.reduceOption_append]
    exact hrest

/-- Taking all values at once is taking them one by one. -/
theorem drain_eq_run (h : Handoff α) :
    h.drain = h.run (List.replicate h.queue.items.length .pop) := by
  rcases h with ⟨⟨capacity, items⟩, phase, exit, polled, offers, taken⟩
  induction items generalizing taken with
  | nil =>
    simp only [drain, Queue.drain, List.append_nil, List.length_nil, List.replicate_zero, run,
      List.foldl_nil]
  | cons a items ih =>
    have hrest := ih (taken ++ [a])
    simp only [drain, Queue.drain, List.append_assoc, List.singleton_append] at hrest ⊢
    simp only [List.length_cons, List.replicate_succ, run, List.foldl_cons]
    exact hrest

/-- The queue was full when the value was offered the last time. -/
def TurnedAway (h : Handoff α) (steps : List (HandoffStep α)) (a : α) : Prop :=
  ∃ before after, steps = before ++ .poller .attempt :: after ∧
    (h.run before).phase = .offering a ∧ (h.run before).queue.hasRoom = false

/-- The value was offered to a full queue, and when the poller then looked at the flag, it
    was up. -/
def GivenUp (h : Handoff α) (steps : List (HandoffStep α)) (a : α) : Prop :=
  ∃ before after, steps = before ++ .poller .check :: after ∧ h.TurnedAway before a ∧
    (h.run before).phase = .doubting a ∧ (h.run before).exit = true

theorem TurnedAway.concat {steps : List (HandoffStep α)} {a : α} (ht : h.TurnedAway steps a)
    (s : HandoffStep α) : h.TurnedAway (steps ++ [s]) a := by
  rcases ht with ⟨before, after, rfl, hphase, hroom⟩
  exact ⟨before, after ++ [s], by simp only [List.append_assoc, List.cons_append], hphase, hroom⟩

theorem GivenUp.concat {steps : List (HandoffStep α)} {a : α} (hg : h.GivenUp steps a)
    (s : HandoffStep α) : h.GivenUp (steps ++ [s]) a := by
  rcases hg with ⟨before, after, rfl, hturned, hphase, hexit⟩
  exact ⟨before, after ++ [s], by simp only [List.append_assoc, List.cons_append], hturned,
    hphase, hexit⟩

/-- A poller that is out of patience has offered its value to a full queue. The phase is entered
    by a timeout alone, and every later step either leaves it or keeps what was known on entering.
    -/
theorem turnedAway_of_doubting (capacity : Nat) (steps : List (HandoffStep α)) {a : α}
    (hdoubting : ((start capacity).run steps).phase = .doubting a) :
    (start capacity).TurnedAway steps a := by
  induction steps using List.reverseRecOn with
  | nil => cases hdoubting
  | append_singleton steps s ih =>
    rw [run_concat] at hdoubting
    have hmove := move_step ((start capacity).run steps) s
    generalize ((start capacity).run steps).step s = h' at hmove hdoubting
    cases hmove with
    -- The step that enters the phase is the offer in question.
    | timeOut b hphase hpush =>
      cases hdoubting
      exact ⟨steps, [], rfl, hphase, Queue.hasRoom_of_push? hpush⟩
    | idle s hpoll => exact (ih hdoubting).concat _
    | pop => exact (ih hdoubting).concat _
    | drain => exact (ih hdoubting).concat _
    | raise => exact (ih hdoubting).concat _
    | _ => cases hdoubting

/-- Only a raised flag stops the poller, and it stays raised. No step lowers it. -/
theorem exit_of_stopped (capacity : Nat) (steps : List (HandoffStep α))
    (hstopped : ((start capacity : Handoff α).run steps).phase = .stopped) :
    ((start capacity : Handoff α).run steps).exit = true := by
  induction steps using List.reverseRecOn with
  | nil => cases hstopped
  | append_singleton steps s ih =>
    rw [run_concat] at hstopped ⊢
    have hmove := move_step ((start capacity : Handoff α).run steps) s
    generalize ((start capacity : Handoff α).run steps).step s = h' at hmove hstopped ⊢
    -- The two ways to stop both look at the flag first.
    cases hmove with
    | stop hphase hexit => exact hexit
    | giveUp a hphase hexit => exact hexit
    | idle s hpoll => exact ih hstopped
    | pop => exact ih hstopped
    | drain => exact ih hstopped
    | raise => rfl
    | _ => cases hstopped

/-- Every offer was accepted, or every one but the last, which was given up. The poller is gone
    in the second case, so that no offer follows. -/
def SettledOffers (h : Handoff α) (steps : List (HandoffStep α)) : Prop :=
  (∀ o ∈ (h.run steps).offers, o.accepted = true) ∨
    ∃ front a, (h.run steps).offers = front ++ [⟨a, false⟩] ∧
      (∀ o ∈ front, o.accepted = true) ∧ (h.run steps).phase = .stopped ∧ h.GivenUp steps a

/-- A step that adds no offer and does not wake the poller changes nothing about them. -/
theorem SettledOffers.concat {steps : List (HandoffStep α)} {s : HandoffStep α} {h' : Handoff α}
    (hs : h.SettledOffers steps) (hstep : (h.run steps).step s = h')
    (hoffers : h'.offers = (h.run steps).offers)
    (hphase : (h.run steps).phase = .stopped → h'.phase = .stopped) :
    h.SettledOffers (steps ++ [s]) := by
  rw [SettledOffers, run_concat, hstep, hoffers]
  rcases hs with hall | ⟨front, a, hfront, hall, hstopped, hgiven⟩
  · exact Or.inl hall
  · exact Or.inr ⟨front, a, hfront, hall, hphase hstopped, hgiven.concat s⟩

theorem SettledOffers.accepted {steps : List (HandoffStep α)} (hs : h.SettledOffers steps)
    (hawake : (h.run steps).phase ≠ .stopped) : ∀ o ∈ (h.run steps).offers, o.accepted = true := by
  rcases hs with hall | ⟨_, _, _, _, hstopped, _⟩
  · exact hall
  · exact absurd hstopped hawake

/-- After any steps all offers are settled. A value is given up only by a poller that stops with
    it, so a refused offer is the last one there ever is, and nothing behind it can be out of
    order. -/
theorem settled_run (capacity : Nat) (steps : List (HandoffStep α)) :
    (start capacity).SettledOffers steps := by
  induction steps using List.reverseRecOn with
  | nil => exact Or.inl (List.forall_mem_nil _)
  | append_singleton steps s ih =>
    have hmove := move_step ((start capacity).run steps) s
    generalize hstep : ((start capacity).run steps).step s = h' at hmove
    -- An offer is settled by entering the queue or by being given up.
    cases hmove with
    | enter a q hphase hpush =>
      have hbefore := ih.accepted (by simp only [hphase, ne_eq, reduceCtorEq, not_false_eq_true])
      refine Or.inl ?_
      rw [run_concat, hstep]
      intro o ho
      rcases List.mem_append.mp ho with ho | ho
      · exact hbefore o ho
      · rw [List.mem_singleton.mp ho]
    | giveUp a hphase hexit =>
      have hbefore := ih.accepted (by simp only [hphase, ne_eq, reduceCtorEq, not_false_eq_true])
      have hturned := turnedAway_of_doubting capacity steps hphase
      refine Or.inr ⟨((start capacity).run steps).offers, a, ?_, hbefore, ?_, ?_⟩
      · rw [run_concat, hstep]
      · rw [run_concat, hstep]
      · exact ⟨steps, [], rfl, hturned, hphase, hexit⟩
    -- The other steps offer nothing, and a poller that is gone does nothing any more.
    | begin hphase hexit =>
      exact ih.concat hstep rfl (by simp only [hphase, reduceCtorEq, imp_self])
    | stop hphase hexit => exact ih.concat hstep rfl fun _ => rfl
    | goOn a hphase hexit =>
      exact ih.concat hstep rfl (by simp only [hphase, reduceCtorEq, imp_self])
    | polled a hphase =>
      exact ih.concat hstep rfl (by simp only [hphase, reduceCtorEq, imp_self])
    | failed hphase =>
      exact ih.concat hstep rfl (by simp only [hphase, reduceCtorEq, imp_self])
    | timeOut a hphase hpush =>
      exact ih.concat hstep rfl (by simp only [hphase, reduceCtorEq, imp_self])
    | idle s hpoll => exact ih.concat hstep rfl id
    | pop => exact ih.concat hstep rfl id
    | drain => exact ih.concat hstep rfl id
    | raise => exact ih.concat hstep rfl id

/-- What the two sides can rely on after some steps. -/
structure Safe (capacity : Nat) (steps : List (HandoffStep α)) (h : Handoff α) : Prop where
  /-- The queue holds no more than its places. -/
  bounded : h.queue.items.length ≤ max capacity 1
  /-- Every poll that succeeded counts, and no other. -/
  polled : h.polled = ((start capacity).performed steps).reduceOption
  /-- All polled values, but at most the last one, have left the queue or are in it, in
      their order. Exactly those were offered with success. One that is missing is in
      the poller's hands, or it was given up. -/
  settled : ∃ refused, h.polled = h.taken ++ h.queue.items ++ (refused ++ h.inFlight) ∧
    (refused ++ h.inFlight).length ≤ 1 ∧
    h.offers = (h.taken ++ h.queue.items).map (⟨·, true⟩) ++ refused.map (⟨·, false⟩) ∧
    ∀ a ∈ refused, h.phase = .stopped ∧ (start capacity).GivenUp steps a
  /-- A failed poll changes nothing, and the poller is at rest again. -/
  failed : h.phase = .polling → h.step (.poller (.poll none)) = { h with phase := .resting }
  /-- A poller at rest polls again unless the flag is up. -/
  goesOn : h.phase = .resting → h.exit = false →
    h.step (.poller .check) = { h with phase := .polling }
  /-- Only the flag ends it. -/
  stopped : h.phase = .stopped → h.exit = true

theorem offers_of_accepted {offers : List (Offer α)} (hall : ∀ o ∈ offers, o.accepted = true) :
    offers = (Offer.admitted offers).map (⟨·, true⟩) ∧
      offers.map Offer.value = Offer.admitted offers := by
  have hfilter : offers.filter Offer.accepted = offers := List.filter_eq_self.mpr hall
  rw [Offer.admitted, hfilter]
  refine ⟨?_, rfl⟩
  rw [List.map_map]
  conv_lhs => rw [← List.map_id offers]
  refine List.map_congr_left fun o ho => ?_
  rcases o with ⟨a, accepted⟩
  cases hall ⟨a, accepted⟩ ho
  rfl

theorem length_inFlight_le (h : Handoff α) : h.inFlight.length ≤ 1 := by
  rw [inFlight.eq_def]
  split
  · exact Nat.le_refl 1
  · exact Nat.le_refl 1
  · exact Nat.zero_le 1

/-- After any steps of the two sides, in any order, nothing is lost, nothing comes twice,
    and the order is kept. -/
theorem handoff_safe (capacity : Nat) (steps : List (HandoffStep α)) :
    ((start capacity).run steps).Safe capacity steps := by
  have hbounded : (start capacity : Handoff α).Bounded (max capacity 1) := ⟨rfl, Nat.zero_le _⟩
  have horderly := (orderly_start capacity).run steps
  have hpolled := polled_run (start capacity) steps
  -- The last two clauses say what a poll and a check do from where they are possible.
  refine ⟨(hbounded.run steps).2, hpolled, ?_, fun hphase => ?_, fun hphase hexit => ?_,
    exit_of_stopped capacity steps⟩
  · rcases settled_run capacity steps with hall | ⟨front, a, hoffers, hall, hstopped, hgiven⟩
    · -- Nothing was refused, so at most the value in the poller's hands is missing.
      have haccepted := offers_of_accepted hall
      rw [horderly.admitted] at haccepted
      refine ⟨[], ?_, ?_, ?_, fun b hb => absurd hb List.not_mem_nil⟩
      · rw [horderly.polled, haccepted.2, List.nil_append]
      · exact length_inFlight_le _
      · rw [List.map_nil, List.append_nil]
        exact haccepted.1
    · -- The refused value was the last one, and the poller is gone.
      have haccepted := offers_of_accepted hall
      have hadmitted := horderly.admitted
      rw [hoffers, Offer.admitted_concat, if_neg Bool.false_ne_true, List.append_nil] at hadmitted
      rw [hadmitted] at haccepted
      have hflight : ((start capacity).run steps).inFlight = [] := by
        rw [inFlight, hstopped]
      refine ⟨[a], ?_, ?_, ?_, fun b hb => ?_⟩
      · rw [horderly.polled, hoffers, List.map_append, haccepted.2, hflight]
        exact List.append_nil _
      · rw [hflight]
        exact Nat.le_refl 1
      · rw [hoffers, haccepted.1]
        rfl
      · cases List.mem_singleton.mp hb
        exact ⟨hstopped, hgiven⟩
  · simp only [step, pollerStep, poll, hphase]
  · simp only [step, pollerStep, check, hphase, hexit, Bool.false_eq_true, if_false]

end Handoff

end AccelMonitor
