import AccelMonitor.Handoff.Poller

/-!
# First In, First Out

Nothing gets lost between a poller and the foreground, except what the poller gives up.

A value goes three ways after it was polled. It is still in the poller's hands, it
was refused because the poller had to stop in front of a full queue, or it went into
the queue. What went in comes out in the same order. Both facts are invariants of
every step, whoever takes it, so they hold in every state that a run can reach.

## Main definitions

* `Handoff.inFlight`: The value in the poller's hands.
* `Offer.admitted`: The values that went into the queue.
* `Handoff.Orderly`: Where all values are.

## Theorems

* `history_check`, `history_attempt`, `history_poll`: What the poller adds to the history.
* `orderly_start`, `Orderly.step`, `Orderly.run`: It holds in every reachable state.
* `Orderly.polled_eq_taken`: Once everything was taken, what was taken is what was
  polled.
-/

namespace AccelMonitor

/-- The values of the accepted offers, oldest first. -/
def Offer.admitted {α : Type} (offers : List (Offer α)) : List α :=
  (offers.filter Offer.accepted).map Offer.value

theorem Offer.admitted_concat {α : Type} (offers : List (Offer α)) (o : Offer α) :
    admitted (offers ++ [o]) = admitted offers ++ if o.accepted then [o.value] else [] := by
  rw [admitted, List.filter_append, List.map_append, ← admitted]
  cases haccepted : o.accepted with
  | true => rw [List.filter_cons_of_pos haccepted, if_pos rfl, List.filter_nil, List.map_singleton]
  | false =>
    rw [List.filter_cons_of_neg (ne_true_of_eq_false haccepted), if_neg Bool.false_ne_true,
      List.filter_nil, List.map_nil]

namespace Handoff

variable {α : Type} {h : Handoff α}

/-- The value that was polled but not yet offered with success or refused. -/
def inFlight (h : Handoff α) : List α :=
  match h.phase with
  | .offering a => [a]
  | .doubting a => [a]
  | _ => []

/-- Every polled value was offered or is in the poller's hands, every accepted one was taken or
    is in the queue, and none was refused before the flag was raised. Read together, the three
    lists put all values in one order, which is that of polling. -/
structure Orderly (h : Handoff α) : Prop where
  polled : h.polled = h.offers.map Offer.value ++ h.inFlight
  admitted : Offer.admitted h.offers = h.taken ++ h.queue.items
  refused : h.exit = false → ∀ o ∈ h.offers, o.accepted = true

theorem orderly_start (capacity : Nat) : (start capacity : Handoff α).Orderly :=
  ⟨rfl, rfl, fun _ _ ho => absurd ho List.not_mem_nil⟩

/-- Looking whether to stop polls nothing and takes nothing. -/
theorem history_check (h : Handoff α) : h.check.polled = h.polled ∧ h.check.taken = h.taken := by
  rw [check]
  split
  · exact ⟨rfl, rfl⟩
  · split
    · exact ⟨rfl, rfl⟩
    · exact ⟨rfl, rfl⟩
  · exact ⟨rfl, rfl⟩

/-- Offering a value polls nothing and takes nothing. -/
theorem history_attempt (h : Handoff α) :
    h.attempt.polled = h.polled ∧ h.attempt.taken = h.taken := by
  rw [attempt]
  split
  · split
    · exact ⟨rfl, rfl⟩
    · exact ⟨rfl, rfl⟩
  · exact ⟨rfl, rfl⟩

/-- A poll adds its value to what was polled. -/
theorem history_poll (hphase : h.phase = .polling) (outcome : Option α) :
    (h.poll outcome).polled = h.polled ++ outcome.toList ∧ (h.poll outcome).taken = h.taken := by
  rw [poll.eq_def, hphase]
  cases outcome with
  | none => exact ⟨(List.append_nil _).symm, rfl⟩
  | some a => exact ⟨rfl, rfl⟩

namespace Orderly

/-- A check keeps the order. If the poller finds that it has to leave in front of a full queue,
    the value in its hands is given up and counts as refused; otherwise only the phase changes. -/
theorem check (ho : h.Orderly) : h.check.Orderly := by
  rcases ho with ⟨hpolled, hadmitted, hrefused⟩
  rw [Handoff.check]
  cases hphase : h.phase with
  -- A check moves a value only if the poller holds one that it offered in vain.
  | resting =>
    simp only [inFlight, hphase] at hpolled
    simp only []
    split
    · exact ⟨hpolled, hadmitted, hrefused⟩
    · exact ⟨hpolled, hadmitted, hrefused⟩
  | doubting a =>
    simp only [inFlight, hphase] at hpolled
    simp only []
    split
    · rename_i hexit
      -- The value is given up, so it moves from the poller's hands to the refused ones.
      refine ⟨?_, ?_, fun hlowered => ?_⟩
      · simp only [inFlight, hpolled, List.map_append, List.map_cons, List.map_nil,
          List.append_nil]
      · rw [Offer.admitted_concat, if_neg Bool.false_ne_true, List.append_nil]
        exact hadmitted
      · rw [hexit] at hlowered
        cases hlowered
    · exact ⟨hpolled, hadmitted, hrefused⟩
  | polling => exact ⟨hpolled, hadmitted, hrefused⟩
  | offering a => exact ⟨hpolled, hadmitted, hrefused⟩
  | stopped => exact ⟨hpolled, hadmitted, hrefused⟩

/-- A poll keeps the order: the value that it takes goes to the end of what was polled and into
    the hands of the poller, which were empty. -/
theorem poll (ho : h.Orderly) (outcome : Option α) : (h.poll outcome).Orderly := by
  rcases ho with ⟨hpolled, hadmitted, hrefused⟩
  rw [Handoff.poll.eq_def]
  cases hphase : h.phase with
  | polling =>
    simp only [inFlight, hphase, List.append_nil] at hpolled
    cases outcome with
    | some a => exact ⟨congrArg (· ++ [a]) hpolled, hadmitted, hrefused⟩
    | none =>
      refine ⟨?_, hadmitted, hrefused⟩
      simp only [inFlight, List.append_nil]
      exact hpolled
  | resting => exact ⟨hpolled, hadmitted, hrefused⟩
  | offering a => exact ⟨hpolled, hadmitted, hrefused⟩
  | doubting a => exact ⟨hpolled, hadmitted, hrefused⟩
  | stopped => exact ⟨hpolled, hadmitted, hrefused⟩

/-- An offer keeps the order. If the queue takes the value, it moves from the hands of the poller
    to the end of the queue, which is where the last value that was polled belongs. -/
theorem attempt (ho : h.Orderly) : h.attempt.Orderly := by
  rcases ho with ⟨hpolled, hadmitted, hrefused⟩
  rw [Handoff.attempt]
  cases hphase : h.phase with
  | offering a =>
    simp only [inFlight, hphase] at hpolled
    simp only []
    cases hpush : h.queue.push? a with
    | some queue =>
      -- The value goes from the hands of the poller to the end of the queue.
      refine ⟨?_, ?_, fun hlowered o hmem => ?_⟩
      · simp only [inFlight, hpolled, List.map_append, List.map_cons, List.map_nil,
          List.append_nil]
      · rw [Offer.admitted_concat, if_pos rfl, hadmitted, Queue.push?_items hpush,
          List.append_assoc]
      · rcases List.mem_append.mp hmem with hmem | hmem
        · exact hrefused hlowered o hmem
        · rw [List.mem_singleton.mp hmem]
    | none => exact ⟨hpolled, hadmitted, hrefused⟩
  | resting => exact ⟨hpolled, hadmitted, hrefused⟩
  | polling => exact ⟨hpolled, hadmitted, hrefused⟩
  | doubting a => exact ⟨hpolled, hadmitted, hrefused⟩
  | stopped => exact ⟨hpolled, hadmitted, hrefused⟩

theorem pop (ho : h.Orderly) : h.pop.Orderly := by
  refine ⟨ho.polled, ?_, ho.refused⟩
  -- The oldest value goes from the front of the queue to the end of what was taken.
  have hitems := ho.admitted
  rw [← Queue.pop_items h.queue, ← List.append_assoc] at hitems
  exact hitems

theorem drain (ho : h.Orderly) : h.drain.Orderly := by
  refine ⟨ho.polled, ?_, ho.refused⟩
  have hitems := ho.admitted
  rw [← List.append_nil h.queue.items, ← List.append_assoc] at hitems
  exact hitems

theorem raiseExit (ho : h.Orderly) : h.raiseExit.Orderly :=
  ⟨ho.polled, ho.admitted, fun hlowered => absurd hlowered (Bool.false_ne_true ∘ Eq.symm)⟩

theorem pollerStep (ho : h.Orderly) (s : PollerStep α) : (h.pollerStep s).Orderly := by
  cases s with
  | check => exact ho.check
  | poll outcome => exact ho.poll outcome
  | attempt => exact ho.attempt

theorem step (ho : h.Orderly) (s : HandoffStep α) : (h.step s).Orderly := by
  cases s with
  | poller s => exact ho.pollerStep s
  | pop => exact ho.pop
  | drain => exact ho.drain
  | raiseExit => exact ho.raiseExit

theorem run (ho : h.Orderly) (steps : List (HandoffStep α)) : (h.run steps).Orderly := by
  induction steps generalizing h with
  | nil => exact ho
  | cons s steps ih => exact ih (ho.step s)

/-- Where nothing was refused and nothing is on its way, what was taken is what was
    polled. -/
theorem polled_eq_taken (ho : h.Orderly)
    (hoffers : h.exit = true → ∀ o ∈ h.offers, o.accepted = true) (hflight : h.inFlight = [])
    (hqueue : h.queue.items = []) : h.polled = h.taken := by
  -- Every offer counts, so nothing is missing between polled and taken.
  have hall : h.offers.filter Offer.accepted = h.offers := by
    refine List.filter_eq_self.mpr ?_
    cases hexit : h.exit with
    | true => exact hoffers hexit
    | false => exact ho.refused hexit
  have hadmitted := ho.admitted
  rw [Offer.admitted, hall, hqueue, List.append_nil] at hadmitted
  rw [ho.polled, hflight, List.append_nil, hadmitted]

end Orderly

end Handoff

end AccelMonitor
