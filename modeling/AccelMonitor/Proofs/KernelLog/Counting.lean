import AccelMonitor.Proofs.KernelLog.Driver
import AccelMonitor.Proofs.KernelLog.Watermark

/-!
# What Is Counted

The counts of a reading, said without counting.

A reading that counts goes back through the new lines of the utilization probe until one is
too old, and counts the drivers of those it has passed. Times need not be in order, so the
lines that count are not all lines that are recent enough. They are the longest stretch of
these at the end, and `eligible_window` says so.

The numbers start over with every reading, on whichever way it takes, so they are those of
the lines that count and of nothing before. The names do not start over. They only become
more, and this is kept by every poll of a run, from the drivers that are known at the start.

Every line counts for one driver at most, so all numbers together are no more than lines.

## Main definitions

* `Counts.total`: All numbers together.
* `KernelLog.NotBefore`: The time of a line is not below a time.
* `KernelLog.Window`: Which lines count.

## Theorems

* `get_foldl_bump`, `mem_foldl_bump`: What counting some names changes.
* `total_eq_length`: Names that are all listed are counted once each.
* `since_longest`: A search back finds the longest stretch.
* `eligible_window`: Which lines are chosen.
* `mem_counts_run`: Names stay listed.
* `counts_exact`: All of it.
-/

namespace AccelMonitor

/-- What was listed stays listed, and what is inserted is listed. -/
theorem Table.mem_foldl_insert {β : Type} {entries : List (String × β)} {t : Table β}
    {name : String} (h : name ∈ t ∨ ∃ value, (name, value) ∈ entries) :
    name ∈ entries.foldl (fun t e => t.insert e.1 e.2) t := by
  induction entries generalizing t with
  | nil =>
    rcases h with h | ⟨value, hvalue⟩
    · exact h
    · exact absurd hvalue List.not_mem_nil
  | cons e entries ih =>
    refine ih ?_
    rw [Std.ExtTreeMap.mem_insert, Std.compare_eq_iff_eq]
    rcases h with h | ⟨value, hvalue⟩
    · exact Or.inl (Or.inr h)
    · rcases List.mem_cons.mp hvalue with rfl | hvalue
      · exact Or.inl (Or.inl rfl)
      · exact Or.inr ⟨value, hvalue⟩

namespace Counts

theorem get_foldl_bump (counts : Counts) (names : List String) (name : String) :
    (names.foldl bump counts).get name = counts.get name + names.count name := by
  induction names generalizing counts with
  | nil => rfl
  | cons first names ih =>
    rw [List.foldl_cons, ih, get_bump, List.count_cons]
    by_cases h : first = name
    · rw [if_pos h, if_pos (beq_iff_eq.mpr h)]
      omega
    · rw [if_neg h, if_neg fun heq => h (beq_iff_eq.mp heq)]
      omega

/-- Names are listed if they were or if they have been counted. -/
theorem mem_foldl_bump {counts : Counts} {names : List String} {name : String} :
    name ∈ names.foldl bump counts ↔ name ∈ counts ∨ name ∈ names := by
  induction names generalizing counts with
  | nil =>
    rw [List.foldl_nil]
    exact (or_iff_left List.not_mem_nil).symm
  | cons first names ih =>
    rw [List.foldl_cons, ih, mem_bump, List.mem_cons]
    constructor
    · rintro ((rfl | h) | h)
      · exact Or.inr (Or.inl rfl)
      · exact Or.inl h
      · exact Or.inr (Or.inr h)
    · rintro (h | rfl | h)
      · exact Or.inl (Or.inr h)
      · exact Or.inl (Or.inl rfl)
      · exact Or.inr h

/-- All numbers together. -/
def total (counts : Counts) : Nat :=
  (counts.toList.map Prod.snd).foldr (· + ·) 0

/-- If the keys are different and every name is a key, the numbers of the names add up to how
    many names there are. It is the step from single counts to their total: the keys of the map
    are different by its invariant, and a count never leaves them. -/
theorem count_keys {keys names : List String} (hkeys : keys.Nodup)
    (hnames : ∀ name ∈ names, name ∈ keys) :
    (keys.map fun key => names.count key).foldr (· + ·) 0 = names.length := by
  -- By induction on the keys: those of the first are taken out of the names for the others.
  induction keys generalizing names with
  | nil =>
    have hnil : names = [] := List.eq_nil_iff_forall_not_mem.mpr fun name hname =>
      absurd (hnames name hname) List.not_mem_nil
    rw [hnil]
    rfl
  | cons key keys ih =>
    rw [List.nodup_cons] at hkeys
    -- Without those of the first key, the other names are among the other keys.
    have hothers : ∀ name ∈ names.filter (· != key), name ∈ keys := by
      intro name hname
      rw [List.mem_filter, bne_iff_ne] at hname
      exact (List.mem_cons.mp (hnames name hname.1)).resolve_left hname.2
    have hsame : (keys.map fun other => names.count other)
        = keys.map fun other => (names.filter (· != key)).count other := by
      refine List.map_congr_left fun other hother => ?_
      rw [List.count_filter]
      rw [bne_iff_ne]
      rintro rfl
      exact hkeys.1 hother
    have hlength : names.count key + (names.filter (· != key)).length = names.length := by
      rw [← List.countP_eq_length_filter, List.count,
        List.length_eq_countP_add_countP (· == key) (l := names)]
      refine congrArg (_ + ·) (List.countP_congr fun name _ => ?_)
      simp only [bne, Bool.not_eq_true', Bool.not_eq_true, decide_eq_true_eq]
    rw [List.map_cons, List.foldr_cons, hsame, ih hkeys.2 hothers]
    exact hlength

/-- Where every name is listed, with how often it occurs, the numbers are together as many as
    there are names. -/
theorem total_eq_length {counts : Counts} {names : List String}
    (hget : ∀ name, counts.get name = names.count name) (hmem : ∀ name ∈ names, name ∈ counts) :
    counts.total = names.length := by
  have hentry : ∀ e ∈ counts.toList, e.2 = names.count e.1 := by
    intro e he
    rw [← hget e.1, get, Std.ExtTreeMap.mem_toList_iff_getElem?_eq_some.mp he, Option.getD_some]
  have hkeys : counts.toList.map Prod.snd = counts.keys.map fun key => names.count key := by
    rw [← Std.ExtTreeMap.map_fst_toList_eq_keys, List.map_map]
    exact List.map_congr_left hentry
  rw [total, hkeys]
  exact count_keys Std.ExtTreeMap.nodup_keys fun name hname =>
    Std.ExtTreeMap.mem_keys.mpr (hmem name hname)

end Counts

namespace KernelLog

/-- The time of the line is not below another time. -/
def NotBefore (cutoff : Binary64) (line : String) : Prop :=
  ∃ t, time line = .ok t ∧ t.lt cutoff = false

/-- The longest stretch at the end of some lines with no time below another time. It is
    determined by the lines, as no two stretches from the same end have the same length. -/
structure LongestSince (cutoff : Binary64) (lines found : List String) : Prop where
  suffix : found <:+ lines
  notBefore : ∀ line ∈ found, NotBefore cutoff line
  longest : ∀ other, other <:+ lines → (∀ line ∈ other, NotBefore cutoff line) →
    other.length ≤ found.length

/-- The lines that count, of the new lines of the utilization probe: all of them, or the longest
    stretch at the end with no time below that of the last line less a threshold. -/
structure Window (full : Bool) (threshold : Binary64) (lines found : List String) : Prop where
  suffix : found <:+ lines
  all : full = true → found = lines
  recent : full = false → ∀ last, lines.getLast? = some last →
    ∃ t, time last = .ok t ∧ LongestSince (t.sub threshold) lines found

/-- One step of a search: the line is too old and ends it, or it is found. -/
theorem since_cons {cutoff : Binary64} {line : String} {older found : List String}
    (h : since cutoff (line :: older) = .ok found) :
    ∃ t, time line = .ok t ∧
      ((t.lt cutoff = true ∧ found = []) ∨
        (t.lt cutoff = false ∧ ∃ rest, since cutoff older = .ok rest ∧ found = line :: rest)) := by
  rw [since] at h
  cases htime : time line with
  | error f =>
    rw [htime] at h
    cases h
  | ok t =>
    rw [htime] at h
    refine ⟨t, rfl, ?_⟩
    -- A line before the cutoff ends the search, and the lines behind it are not looked at.
    by_cases hlt : t.lt cutoff = true
    · simp only [if_pos hlt, Except.ok.injEq] at h
      exact Or.inl ⟨hlt, h.symm⟩
    · simp only [if_neg hlt] at h
      cases hrest : since cutoff older with
      | error f =>
        rw [hrest] at h
        cases h
      | ok rest =>
        simp only [hrest, Except.ok.injEq] at h
        exact Or.inr ⟨Bool.not_eq_true _ ▸ hlt, rest, rfl, h.symm⟩

/-- A search finds the longest stretch of lines that are not too old. It stops at the first line
    that is, even if lines further back are recent again, and that is what longest means here:
    no stretch from the same end goes on past such a line. -/
theorem since_longest {cutoff : Binary64} {lines found : List String}
    (h : since cutoff lines = .ok found) :
    found <+: lines ∧ (∀ line ∈ found, NotBefore cutoff line) ∧
      ∀ other, other <+: lines → (∀ line ∈ other, NotBefore cutoff line) →
        other.length ≤ found.length := by
  induction lines generalizing found with
  | nil =>
    cases h
    refine ⟨List.prefix_rfl, List.forall_mem_nil _, fun other hother _ => ?_⟩
    exact hother.length_le
  | cons line older ih =>
    rcases since_cons h with ⟨t, ht, ⟨hlt, rfl⟩ | ⟨hlt, rest, hrest, rfl⟩⟩
    -- Too old: the search stops and nothing is found.
    · refine ⟨List.nil_prefix, List.forall_mem_nil _, fun other hother hall => ?_⟩
      -- Whatever begins here has this line in front, which is too old.
      cases other with
      | nil => exact Nat.le_refl 0
      | cons first other =>
        rcases hall first (List.mem_cons_self ..) with ⟨u, hu, hnot⟩
        rw [(List.cons_prefix_cons.mp hother).1, ht, Except.ok.injEq] at hu
        rw [← hu, hlt] at hnot
        cases hnot
    -- Recent enough: the line is in front of what the older ones give.
    · rcases ih hrest with ⟨hfront, hnot, hlongest⟩
      refine ⟨List.cons_prefix_cons.mpr ⟨rfl, hfront⟩, ?_, ?_⟩
      · intro l hl
        rcases List.mem_cons.mp hl with rfl | hl
        · exact ⟨t, ht, hlt⟩
        · exact hnot l hl
      · intro other hother hall
        cases other with
        | nil => exact Nat.zero_le _
        | cons first other =>
          have hshorter := hlongest other (List.cons_prefix_cons.mp hother).2
            fun l hl => hall l (List.mem_cons_of_mem first hl)
          exact Nat.succ_le_succ hshorter

/-- The lines that are chosen are those that count. The program turns the lines around, searches
    from the newest one backwards and turns the find around again, so the search's prefixes are
    suffixes of the delta. A delta without lines has no last line, and then nothing is there to
    choose. -/
theorem eligible_window {full : Bool} {threshold : Binary64} {lines found : List String}
    (h : eligible full threshold lines = .ok found) : Window full threshold lines found := by
  cases full with
  | true =>
    cases h
    exact ⟨List.suffix_rfl, fun _ => rfl, fun hfull => absurd hfull.symm Bool.false_ne_true⟩
  | false =>
    -- The threshold counts back from the last line.
    cases hlast : lines.getLast? with
    | none =>
      simp only [eligible, hlast, Except.ok.injEq] at h
      rw [← h]
      refine ⟨List.suffix_rfl, fun _ => rfl, fun _ last hl => ?_⟩
      rw [hlast] at hl
      cases hl
    | some last =>
      simp only [eligible, hlast] at h
      cases htime : time last with
      | error f =>
        rw [htime] at h
        cases h
      | ok t =>
        simp only [htime] at h
        cases hsince : since (t.sub threshold) lines.reverse with
        | error f =>
          rw [hsince] at h
          cases h
        | ok recent =>
          simp only [hsince, Except.map, Except.ok.injEq] at h
          rw [← h]
          -- The search went through the lines from the end.
          rcases since_longest hsince with ⟨hfront, hnot, hlongest⟩
          have hsuffix : recent.reverse <:+ lines := List.reverse_prefix.mp (by
            rw [List.reverse_reverse]
            exact hfront)
          have hwindow : LongestSince (t.sub threshold) lines recent.reverse := by
            refine ⟨hsuffix, fun l hl => hnot l (List.mem_reverse.mp hl), ?_⟩
            intro other hother hall
            have hlength := hlongest other.reverse (List.reverse_prefix.mpr hother)
              fun l hl => hall l (List.mem_reverse.mp hl)
            simp only [List.length_reverse] at hlength ⊢
            exact hlength
          refine ⟨hsuffix, fun hfull => absurd hfull Bool.false_ne_true, fun _ l hl => ?_⟩
          rw [hlast, Option.some.injEq] at hl
          rw [← hl]
          exact ⟨t, htime, hwindow⟩

/-- The names that lines are counted for, with how often they are. -/
theorem count_driverOf (utilization : KernelProbe) (lines : List String) (driver : String) :
    (lines.filterMap (driverOf utilization)).count driver
      = lines.countP fun line => Names utilization line driver := by
  rw [List.count, List.countP_filterMap]
  refine List.countP_congr fun line _ => ?_
  rw [decide_eq_true_eq, ← driverOf_eq_some]
  cases driverOf utilization line with
  | none => simp only [Option.map_none, Option.getD_none, Bool.false_eq_true, reduceCtorEq]
  | some found =>
    simp only [Option.map_some, Option.getD_some, beq_iff_eq, Option.some.injEq]

end KernelLog

namespace KernelReader

open KernelLog

/-- Accepting what was found keeps the names. -/
theorem mem_counts_accept {r : KernelReader} {delta : Buckets} {newest : Binary64}
    {driver : String} : driver ∈ (r.accept delta newest).counts ↔ driver ∈ r.counts := by
  unfold accept
  by_cases h : delta.isEmpty = true
  · simp only [h, if_true]
    exact Counts.mem_zeroed r.counts driver
  · simp only [h, if_false, Bool.false_eq_true]

theorem mem_counts_next {r r' : KernelReader} {answer : Answer} (h : r.next answer = .ok r')
    (driver : String) : driver ∈ r'.counts ↔ driver ∈ r.counts := by
  rcases next_eq_ok h with ⟨log, _, _, rfl⟩
  exact mem_counts_accept

/-- A reading keeps the names and adds those of the lines that count. -/
theorem mem_counts_nextCounted {r r₁ : KernelReader} {answer : Answer} {lines : List String}
    (hnext : r.next answer = .ok r₁) (driver : String) :
    driver ∈ countDrivers r₁.utilization r₁.counts.zeroed lines ↔
      driver ∈ r.counts ∨ ∃ line ∈ lines, Names r₁.utilization line driver := by
  unfold countDrivers
  rw [Counts.mem_foldl_bump, Counts.mem_zeroed, mem_counts_next hnext, List.mem_filterMap]
  simp only [driverOf_eq_some]

/-- A poll keeps the names. -/
theorem mem_counts_poll {r : KernelReader} (p : KernelPoll) {driver : String}
    (h : driver ∈ r.counts) : driver ∈ (r.poll p).counts := by
  rcases poll_cases r p with ⟨hpoll, _⟩ | ⟨log, _, hread, _, _⟩
  · rw [hpoll]
    exact h
  · rcases p with ⟨reading, answer⟩
    cases reading with
    | plain => exact (mem_counts_next hread driver).mpr h
    | counted full threshold =>
      rcases nextCounted_eq_ok hread with ⟨r₁, lines, hnext, _, hr'⟩
      rw [hr']
      exact (mem_counts_nextCounted hnext driver).mpr (Or.inl h)

/-- A run keeps the names. -/
theorem mem_counts_run {r : KernelReader} (polls : List KernelPoll) {driver : String}
    (h : driver ∈ r.counts) : driver ∈ (r.run polls).counts := by
  induction polls generalizing r with
  | nil => exact h
  | cons p polls ih => exact ih (mem_counts_poll p h)

/-- A run keeps the probe whose lines are counted. -/
theorem utilization_run (r : KernelReader) (polls : List KernelPoll) :
    (r.run polls).utilization = r.utilization := by
  induction polls generalizing r with
  | nil => rfl
  | cons p polls ih =>
    refine (ih (r.poll p)).trans ?_
    rcases poll_cases r p with ⟨hpoll, _⟩ | ⟨log, _, _, hupdated, _⟩
    · rw [hpoll]
    · exact hupdated.utilization

/-- A reader starts with the known drivers, at zero, so they are listed before anything was
    counted. -/
theorem start_counts {probes : List KernelProbe} {utilization : KernelProbe} {answer : Answer}
    {r : KernelReader} (h : start probes utilization answer = .ok r) :
    r.utilization = utilization ∧ ∀ driver ∈ knownDrivers, driver ∈ r.counts := by
  cases answer with
  | error f => cases h
  | ok log =>
    rw [start] at h
    cases htop : lastTime .zero (classify probes log) with
    | error f =>
      rw [htop] at h
      cases h
    | ok top =>
      rw [htop] at h
      rw [← Except.ok.inj h]
      -- The table is made of the known drivers with zeros.
      refine ⟨rfl, fun driver hdriver => ?_⟩
      exact Table.mem_foldl_insert (Or.inr ⟨0, List.mem_map.mpr ⟨driver, hdriver, rfl⟩⟩)

/-- What a counted reading finds is counted exactly, in every state that a reader can get
    to, for every log, threshold and mode:

    * the known drivers and all that were ever counted stay listed;
    * a driver's number is that of the lines that count and name it, where the lines that count
      are all new ones of the utilization probe or the longest stretch at their end that is
      recent enough;
    * the drivers that are listed are those from before and those that were counted;
    * the numbers together are no more than the new lines of the utilization probe;
    * all of them are zero where there is nothing new, or nothing of that probe. -/
theorem counts_exact {probes : List KernelProbe} {utilization : KernelProbe} {answer : Answer}
    {r₀ : KernelReader} (h : start probes utilization answer = .ok r₀) (polls : List KernelPoll) :
    (∀ driver ∈ knownDrivers, driver ∈ (r₀.run polls).counts) ∧
    (∀ more driver, driver ∈ (r₀.run polls).counts → driver ∈ (r₀.run (polls ++ more)).counts) ∧
    ∀ full threshold log r', (r₀.run polls).nextCounted full threshold (.ok log) = .ok r' →
      ∃ counted, r'.delta = (r₀.run polls).deltaOf log ∧
        Window full threshold (r'.delta.get utilization) counted ∧
        (∀ driver, r'.counts.get driver
          = counted.countP fun line => Names utilization line driver) ∧
        (∀ driver, driver ∈ r'.counts ↔ driver ∈ (r₀.run polls).counts ∨
          ∃ line ∈ counted, Names utilization line driver) ∧
        r'.counts.total ≤ (r'.delta.get utilization).length ∧
        (r'.fresh = false ∨ r'.delta.get utilization = [] → ∀ driver, r'.counts.get driver = 0) := by
  rcases start_counts h with ⟨hstart, hknown⟩
  have hrun : (r₀.run polls).utilization = utilization := (utilization_run r₀ polls).trans hstart
  refine ⟨fun driver hdriver => mem_counts_run polls (hknown driver hdriver), ?_, ?_⟩
  -- A run goes on where the first part of it has ended.
  · intro more driver hdriver
    have happend : r₀.run (polls ++ more) = (r₀.run polls).run more := List.foldl_append
    rw [happend]
    exact mem_counts_run more hdriver
  -- A counted reading is a plain one, with a window of the delta and the drivers named in it.
  · intro full threshold log r' hr'
    rcases updated_of_read (p := ⟨.counted full threshold, .ok log⟩) hr' with ⟨_, hlog, hupdated⟩
    cases hlog
    rcases nextCounted_eq_ok hr' with ⟨r₁, counted, hnext, helig, rfl⟩
    have hprobe : r₁.utilization = utilization := hupdated.utilization.trans hrun
    rw [hprobe] at helig
    have hwindow := eligible_window helig
    -- The numbers begin at zero, so they are those of the drivers that were counted now.
    have hget : ∀ driver, (countDrivers r₁.utilization r₁.counts.zeroed counted).get driver
        = (counted.filterMap (driverOf utilization)).count driver := by
      intro driver
      rw [countDrivers, Counts.get_foldl_bump, Counts.get_zeroed, Nat.zero_add, hprobe]
    have hmem : ∀ driver, driver ∈ countDrivers r₁.utilization r₁.counts.zeroed counted ↔
        driver ∈ (r₀.run polls).counts ∨ ∃ line ∈ counted, Names utilization line driver := by
      intro driver
      rw [mem_counts_nextCounted hnext, hprobe]
    refine ⟨counted, hupdated.delta, hwindow, ?_, hmem, ?_, ?_⟩
    · intro driver
      rw [hget, count_driverOf]
    -- Every name that was counted is listed, so no number is missing in the total.
    · have hlisted : ∀ driver ∈ counted.filterMap (driverOf utilization),
          driver ∈ countDrivers r₁.utilization r₁.counts.zeroed counted := by
        intro driver hdriver
        rcases List.mem_filterMap.mp hdriver with ⟨line, hline, hnames⟩
        exact (hmem driver).mpr (Or.inr ⟨line, hline, driverOf_eq_some.mp hnames⟩)
      calc (countDrivers r₁.utilization r₁.counts.zeroed counted).total
          = (counted.filterMap (driverOf utilization)).length :=
            Counts.total_eq_length hget hlisted
        _ ≤ counted.length := List.length_filterMap_le ..
        _ ≤ (r₁.delta.get utilization).length := hwindow.suffix.length_le
    -- Nothing new, or nothing of the probe, leaves nothing to count.
    · intro hnone driver
      have hnil : r₁.delta.get utilization = [] := by
        rcases hnone with hstale | hnil
        · refine Buckets.get_eq_nil (Classical.byContradiction fun hsome => ?_) utilization
          rw [hupdated.fresh_iff.mpr hsome] at hstale
          cases hstale
        · exact hnil
      have hcounted : counted = [] := List.suffix_nil.mp (hnil ▸ hwindow.suffix)
      rw [hget, hcounted]
      rfl

/-- The case of a driver that is not known, and of a line that is recent enough but stands in
    front of one that is not. -/
theorem counts_exact_unordered :
    ∃ r₀, start KernelProbe.all .ioctl (.ok ["[1.0] IOCTL kgsl: a"]) = .ok r₀ ∧
      ∃ r', r₀.nextCounted false .zero
          (.ok ["[3.0] IOCTL kgsl: b", "[2.0] IOCTL ICE: c", "[3.0] IOCTL gpu0: d"]) = .ok r' ∧
        (∀ driver ∈ knownDrivers, driver ∈ r₀.counts) ∧
        r'.counts.total ≤ (r'.delta.get .ioctl).length := by
  have hok : ((start KernelProbe.all .ioctl (.ok ["[1.0] IOCTL kgsl: a"])).bind fun r =>
      r.nextCounted false .zero
        (.ok ["[3.0] IOCTL kgsl: b", "[2.0] IOCTL ICE: c", "[3.0] IOCTL gpu0: d"])).isOk = true := by
    decide +kernel
  cases h : start KernelProbe.all .ioctl (.ok ["[1.0] IOCTL kgsl: a"]) with
  | error f =>
    rw [h] at hok
    cases hok
  | ok r₀ =>
    rw [h, Except.bind] at hok
    cases h' : r₀.nextCounted false .zero
        (.ok ["[3.0] IOCTL kgsl: b", "[2.0] IOCTL ICE: c", "[3.0] IOCTL gpu0: d"]) with
    | error f =>
      rw [h'] at hok
      cases hok
    | ok r' =>
      rcases counts_exact h [] with ⟨hknown, _, hcounts⟩
      rcases hcounts _ _ _ _ h' with ⟨_, _, _, _, _, htotal, _⟩
      exact ⟨r₀, rfl, r', h', hknown, htotal⟩

end KernelReader

end AccelMonitor
