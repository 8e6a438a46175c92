import AccelMonitor.Proofs.KernelLog.Heading

/-!
# The Keyword of a Line

Which probe a line has, apart from the probes that are looked for.

A line is looked up in one pattern made of all configured probes, in the order of
configuration, and the probe is told by the number of the group that took part.
Nothing of that matters for the answer. A line has the keyword of at most one probe
behind its heading, because no keyword begins with another one; and it is found
exactly when that probe is configured, wherever in the list and however often.
This is `probe?_eq_some`.

## Theorems

* `Headed.unique`: A line has the keyword of at most one probe.
* `keywords_derives`: Which group a keyword is found by.
* `probe?_eq_some`: The probe of a line is the one whose keyword it has, if configured.
* `probe?_of_headed`: The probe of a line with a keyword.
* `probe?_congr`: Only which probes are configured matters.
-/

namespace AccelMonitor

namespace KernelLog

theorem keyword_head (p : KernelProbe) :
    ∃ c rest, p.keyword.toList = c :: rest ∧ Text.isBlank c = false := by
  cases p with
  | ioctl => exact ⟨'I', ['O', 'C', 'T', 'L'], by decide, by decide⟩
  | time => exact ⟨'T', ['I', 'M', 'E'], by decide, by decide⟩
  | info => exact ⟨'I', ['N', 'F', 'O'], by decide, by decide⟩

/-- What begins with a keyword does not begin blank. -/
theorem head_keyword (p : KernelProbe) (rest : List Char) :
    ∀ c ∈ (p.keyword.toList ++ rest).head?, Text.isBlank c = false := by
  rcases keyword_head p with ⟨c, tail, hkeyword, hc⟩
  rw [hkeyword]
  exact Text.head_char hc _

/-- No keyword begins with the keyword of another probe. -/
theorem keyword_prefix_eq {p q : KernelProbe} (h : p.keyword.toList <+: q.keyword.toList) :
    p = q := by
  revert h
  cases p <;> cases q <;> decide

/-- A line has the keyword of at most one probe behind its heading. -/
theorem Headed.unique {line : List Char} {p q : KernelProbe} (hp : Headed line p)
    (hq : Headed line q) : p = q := by
  rcases hp with ⟨h, rest, hline⟩
  rcases hq with ⟨h', rest', hline'⟩
  -- Both keywords stand where the one heading of the line ends.
  have hbehind : p.keyword.toList ++ rest = q.keyword.toList ++ rest' :=
    (Heading.eq_of_chars (head_keyword p rest) (head_keyword q rest')
      (hline.symm.trans hline')).2
  have hfront : p.keyword.toList <+: q.keyword.toList ++ rest' := by
    rw [← hbehind]
    exact List.prefix_append ..
  rcases List.prefix_or_prefix_of_prefix hfront (List.prefix_append ..) with hpq | hqp
  · exact keyword_prefix_eq hpq
  · exact (keyword_prefix_eq hqp).symm

/-- What the pattern of some keywords matches is one of them, found by the group of its
    position. -/
theorem keywords_derives {p : KernelProbe} {ps : List KernelProbe} {position : Nat}
    {piece rest : List Char} {g : Groups}
    (h : (keywords p ps position).Derives piece rest g) :
    ∃ i q, (p :: ps)[i]? = some q ∧ piece = q.keyword.toList ∧
      g = [(position + i, piece ++ rest), (position + i, rest)] := by
  induction ps generalizing p position with
  | nil =>
    rcases h with ⟨inner, rfl, hpiece, rfl⟩
    exact ⟨0, p, rfl, hpiece, rfl⟩
  | cons next ps ih =>
    rcases h with ⟨inner, rfl, hpiece, rfl⟩ | h
    · exact ⟨0, p, rfl, hpiece, rfl⟩
    · -- The groups are numbered through the alternatives, so the position goes up by one.
      rcases ih h with ⟨i, q, hq, hpiece, hg⟩
      refine ⟨i + 1, q, hq, hpiece, ?_⟩
      rw [hg, Nat.add_right_comm, Nat.add_assoc]

/-- The pattern of some keywords matches each of them. -/
theorem exists_keywords_derives {p q : KernelProbe} {ps : List KernelProbe} (position : Nat)
    (hq : q ∈ p :: ps) (rest : List Char) :
    ∃ g, (keywords p ps position).Derives q.keyword.toList rest g := by
  induction ps generalizing p position with
  | nil =>
    rw [List.mem_singleton.mp hq]
    exact ⟨_, [], rfl, rfl, rfl⟩
  | cons next ps ih =>
    rcases List.mem_cons.mp hq with rfl | hq
    · exact ⟨_, Or.inl ⟨[], rfl, rfl, rfl⟩⟩
    · rcases ih (position + 1) hq with ⟨g, hg⟩
      exact ⟨g, Or.inr hg⟩

/-- The probe whose group took part is the one at the position of the group. -/
theorem probeAt?_eq_getElem? {groups : Groups} {probes : List KernelProbe} {position i : Nat}
    (h : ∀ m, (groups.lookup m).isSome = true ↔ m = position + i) :
    probeAt? groups probes position = probes[i]? := by
  induction probes generalizing position i with
  | nil => rfl
  | cons p ps ih =>
    rw [probeAt?]
    cases i with
    | zero =>
      rw [if_pos ((h position).mpr rfl)]
      rfl
    | succ i =>
      rw [if_neg fun hsome => by have := (h position).mp hsome; omega]
      exact ih fun m => by rw [h m, Nat.add_right_comm, Nat.add_assoc]

/-- A match tells the probe whose keyword the line has: exactly one group took part in it, and its
    number is the position of that probe. -/
theorem probeAt?_of_derives {p : KernelProbe} {ps : List KernelProbe} {piece rest : List Char}
    {g : Groups} (h : (Pattern.seq stamp (keywords p ps 1)).Derives piece rest g) :
    ∃ q, probeAt? g (p :: ps) 1 = some q ∧ Headed (piece ++ rest) q := by
  rcases h with ⟨stamped, found, before, after, rfl, rfl, hstamp, hkeywords⟩
  rcases keywords_derives hkeywords with ⟨i, q, hq, rfl, rfl⟩
  rcases Heading.of_derives hstamp with ⟨heading, rfl⟩
  rw [hstamp.groups_eq_nil rfl, List.nil_append]
  refine ⟨q, ?_, heading, rest, List.append_assoc ..⟩
  rw [← hq]
  refine probeAt?_eq_getElem? fun m => ?_
  -- Both places that the match reports are of this group.
  simp only [List.lookup_cons, List.lookup_nil]
  by_cases hm : m = 1 + i
  · simp only [hm, beq_self_eq_true, Option.isSome_some]
  · simp only [beq_eq_false_iff_ne.mpr hm, Option.isSome_none, Bool.false_eq_true, hm]

/-- The probe of a line is the one whose keyword it has, if that is configured. Which of several
    matches the pattern takes depends on the order of the probes, but a line has one heading,
    and no keyword is the beginning of another, so all matches tell the same probe. -/
theorem probe?_eq_some {probes : List KernelProbe} {line : String} {p : KernelProbe} :
    probe? probes line = some p ↔ p ∈ probes ∧ Headed line.toList p := by
  -- What the pattern tells is right, however it has matched.
  have hheaded : ∀ {q}, probe? probes line = some q → Headed line.toList q := by
    intro q h
    cases probes with
    | nil => cases h
    | cons first ps =>
      rcases Option.bind_eq_some_iff.mp h with ⟨g, hg, hq⟩
      rcases Pattern.atStart_eq_some hg with ⟨piece, rest, hline, hderives⟩
      rcases probeAt?_of_derives hderives with ⟨q', hq', hfound⟩
      rw [hq', Option.some.injEq] at hq
      rw [hline, ← hq]
      exact hfound
  refine ⟨fun h => ⟨probe?_mem h, hheaded h⟩, ?_⟩
  rintro ⟨hmem, heading, rest, hline⟩
  cases probes with
  | nil => exact absurd hmem List.not_mem_nil
  | cons first ps =>
    rcases exists_keywords_derives 1 hmem rest with ⟨g, hkeywords⟩
    -- There is a match, and whichever probe it tells is the one whose keyword the line has.
    have hderives : (Pattern.seq stamp (keywords first ps 1)).Derives
        (heading.chars ++ p.keyword.toList) rest ([] ++ g) :=
      ⟨heading.chars, p.keyword.toList, [], g, rfl, rfl, heading.derives _, hkeywords⟩
    have hsome := Pattern.atStart_isSome hderives
    rw [List.append_assoc, ← hline] at hsome
    rcases Option.isSome_iff_exists.mp hsome with ⟨found, hfound⟩
    rcases Pattern.atStart_eq_some hfound with ⟨piece, tail, _, hmatch⟩
    rcases probeAt?_of_derives hmatch with ⟨q, hq, _⟩
    have hprobe : probe? (first :: ps) line = some q :=
      Option.bind_eq_some_iff.mpr ⟨found, hfound, hq⟩
    rw [hprobe, (hheaded hprobe).unique ⟨heading, rest, hline⟩]

/-- A line with the keyword of a probe behind a heading is one of the probe, if that is
    configured. -/
theorem probe?_of_headed {line : String} {p : KernelProbe}
    (h : Headed line.toList p) (probes : List KernelProbe) :
    probe? probes line = if p ∈ probes then some p else none := by
  split
  · rename_i hmem
    exact probe?_eq_some.mpr ⟨hmem, h⟩
  · rename_i hmem
    rw [Option.eq_none_iff_forall_ne_some]
    intro q hq
    rcases probe?_eq_some.mp hq with ⟨hconfigured, hq⟩
    rw [hq.unique h] at hconfigured
    exact hmem hconfigured

/-- Only which probes are configured matters for a line's probe. -/
theorem probe?_congr {probes others : List KernelProbe} (h : ∀ p, p ∈ probes ↔ p ∈ others)
    (line : String) : probe? probes line = probe? others line := by
  apply Option.ext
  intro p
  rw [probe?_eq_some, probe?_eq_some, h p]

end KernelLog

end AccelMonitor
