import AccelMonitor.Proofs.Text.Encoding
import AccelMonitor.Proofs.Text.Pieces
import AccelMonitor.Proofs.Text.Splitting
import AccelMonitor.Shell.Output

/-!
# The Lines of an Output

Which lists of lines an output can have, and that each of them comes through.

A process ends its lines with a line break, or with a carriage return and a line break, and
what it writes may end in any blanks. None of that is seen afterwards. The blanks around
the whole go first, then the text is cut at the line breaks, then each line loses the
carriage returns that it ends in. So lines come through if they hold nothing of what is
taken away: no line break, no carriage return at their end, and no blank where the text
begins and ends. Lines that came out of an output are always of that kind. They can be
written and read again without a change.

## Main definitions

* `Shell.IsLine`, `Shell.IsOutput`: Lines that can come out of an output.

## Theorems

* `dropReturns_append`: Carriage returns behind a line are dropped.
* `linesOf_join`, `outputLines_join`: Lines that were ended in some way come through.
* `outputLines_eq_nil_iff`: When an output has no lines.
* `isOutput_outputLines`: Lines of an output are of that kind.
* `output_round_trip`: All of it.
-/

namespace AccelMonitor

namespace Shell

variable {line returns : List Char}

/-- The carriage returns behind a line that does not end in one are dropped, and no character of
    the line is. -/
theorem dropReturns_append (hline : ∀ c ∈ line.getLast?, c ≠ '\r')
    (hreturns : ∀ c ∈ returns, c = '\r') : dropReturns (line ++ returns) = line := by
  have hrun : ∀ c ∈ returns.reverse, (c == '\r') = true := by
    intro c hc
    rw [hreturns c (List.mem_reverse.mp hc)]
    rfl
  have hstop : line.reverse.dropWhile (· == '\r') = line.reverse := by
    cases hreverse : line.reverse with
    | nil => rfl
    | cons c rest =>
      have hc : (c == '\r') = false := by
        refine beq_eq_false_iff_ne.mpr (hline c ?_)
        rw [← List.head?_reverse, hreverse]
        rfl
      rw [List.dropWhile_cons, hc]
      rfl
  rw [dropReturns, List.reverse_append, List.dropWhile_append_of_pos hrun, hstop,
    List.reverse_reverse]

theorem dropReturns_eq_self (hline : ∀ c ∈ line.getLast?, c ≠ '\r') : dropReturns line = line := by
  have h := dropReturns_append hline (List.forall_mem_nil (· = '\r'))
  rwa [List.append_nil] at h

/-- What is left of a line is how it begins. -/
theorem dropReturns_begins (line : List Char) : dropReturns line <+: line := by
  rw [← List.reverse_suffix, dropReturns, List.reverse_reverse]
  exact List.dropWhile_suffix _

theorem getLast?_dropReturns (line : List Char) : ∀ c ∈ (dropReturns line).getLast?, c ≠ '\r' := by
  intro c hc
  have hlast := List.head?_dropWhile_not (· == '\r') line.reverse
  rw [dropReturns, List.getLast?_reverse, Option.mem_def] at hc
  rw [hc] at hlast
  exact beq_eq_false_iff_ne.mp hlast

/-- A line that begins with something else keeps its beginning when carriage returns are dropped. -/
theorem head?_dropReturns {c : Char} (hc : c ∈ line.head?) (hreturn : c ≠ '\r') :
    c ∈ (dropReturns line).head? := by
  rcases List.head?_eq_some_iff.mp hc with ⟨rest, hline⟩
  cases hkept : dropReturns line with
  | nil =>
    have hall := List.reverse_eq_nil_iff.mp hkept
    rw [List.dropWhile_eq_nil_iff] at hall
    have hfirst := hall c (by rw [hline, List.mem_reverse]; exact List.mem_cons_self ..)
    exact absurd (beq_iff_eq.mp hfirst) hreturn
  | cons d kept =>
    have hbegins := dropReturns_begins line
    rw [hkept, hline, List.cons_prefix_cons] at hbegins
    rw [hbegins.1]
    rfl

/-- What can be said of each line of an output. -/
structure IsLine (line : List Char) : Prop where
  unbroken : '\n' ∉ line
  ends : ∀ c ∈ line.getLast?, c ≠ '\r'

/-- Lines that can come out of an output. No line holds a line feed or ends with a return, and
    the text that they make up neither begins nor ends with a blank, since it was trimmed before
    it was split. -/
structure IsOutput (output : List String) : Prop where
  each : ∀ line ∈ output, IsLine line.toList
  /-- The text begins with a character that is not blank. -/
  first : ∃ line ∈ output.head?, ∃ c ∈ line.toList.head?, Text.isBlank c = false
  /-- It ends with one. -/
  last : ∃ line ∈ output.getLast?, ∃ c ∈ line.toList.getLast?, Text.isBlank c = false

/-- Lines that were ended by some carriage returns and a line break are told apart again. A line
    contains no line break, and it does not end in a carriage return, so nothing of it is taken
    for its end. -/
theorem pieces_join {lines : List (List Char)} (hne : lines ≠ [])
    (hlines : ∀ line ∈ lines, IsLine line) (hreturns : ∀ c ∈ returns, c = '\r') :
    (Text.pieces '\n' (Text.joinWith (returns ++ ['\n']) lines)).map dropReturns = lines := by
  have hbreak : '\n' ∉ returns := fun h => absurd (hreturns _ h) (by decide)
  induction lines with
  | nil => exact absurd rfl hne
  | cons line lines ih =>
    rw [List.forall_mem_cons] at hlines
    cases lines with
    | nil =>
      rw [Text.joinWith, Text.pieces_of_not_mem hlines.1.unbroken, List.map_singleton,
        dropReturns_eq_self hlines.1.ends]
    | cons next lines =>
      have hended : '\n' ∉ line ++ returns := by
        rw [List.mem_append, not_or]
        exact ⟨hlines.1.unbroken, hbreak⟩
      have hjoin : Text.joinWith (returns ++ ['\n']) (line :: next :: lines)
          = (line ++ returns) ++ '\n' :: Text.joinWith (returns ++ ['\n']) (next :: lines) := by
        rw [Text.joinWith]
        simp only [List.append_assoc, List.singleton_append]
      rw [hjoin, Text.pieces_append_cons hended, List.map_cons,
        dropReturns_append hlines.1.ends hreturns, ih (List.cons_ne_nil _ _) hlines.2]

/-- The text of an output has no blanks around it, whichever ending its lines have. Trimming
    leaves it alone for that reason, so lines that were read once come back as they are. -/
theorem IsOutput.isTrimmed {output : List String} (h : IsOutput output) (ending : List Char) :
    Text.IsTrimmed (Text.joinWith ending (output.map String.toList)) ∧
      Text.joinWith ending (output.map String.toList) ≠ [] := by
  have hhead : ∃ c, (Text.joinWith ending (output.map String.toList)).head? = some c ∧
      Text.isBlank c = false := by
    rcases h.first with ⟨line, hline, c, hc, hsolid⟩
    rcases List.head?_eq_some_iff.mp hline with ⟨rest, hrest⟩
    have hne : line.toList ≠ [] := fun hnil => by rw [hnil] at hc; cases hc
    refine ⟨c, ?_, hsolid⟩
    rw [hrest, List.map_cons, Text.head?_joinWith ending hne]
    exact hc
  -- The last line says the same of the end.
  have hlast : ∃ c, (Text.joinWith ending (output.map String.toList)).getLast? = some c ∧
      Text.isBlank c = false := by
    rcases h.last with ⟨line, hline, c, hc, hsolid⟩
    rcases List.getLast?_eq_some_iff.mp hline with ⟨front, hfront⟩
    have hne : line.toList ≠ [] := fun hnil => by rw [hnil] at hc; cases hc
    refine ⟨c, ?_, hsolid⟩
    rw [hfront, List.map_append, List.map_singleton, Text.getLast?_joinWith ending hne]
    exact hc
  rcases hhead with ⟨c, hc, hcsolid⟩
  rcases hlast with ⟨d, hd, hdsolid⟩
  refine ⟨⟨?_, ?_⟩, ?_⟩
  · rw [hc]
    exact fun e he => Option.some.inj he ▸ hcsolid
  · rw [hd]
    exact fun e he => Option.some.inj he ▸ hdsolid
  · intro hnil
    rw [hnil] at hc
    cases hc

/-- Lines that were ended in some way come through, whatever blanks follow. The blanks are trimmed
    off with the last line end, and the others are where the text is cut. -/
theorem linesOf_join {output : List String} (h : IsOutput output)
    (hreturns : ∀ c ∈ returns, c = '\r') {blanks : List Char}
    (hblanks : ∀ c ∈ blanks, Text.isBlank c = true) :
    linesOf (Text.joinWith (returns ++ ['\n']) (output.map String.toList) ++ blanks)
      = output.map String.toList := by
  rcases h.isTrimmed (returns ++ ['\n']) with ⟨htrimmed, hne⟩
  have hbody := Text.trimList_append (List.forall_mem_nil _) htrimmed hne hblanks
  rw [List.nil_append] at hbody
  -- Trimming leaves the joined lines, which are cut where they were joined.
  have houtput : output.map String.toList ≠ [] := by
    intro hnil
    rw [hnil] at hne
    exact hne rfl
  have hlines : ∀ line ∈ output.map String.toList, IsLine line :=
    List.forall_mem_map.mpr h.each
  rw [linesOf, hbody, if_neg (by rwa [List.isEmpty_iff])]
  exact pieces_join houtput hlines hreturns

theorem linesOf_of_ne_nil {text : List Char} (h : Text.trimList text ≠ []) :
    linesOf text = (Text.pieces '\n' (Text.trimList text)).map dropReturns := by
  rw [linesOf, if_neg (by rwa [List.isEmpty_iff])]

/-- An output has no lines exactly if it is blank. -/
theorem outputLines_eq_nil_iff {bytes : List UInt8} :
    outputLines bytes = [] ↔ ∀ c ∈ Text.decode bytes, Text.isBlank c = true := by
  rw [← Text.trimList_eq_nil_iff]
  constructor
  · intro hnil
    by_contra hbody
    rw [outputLines, linesOf_of_ne_nil hbody, List.map_eq_nil_iff, List.map_eq_nil_iff] at hnil
    exact Text.pieces_ne_nil _ _ hnil
  · exact outputLines_eq_nil

/-- What is no blank is no line break and no carriage return. -/
theorem ne_of_isBlank {c : Char} (hc : Text.isBlank c = false) : c ≠ '\n' ∧ c ≠ '\r' := by
  constructor
  · rintro rfl
    exact absurd hc (by decide)
  · rintro rfl
    exact absurd hc (by decide)

/-- Lines of an output are of the kind that comes through. Lines in between can be empty or
    begin with blanks. Only of the first and the last one more is known, since the text is
    trimmed before it is split. -/
theorem isOutput_outputLines {bytes : List UInt8} (hne : outputLines bytes ≠ []) :
    IsOutput (outputLines bytes) := by
  have hbody : Text.trimList (Text.decode bytes) ≠ [] := fun h => hne (outputLines_eq_nil h)
  have htrimmed := Text.isTrimmed_trimList (Text.decode bytes)
  rw [outputLines, linesOf_of_ne_nil hbody]
  -- Both ends of the text are solid, so they are no delimiters, and nothing is taken from them.
  generalize Text.trimList (Text.decode bytes) = body at hbody htrimmed
  have hfirst : ∃ c ∈ body.head?, Text.isBlank c = false := by
    rcases Option.ne_none_iff_exists'.mp (mt List.head?_eq_none_iff.mp hbody) with ⟨c, hc⟩
    exact ⟨c, hc, htrimmed.head c hc⟩
  have hlast : ∃ c ∈ body.getLast?, Text.isBlank c = false := by
    rcases Option.ne_none_iff_exists'.mp (mt List.getLast?_eq_none_iff.mp hbody) with ⟨c, hc⟩
    exact ⟨c, hc, htrimmed.last c hc⟩
  constructor
  -- A piece holds no line feed, and its last returns are dropped.
  · simp only [List.forall_mem_map, String.toList_ofList]
    intro p hp
    have hbreak := Text.not_mem_of_mem_pieces hp
    exact ⟨fun h => hbreak ((dropReturns_begins p).subset h), getLast?_dropReturns p⟩
  -- The first line begins with the text, and the last one ends with it.
  · rcases hfirst with ⟨c, hc, hsolid⟩
    rcases Text.exists_first_piece ⟨c, hc, (ne_of_isBlank hsolid).1⟩
      with ⟨p, rest, hpieces, hhead⟩
    rw [hpieces]
    refine ⟨_, rfl, c, ?_, hsolid⟩
    rw [String.toList_ofList]
    exact head?_dropReturns (hhead ▸ hc) (ne_of_isBlank hsolid).2
  · rcases hlast with ⟨c, hc, hsolid⟩
    rcases Text.exists_last_piece ⟨c, hc, (ne_of_isBlank hsolid).1⟩
      with ⟨front, p, hpieces, hend⟩
    have hkept : dropReturns p = p := by
      refine dropReturns_eq_self fun d hd => ?_
      rw [hend, Option.mem_def.mp hc] at hd
      rw [← Option.some.inj hd]
      exact (ne_of_isBlank hsolid).2
    rw [hpieces, List.map_append, List.map_append, List.map_singleton, List.map_singleton,
      List.getLast?_concat, hkept]
    refine ⟨_, rfl, c, ?_, hsolid⟩
    rw [String.toList_ofList, hend]
    exact hc

/-- Lines that were ended by line breaks, or by carriage returns and line breaks, come through
    whatever blanks follow. -/
theorem outputLines_join {output : List String} (h : IsOutput output) {ending blanks : String}
    (hending : ending = "\n" ∨ ending = "\r\n")
    (hblanks : ∀ c ∈ blanks.toList, Text.isBlank c = true) :
    outputLines (Text.join ending output ++ blanks).toUTF8.data.toList = output := by
  have hreturns : ∃ returns, (∀ c ∈ returns, c = '\r') ∧ ending.toList = returns ++ ['\n'] := by
    rcases hending with rfl | rfl
    · exact ⟨[], List.forall_mem_nil _, rfl⟩
    · exact ⟨['\r'], List.forall_mem_singleton.mpr rfl, rfl⟩
  rcases hreturns with ⟨returns, hreturns, hsplit⟩
  rw [outputLines, Text.decode_toUTF8, String.toList_append, Text.join, String.toList_ofList,
    hsplit, linesOf_join h hreturns hblanks, List.map_map]
  simp only [Function.comp_def, String.ofList_toList, List.map_id']

/-- Lines come through an output, and the lines of any output can be written and read again. -/
theorem output_round_trip :
    (∀ (output : List String) (ending blanks : String), IsOutput output →
      (ending = "\n" ∨ ending = "\r\n") → (∀ c ∈ blanks.toList, Text.isBlank c = true) →
        outputLines (Text.join ending output ++ blanks).toUTF8.data.toList = output) ∧
    ∀ bytes : List UInt8,
      (outputLines bytes = [] ↔ ∀ c ∈ Text.decode bytes, Text.isBlank c = true) ∧
      (outputLines bytes ≠ [] → IsOutput (outputLines bytes)) ∧
      outputLines (Text.join "\n" (outputLines bytes)).toUTF8.data.toList = outputLines bytes := by
  refine ⟨fun output ending blanks h => outputLines_join h, fun bytes => ?_⟩
  refine ⟨outputLines_eq_nil_iff, isOutput_outputLines, ?_⟩
  by_cases hnil : outputLines bytes = []
  · rw [hnil]
    rfl
  · have hagain : outputLines (Text.join "\n" (outputLines bytes) ++ "").toUTF8.data.toList
        = outputLines bytes :=
      outputLines_join (isOutput_outputLines hnil) (Or.inl rfl) (List.forall_mem_nil _)
    rwa [String.append_empty] at hagain

/-- Lines of which one is empty and one begins with a blank, and bytes that are no text. -/
theorem output_round_trip_blank :
    IsOutput ["a b", "", " c"] ∧
      outputLines (Text.join "\r\n" ["a b", "", " c"] ++ " \n").toUTF8.data.toList
        = ["a b", "", " c"] ∧
      outputLines [0x0a, 0xff, 0x0d, 0x0d, 0x0a, 0x41] ≠ [] ∧
      IsOutput (outputLines [0x0a, 0xff, 0x0d, 0x0d, 0x0a, 0x41]) := by
  have hlines : IsOutput ["a b", "", " c"] := by
    refine ⟨?_, ⟨_, rfl, 'a', rfl, by decide⟩, ⟨_, rfl, 'c', rfl, by decide⟩⟩
    intro line hline
    simp only [List.mem_cons, List.not_mem_nil, or_false] at hline
    rcases hline with rfl | rfl | rfl
    all_goals exact ⟨by decide, fun c hc hreturn => absurd (hreturn ▸ hc) (by decide)⟩
  have hsome : outputLines [0x0a, 0xff, 0x0d, 0x0d, 0x0a, 0x41] ≠ [] := by
    decide
  have hblanks : ∀ c ∈ " \n".toList, Text.isBlank c = true := List.all_eq_true.mp (by decide)
  exact ⟨hlines, output_round_trip.1 _ _ _ hlines (Or.inr rfl) hblanks, hsome,
    (output_round_trip.2 _).2.1 hsome⟩

end Shell

end AccelMonitor
