import AccelMonitor.Benchmark.Job
import AccelMonitor.Proofs.Number.Digits
import AccelMonitor.Proofs.Text.Splitting
import AccelMonitor.Proofs.Text.Words
import Mathlib.Data.List.Nodup
import Mathlib.Data.List.ProdSigma

/-!
# Rounds of the Neural Processing Tools

Which calls a job of rounds makes, and whose log it reads.

Every round starts as many calls as there are processes, and at least one. Each call has a
model of the list and a directory of its own, so the log that is read after the job is the
log of one call: the first of its round. The directories are told apart by two numbers that
are written without a width, and the second is left out where it is zero. They can still be
told apart because no digit stands behind the first number.

The commands are texts, and what a text says is what its words say. The names of models are
texts too, so a name could pass for a call or for a flag. Where no name does, the words of a
command name the tool once for each call and give each directory once.

## Main definitions

* `NetRunCall`: A call of the tool.
* `Job.roundText`: A round as it is written.
* `Job.NetRunPlan`: What a job of rounds does.

## Theorems

* `outputDirectory_inj`: The directory says the round and the process.
* `directories_nodup`: No two calls of a job share one.
* `words_roundText`: The words of a round.
* `inPlace_environment`: Where the commands are run.
* `netRun_planned`: There is a job exactly if there are models, and what it does.
-/

namespace AccelMonitor

/-- A call of the tool that runs models. -/
structure NetRunCall where
  /-- The model. -/
  container : String
  /-- The directory that the call writes into. -/
  directory : String

namespace NetRunCall

/-- The call as it is written. -/
def text (options : NetRunOptions) (call : NetRunCall) : String :=
  "snpe-net-run --container " ++ call.container ++ " --input_list input_list.txt --output_dir "
    ++ call.directory ++ " " ++ options.arguments

/-- The diagnostic log that the call leaves. -/
def log (call : NetRunCall) : String :=
  Models.netRunRoot ++ "/" ++ call.directory ++ "/SNPEDiag_0.log"

end NetRunCall

namespace Job

/-- A round as it is written: the calls in the background of one command. -/
def roundText (options : NetRunOptions) (round : List NetRunCall) : String :=
  netRunEnvironment ++ " && " ++ inBackground (round.map (NetRunCall.text options))

/-- What tells the directories of a round apart. -/
def processMark (process : Nat) : List Char :=
  if process = 0 then [] else '_' :: 'p' :: decimalDigits process

theorem toList_outputDirectory (round process : Nat) :
    (outputDirectory round process).toList
      = "output_".toList ++ (decimalDigits round ++ processMark process) := by
  have hround : (natText round).toList = decimalDigits round := String.toList_ofList
  have hprocess : (natText process).toList = decimalDigits process := String.toList_ofList
  rw [outputDirectory, processMark]
  split
  · rw [String.toList_append, hround, List.append_nil]
  · simp only [String.toList_append, hround, hprocess, List.append_assoc]
    rfl

theorem processMark_inj {p p' : Nat} (h : processMark p = processMark p') : p = p' := by
  rw [processMark, processMark] at h
  split at h
  · split at h
    · omega
    · cases h
  · split at h
    · cases h
    · exact decimalDigits_injective (List.cons.inj (List.cons.inj h).2).2

/-- No digit stands behind the number of the round. -/
theorem head_processMark (p : Nat) : ∀ c ∈ (processMark p).head?, Text.isDigit c = false := by
  rw [processMark]
  split
  · intro c hc
    cases hc
  · exact Text.head_char (by decide) _

/-- The directory says the round and the process. -/
theorem outputDirectory_inj {r r' p p' : Nat} (h : outputDirectory r p = outputDirectory r' p') :
    r = r' ∧ p = p' := by
  have htext := congrArg String.toList h
  rw [toList_outputDirectory, toList_outputDirectory] at htext
  rcases Text.split_run (fun c hc => isDigit_of_mem_decimalDigits hc)
    (fun c hc => isDigit_of_mem_decimalDigits hc) (head_processMark p) (head_processMark p')
    (List.append_cancel_left htext) with ⟨hround, hprocess⟩
  exact ⟨decimalDigits_injective hround, processMark_inj hprocess⟩

/-- A directory is one word: it is made of fixed letters, digits and a mark, and none of them is a
    blank. -/
theorem words_outputDirectory (r p : Nat) :
    Text.wordsList (outputDirectory r p).toList = [(outputDirectory r p).toList] := by
  have hdigit : ∀ n, ∀ c ∈ decimalDigits n, Text.isBlank c = false := fun n c hc =>
    Text.isBlank_of_isDecimal (Text.isDecimal_of_isDigit (isDigit_of_mem_decimalDigits hc))
  have hmark : ∀ c ∈ processMark p, Text.isBlank c = false := by
    rw [processMark]
    split
    · exact List.forall_mem_nil _
    · exact List.forall_mem_cons.mpr
        ⟨by decide, List.forall_mem_cons.mpr ⟨by decide, hdigit p⟩⟩
  have hfront : ("output_".toList.all fun c => !Text.isBlank c) = true := by
    decide
  refine Text.wordsList_solid ?_ ?_
  · rw [toList_outputDirectory]
    exact List.cons_ne_nil _ _
  · rw [toList_outputDirectory, List.forall_mem_append, List.forall_mem_append]
    exact ⟨fun c hc => (Bool.not_eq_true' _).mp (List.all_eq_true.mp hfront c hc), hdigit r,
      hmark⟩

/-- The calls of a round, made of the models of its processes. -/
def callsOf (round : Nat) (containers : List String) : List NetRunCall :=
  containers.zipIdx.map fun c => ⟨c.1, outputDirectory round c.2⟩

theorem directories_callsOf (round : Nat) (containers : List String) :
    (callsOf round containers).map NetRunCall.directory
      = (List.range containers.length).map (outputDirectory round) := by
  have hsnd : containers.zipIdx.map Prod.snd = List.range containers.length := by
    rw [List.zipIdx_map_snd, List.range_eq_range']
  rw [callsOf, List.map_map, ← hsnd, List.map_map]
  rfl

theorem containers_callsOf (round : Nat) (containers : List String) :
    (callsOf round containers).map NetRunCall.container = containers := by
  rw [callsOf, List.map_map]
  exact List.zipIdx_map_fst 0 containers

theorem roundText_callsOf (models : List String) (options : NetRunOptions) (processes : Nat)
    (choice : Choice) (round : Nat) :
    netRunRound models options processes choice round
      = roundText options
        (callsOf round (picks choice models (round * max processes 1) processes)) := by
  rw [netRunRound, roundText, callsOf, List.map_map]
  rfl

/-- The calls of all rounds, made of the models of each. -/
def roundsOf (containers : Nat → List String) (runs : Nat) : List (List NetRunCall) :=
  (List.range runs).map fun r => callsOf r (containers r)

section Calls

variable {containers : Nat → List String} {runs : Nat} {round : List NetRunCall}
  {call : NetRunCall}

theorem getElem?_roundsOf {r : Nat} (hr : r < runs) :
    (roundsOf containers runs)[r]? = some (callsOf r (containers r)) := by
  rw [roundsOf, List.getElem?_map, List.getElem?_range hr]
  rfl

theorem getElem?_callsOf (round : Nat) (containers : List String) (p : Nat) :
    (callsOf round containers)[p]?
      = containers[p]?.map fun m => ⟨m, outputDirectory round p⟩ := by
  rw [callsOf, List.getElem?_map, List.getElem?_zipIdx, Option.map_map, Nat.zero_add]
  rfl

/-- The directory of a call says where in the job it stands. -/
theorem directory_of_getElem? {r p : Nat}
    (h : ((roundsOf containers runs)[r]?.bind fun round => round[p]?) = some call) :
    call.directory = outputDirectory r p := by
  rcases Option.bind_eq_some_iff.mp h with ⟨round, hround, hcall⟩
  have hr : r < runs := by
    have hlength := (List.getElem?_eq_some_iff.mp hround).1
    rwa [roundsOf, List.length_map, List.length_range] at hlength
  rw [getElem?_roundsOf hr, Option.some.injEq] at hround
  rw [← hround, getElem?_callsOf] at hcall
  rcases Option.map_eq_some_iff.mp hcall with ⟨m, _, rfl⟩
  rfl

theorem exists_of_mem_roundsOf (h : round ∈ roundsOf containers runs) :
    ∃ r, round = callsOf r (containers r) := by
  rcases List.mem_map.mp h with ⟨r, _, rfl⟩
  exact ⟨r, rfl⟩

theorem exists_directory (hround : round ∈ roundsOf containers runs) (hcall : call ∈ round) :
    ∃ r p, call.directory = outputDirectory r p := by
  rcases exists_of_mem_roundsOf hround with ⟨r, rfl⟩
  rcases List.mem_map.mp hcall with ⟨c, _, rfl⟩
  exact ⟨r, c.2, rfl⟩

theorem exists_container (hround : round ∈ roundsOf containers runs) (hcall : call ∈ round) :
    ∃ r, call.container ∈ containers r := by
  rcases exists_of_mem_roundsOf hround with ⟨r, rfl⟩
  refine ⟨r, ?_⟩
  rw [← containers_callsOf r (containers r)]
  exact List.mem_map_of_mem hcall

theorem length_of_mem_roundsOf {processes : Nat}
    (hlength : ∀ r, (containers r).length = processes)
    (hround : round ∈ roundsOf containers runs) : round.length = processes := by
  rcases exists_of_mem_roundsOf hround with ⟨r, rfl⟩
  rw [callsOf, List.length_map, List.length_zipIdx, hlength]

/-- No two calls of a job share a directory. The name of a directory determines the round and the
    place in it, so no output overwrites another. -/
theorem directories_nodup {processes : Nat} (hlength : ∀ r, (containers r).length = processes)
    (runs : Nat) : ((roundsOf containers runs).flatten.map NetRunCall.directory).Nodup := by
  have hpairs : (roundsOf containers runs).flatten.map NetRunCall.directory
      = (List.range runs ×ˢ List.range processes).map fun e => outputDirectory e.1 e.2 := by
    change _ = ((List.range runs).flatMap fun r => (List.range processes).map (Prod.mk r)).map _
    rw [roundsOf, List.map_flatten, List.map_map, ← List.flatMap_def, List.map_flatMap]
    congr 1
    funext r
    rw [Function.comp_apply, directories_callsOf, hlength, List.map_map]
    rfl
  -- So it is enough that the directory says both numbers.
  rw [hpairs]
  refine List.Nodup.map ?_ (List.Nodup.product List.nodup_range List.nodup_range)
  intro e e' h
  exact Prod.ext (outputDirectory_inj h).1 (outputDirectory_inj h).2

end Calls

/-- The words of some commands in the background: those of each command with the sign that puts it
    there, and one word to wait for all of them. -/
theorem words_inBackground (commands : List String) :
    Text.words (inBackground commands)
      = (commands.flatMap fun c => Text.words c ++ ["&"]) ++ ["wait"] := by
  -- By induction on the commands, with any rest behind them.
  have hwords : ∀ rest, Text.wordsList ((commands.flatMap fun c => (c ++ " & ").toList) ++ rest)
      = (commands.flatMap fun c => Text.wordsList c.toList ++ [['&']]) ++ Text.wordsList rest := by
    intro rest
    induction commands with
    | nil => rfl
    | cons c commands ih =>
      have hfirst : (c ++ " & ").toList ++ ((commands.flatMap fun c => (c ++ " & ").toList) ++ rest)
          = c.toList ++ ' ' :: (['&'] ++ ' ' ::
            ((commands.flatMap fun c => (c ++ " & ").toList) ++ rest)) := by
        rw [String.toList_append, List.append_assoc]
        rfl
      rw [List.flatMap_cons, List.append_assoc, hfirst, Text.wordsList_append (by decide),
        Text.wordsList_append (by decide), ih, List.flatMap_cons]
      simp only [List.append_assoc]
      rfl
  rw [Text.words, inBackground, String.toList_ofList, hwords, List.map_append, List.map_flatMap]
  simp only [List.map_append]
  rfl

/-- The words of a call: the program, the container, the fixed list of inputs, the directory and
    the options of the round. -/
theorem words_text (options : NetRunOptions) (call : NetRunCall) :
    Text.words (call.text options)
      = ["snpe-net-run", "--container"] ++ (Text.words call.container
        ++ (["--input_list", "input_list.txt", "--output_dir"]
        ++ (Text.words call.directory ++ Text.words options.arguments))) := by
  have htext : (call.text options).toList = "snpe-net-run --container".toList ++ ' ' ::
      (call.container.toList ++ ' ' ::
      ("--input_list input_list.txt --output_dir".toList ++ ' ' ::
      (call.directory.toList ++ ' ' :: options.arguments.toList))) := by
    have hspaces : ∀ a b : List Char, "snpe-net-run --container ".toList
        ++ (a ++ (" --input_list input_list.txt --output_dir ".toList ++ b))
        = "snpe-net-run --container".toList ++ ' ' ::
          (a ++ ' ' :: ("--input_list input_list.txt --output_dir".toList ++ ' ' :: b)) := by
      simp only [String.reduceToList, List.cons_append, List.nil_append, implies_true]
    unfold NetRunCall.text
    simp only [String.toList_append, List.append_assoc]
    exact hspaces _ _
  have hfront : Text.words "snpe-net-run --container" = ["snpe-net-run", "--container"] := by
    decide
  have hmiddle : Text.words "--input_list input_list.txt --output_dir"
      = ["--input_list", "input_list.txt", "--output_dir"] := by
    decide
  rw [Text.words, htext, Text.wordsList_append (by decide), Text.wordsList_append (by decide),
    Text.wordsList_append (by decide), Text.wordsList_append (by decide)]
  simp only [List.map_append, ← hfront, ← hmiddle, Text.words]

/-- The words of a round. -/
theorem words_roundText (options : NetRunOptions) (round : List NetRunCall) :
    Text.words (roundText options round)
      = Text.words netRunEnvironment ++ ("&&" :: ((round.flatMap fun call =>
        Text.words (call.text options) ++ ["&"]) ++ ["wait"])) := by
  have htext : (roundText options round).toList = netRunEnvironment.toList ++ ' ' ::
      (['&', '&'] ++ ' ' :: (inBackground (round.map (NetRunCall.text options))).toList) := by
    simp only [roundText, String.toList_append, List.append_assoc]
    rfl
  have hcalls := words_inBackground (round.map (NetRunCall.text options))
  rw [List.flatMap_map, Text.words] at hcalls
  rw [Text.words, htext, Text.wordsList_append (by decide), Text.wordsList_append (by decide),
    List.map_append, List.map_append, hcalls]
  rfl

/-- The name cannot be taken for a call of the tool or for the flag of a directory. -/
def Foreign (name : String) : Prop :=
  "snpe-net-run" ∉ Text.words name ∧ "--output_dir" ∉ Text.words name

/-- Nothing in the environment is a call or a flag: there is no hyphen in it. -/
theorem foreign_environment : Foreign netRunEnvironment := by
  have hhyphen : '-' ∉ netRunEnvironment.toList := by
    unfold netRunEnvironment Models.netRunRoot
    simp only [String.toList_append, List.mem_append]
    decide
  constructor
  · exact fun h => hhyphen (Text.mem_of_mem_words h (by decide))
  · exact fun h => hhyphen (Text.mem_of_mem_words h (by decide))

theorem foreign_arguments (options : NetRunOptions) : Foreign options.arguments := by
  have hparts : ∀ part ∈ ["--perf_profile high_performance", "--profiling_level detailed"]
      ++ NetRunOptions.delegateFlags options.delegate
      ++ (if options.cpuFallback then ["--enable_cpu_fallback"] else []),
      part ∈ ["--perf_profile high_performance", "--profiling_level detailed", "--use_dsp",
        "--use_gpu", "--enable_cpu_fallback"] := by
    rcases options with ⟨delegate, fallback⟩
    cases delegate <;> cases fallback <;> decide
  have hforeign : ∀ part ∈ ["--perf_profile high_performance", "--profiling_level detailed",
      "--use_dsp", "--use_gpu", "--enable_cpu_fallback"],
      "snpe-net-run" ∉ Text.words part ∧ "--output_dir" ∉ Text.words part := by
    decide
  rw [Foreign, NetRunOptions.arguments, Text.words_join]
  simp only [List.mem_flatMap, not_exists, not_and]
  exact ⟨fun part hpart => (hforeign part (hparts part hpart)).1,
    fun part hpart => (hforeign part (hparts part hpart)).2⟩

/-- A directory is a single word, which is neither the program nor the flag, as it begins
    differently. -/
theorem foreign_directory (r p : Nat) :
    Text.words (outputDirectory r p) = [outputDirectory r p] ∧
      Foreign (outputDirectory r p) := by
  have hwords : Text.words (outputDirectory r p) = [outputDirectory r p] := by
    rw [Text.words, words_outputDirectory, List.map_singleton, String.ofList_toList]
  have hfirst : (outputDirectory r p).toList.head? = some 'o' := by
    rw [toList_outputDirectory]
    rfl
  have hother : ∀ word : String, word.toList.head? ≠ some 'o' → word ∉ [outputDirectory r p] := by
    intro word hword hmem
    rw [List.mem_singleton.mp hmem] at hword
    exact hword hfirst
  refine ⟨hwords, ?_⟩
  rw [Foreign, hwords]
  exact ⟨hother _ (by decide), hother _ (by decide)⟩

variable {options : NetRunOptions} {call : NetRunCall} {round : List NetRunCall}

/-- A call names its directory once. Its other words are not the flag: the fixed ones and those of
    the options differ from it, the container does by assumption, and a directory has another
    beginning. -/
theorem valuesOf_text (hcontainer : Foreign call.container)
    (hdirectory : ∃ r p, call.directory = outputDirectory r p) (rest : List String) :
    Text.valuesOf "--output_dir" (Text.words (call.text options) ++ rest)
      = call.directory :: Text.valuesOf "--output_dir" rest := by
  rcases hdirectory with ⟨r, p, hdirectory⟩
  have hword := foreign_directory r p
  rw [← hdirectory] at hword
  have hwords : Text.words (call.text options) ++ rest
      = (["snpe-net-run", "--container"] ++ (Text.words call.container
        ++ ["--input_list", "input_list.txt"])) ++ "--output_dir" :: call.directory ::
        (Text.words options.arguments ++ rest) := by
    rw [words_text, hword.1]
    simp only [List.append_assoc, List.cons_append, List.nil_append]
  have hfront : "--output_dir" ∉ ["snpe-net-run", "--container"] ++ (Text.words call.container
      ++ ["--input_list", "input_list.txt"]) := by
    rw [List.mem_append, List.mem_append, not_or, not_or]
    exact ⟨by decide, hcontainer.2, by decide⟩
  have hback : "--output_dir" ∉ Text.words call.directory ++ Text.words options.arguments := by
    rw [List.mem_append, not_or]
    exact ⟨hword.2.2, (foreign_arguments options).2⟩
  -- The value is itself a word that could be the flag, but is not.
  have hskip := Text.valuesOf_skip hback rest
  rw [hword.1, List.append_assoc, List.singleton_append] at hskip
  rw [hwords, Text.valuesOf_skip hfront, Text.valuesOf_flag, hskip]

/-- A call names the tool once. -/
theorem count_text (hcontainer : Foreign call.container)
    (hdirectory : ∃ r p, call.directory = outputDirectory r p) :
    (Text.words (call.text options)).count "snpe-net-run" = 1 := by
  rcases hdirectory with ⟨r, p, hdirectory⟩
  have hword := (foreign_directory r p).2.1
  rw [← hdirectory] at hword
  simp only [words_text, List.count_append, List.count_eq_zero_of_not_mem hcontainer.1,
    List.count_eq_zero_of_not_mem hword,
    List.count_eq_zero_of_not_mem (foreign_arguments options).1]
  decide

theorem valuesOf_calls (hcontainers : ∀ call ∈ round, Foreign call.container)
    (hdirectories : ∀ call ∈ round, ∃ r p, call.directory = outputDirectory r p) :
    Text.valuesOf "--output_dir"
        ((round.flatMap fun call => Text.words (call.text options) ++ ["&"]) ++ ["wait"])
      = round.map NetRunCall.directory := by
  induction round with
  | nil => rfl
  | cons call round ih =>
    rw [List.forall_mem_cons] at hcontainers hdirectories
    have hmark : ∀ rest, Text.valuesOf "--output_dir" (["&"] ++ rest)
        = Text.valuesOf "--output_dir" rest := Text.valuesOf_skip (by decide)
    rw [List.flatMap_cons, List.append_assoc, List.append_assoc,
      valuesOf_text hcontainers.1 hdirectories.1, hmark, ih hcontainers.2 hdirectories.2,
      List.map_cons]

/-- Each call of a round names the program once, and what puts it into the background does not. -/
theorem count_calls (hcontainers : ∀ call ∈ round, Foreign call.container)
    (hdirectories : ∀ call ∈ round, ∃ r p, call.directory = outputDirectory r p) :
    (round.flatMap fun call => Text.words (call.text options) ++ ["&"]).count "snpe-net-run"
      = round.length := by
  induction round with
  | nil => rfl
  | cons call round ih =>
    rw [List.forall_mem_cons] at hcontainers hdirectories
    have hmark : (["&"] : List String).count "snpe-net-run" = 0 := by
      decide
    rw [List.flatMap_cons, List.count_append, List.count_append,
      count_text hcontainers.1 hdirectories.1, hmark, ih hcontainers.2 hdirectories.2,
      List.length_cons]
    omega

/-- A round names each of its directories once. -/
theorem valuesOf_roundText (hcontainers : ∀ call ∈ round, Foreign call.container)
    (hdirectories : ∀ call ∈ round, ∃ r p, call.directory = outputDirectory r p) :
    Text.valuesOf "--output_dir" (Text.words (roundText options round))
      = round.map NetRunCall.directory := by
  have hfront : "--output_dir" ∉ Text.words netRunEnvironment ++ ["&&"] := by
    rw [List.mem_append, not_or]
    exact ⟨foreign_environment.2, by decide⟩
  have hskip := Text.valuesOf_skip hfront
  simp only [List.append_assoc, List.singleton_append] at hskip
  rw [words_roundText, hskip, valuesOf_calls hcontainers hdirectories]

/-- A round names the tool once for each call. -/
theorem count_roundText (hcontainers : ∀ call ∈ round, Foreign call.container)
    (hdirectories : ∀ call ∈ round, ∃ r p, call.directory = outputDirectory r p) :
    (Text.words (roundText options round)).count "snpe-net-run" = round.length := by
  have hlast : (["wait"] : List String).count "snpe-net-run" = 0 := by
    decide
  rw [words_roundText, List.count_append, List.count_eq_zero_of_not_mem foreign_environment.1,
    List.count_cons_of_ne (by decide), List.count_append, count_calls hcontainers hdirectories,
    hlast, Nat.zero_add, Nat.add_zero]

/-- The command is run in the directory of the tools. The directories that it names are taken
    from there. -/
def InPlace (command : String) : Prop :=
  ("cd " ++ Models.netRunRoot ++ " && ").toList <+: command.toList

/-- Whatever is run in the environment is run in the directory of the tools. -/
theorem inPlace_environment (rest : String) : InPlace (netRunEnvironment ++ rest) := by
  have hsplit : " && export LD_LIBRARY_PATH=".toList
      = " && ".toList ++ "export LD_LIBRARY_PATH=".toList := by
    decide
  rw [InPlace]
  unfold netRunEnvironment
  simp only [String.toList_append, hsplit, List.append_assoc, List.prefix_append_right_inj]
  exact List.prefix_append ..

/-- What a job of rounds does, in terms of the calls of each round. The job itself is a list of
    texts for a shell. The calls are what these texts say, and every clause either makes a text
    out of calls or reads the calls back out of it. -/
structure NetRunPlan (models : List String) (options : NetRunOptions) (processes runs : Nat)
    (job : Job) (rounds : List (List NetRunCall)) : Prop where
  framework : job.framework = .snpe
  endSign : job.endSign = none
  length : rounds.length = max runs 1
  /-- Each round is one command. -/
  run : job.run = rounds.map (roundText options)
  calls : ∀ round ∈ rounds, round.length = max processes 1
  containers : ∀ call ∈ rounds.flatten, call.container ∈ models
  /-- No two calls share a directory. -/
  directories : (rounds.flatten.map NetRunCall.directory).Nodup
  /-- What a round is in the words of its command, unless a model's name says something else. -/
  words : (∀ m ∈ models, Foreign m) → ∀ round ∈ rounds,
    (Text.words (roundText options round)).count "snpe-net-run" = max processes 1 ∧
      Text.valuesOf "--output_dir" (Text.words (roundText options round))
        = round.map NetRunCall.directory
  /-- Every command goes to the directory of the tools first. A call names the directory that
      it writes into from there, and its log is looked for there. -/
  inPlace : ∀ command ∈ job.run ++ job.report, InPlace command
  reports : job.report.length = max runs 1
  /-- After the rounds the log of the first call of each is read, and it is the log of no other
      call of the job. -/
  report : ∀ r < max runs 1, ∃ round first, rounds[r]? = some round ∧ round[0]? = some first ∧
    job.report[r]? = some (netRunEnvironment ++ " && snpe-diagview --input_log " ++ first.log) ∧
    ∀ r' p' other, (rounds[r']?.bind fun round => round[p']?) = some other →
      other.log = first.log → r' = r ∧ p' = 0

theorem log_inj {call call' : NetRunCall} (h : call.log = call'.log) :
    call.directory = call'.directory := by
  have htext := congrArg String.toList h
  unfold NetRunCall.log at htext
  simp only [String.toList_append, List.append_assoc] at htext
  exact String.toList_inj.mp
    (List.append_cancel_right (List.append_cancel_left (List.append_cancel_left htext)))

/-- The command after a round reads the log of its first call. -/
theorem netRunReport_eq (container : String) (round : Nat) :
    netRunReport round = netRunEnvironment ++ " && snpe-diagview --input_log "
      ++ (NetRunCall.mk container (outputDirectory round 0)).log := by
  unfold netRunReport NetRunCall.log
  simp only [String.append_assoc]

/-- Every model that is picked is one of the list. -/
theorem mem_of_mem_picks {choice : Choice} {models : List String} {first processes : Nat}
    {m : String} (h : m ∈ picks choice models first processes) : m ∈ models := by
  rcases List.mem_filterMap.mp h with ⟨p, _, hpick⟩
  exact List.mem_of_getElem? hpick

/-- The job of some models follows the plan. Its commands are texts that were joined from
    pieces, so the plan names the calls that the texts stand for, round by round, and the
    clauses read the texts back: how many calls are in them, which directories they write to,
    and which log the report is taken from. -/
theorem netRunPlan_netRun {models : List String} (h : models ≠ []) (options : NetRunOptions)
    (processes runs : Nat) (choice : Choice) :
    ∃ job rounds, netRun models options processes runs choice = .ok job ∧
      NetRunPlan models options processes runs job rounds := by
  -- The picks of a round begin where those of the rounds before it end.
  let containers := fun r => picks choice models (r * max processes 1) processes
  have hlength : ∀ r, (containers r).length = max processes 1 := fun r => picks_length h ..
  -- Whatever is picked is a model.
  have hmodels : ∀ round ∈ roundsOf containers (max runs 1), ∀ call ∈ round,
      call.container ∈ models := by
    intro round hround call hcall
    rcases exists_container hround hcall with ⟨r, hr⟩
    exact mem_of_mem_picks hr
  refine ⟨_, roundsOf containers (max runs 1), by rw [netRun, if_neg h], ?_⟩
  constructor
  case framework => rfl
  case endSign => rfl
  case length => rw [roundsOf, List.length_map, List.length_range]
  case run =>
    rw [roundsOf, List.map_map]
    exact List.map_congr_left fun r _ => roundText_callsOf models options processes choice r
  case calls => exact fun round hround => length_of_mem_roundsOf hlength hround
  case containers =>
    intro call hcall
    rcases List.mem_flatten.mp hcall with ⟨round, hround, hmem⟩
    exact hmodels round hround call hmem
  case directories => exact directories_nodup hlength _
  case words =>
    intro hforeign round hround
    have hnames : ∀ call ∈ round, Foreign call.container :=
      fun call hcall => hforeign _ (hmodels round hround call hcall)
    have hdirectories : ∀ call ∈ round, ∃ r p, call.directory = outputDirectory r p :=
      fun call hcall => exists_directory hround hcall
    -- Neither models nor directories hold the words that are counted, so each call gives one.
    rw [count_roundText hnames hdirectories, length_of_mem_roundsOf hlength hround,
      valuesOf_roundText hnames hdirectories]
    exact ⟨rfl, rfl⟩
  case inPlace =>
    intro command hcommand
    rcases List.mem_append.mp hcommand with hcommand | hcommand
    · rcases List.mem_map.mp hcommand with ⟨r, _, rfl⟩
      rw [netRunRound, String.append_assoc]
      -- The environment begins with the change of directory.
      exact inPlace_environment _
    · rcases List.mem_map.mp hcommand with ⟨r, _, rfl⟩
      unfold netRunReport
      simp only [String.append_assoc]
      exact inPlace_environment _
  case reports => rw [List.length_map, List.length_range]
  case report =>
    intro r hr
    have hfirst : ∃ m, (containers r)[0]? = some m :=
      ⟨_, List.getElem?_eq_getElem (by rw [hlength]; omega)⟩
    rcases hfirst with ⟨m, hm⟩
    refine ⟨_, ⟨m, outputDirectory r 0⟩, getElem?_roundsOf hr, ?_, ?_, ?_⟩
    · rw [getElem?_callsOf, hm]
      rfl
    · rw [List.getElem?_map, List.getElem?_range hr, Option.map_some, netRunReport_eq m]
    -- Directories of different calls differ, so the log of the first one is of no other call.
    · intro r' p' other hother hlog
      exact outputDirectory_inj ((directory_of_getElem? hother).symm.trans (log_inj hlog))

/-- There is a job of rounds exactly if there is a model, and it follows the plan: every round
    starts as many calls as there are processes, each on a model of the list and with a
    directory of its own, and the log of its first call is read. All of this happens in the
    directory of the tools. -/
theorem netRun_planned (models : List String) (options : NetRunOptions) (processes runs : Nat)
    (choice : Choice) :
    (models ≠ [] → ∃ job rounds, netRun models options processes runs choice = .ok job ∧
      NetRunPlan models options processes runs job rounds) ∧
    ∀ failure, netRun models options processes runs choice = .error failure ↔
      models = [] ∧ failure = .noModels .snpe := by
  refine ⟨fun h => netRunPlan_netRun h options processes runs choice, fun failure => ?_⟩
  by_cases hnil : models = []
  · rw [netRun, if_pos hnil, Except.error.injEq]
    exact ⟨fun h => ⟨hnil, h.symm⟩, fun h => h.2.symm⟩
  · rw [netRun, if_neg hnil]
    exact ⟨fun h => (nomatch h), fun h => absurd h.1 hnil⟩

/-- Two rounds of two calls each, on a model whose name is foreign. -/
theorem netRun_planned_twice :
    ["inception_v3.dlc"] ≠ [] ∧ (∀ m ∈ ["inception_v3.dlc"], Foreign m) ∧
      ∃ job rounds, netRun ["inception_v3.dlc"] ⟨.hexagon, false⟩ 2 2 (fun _ n => n) = .ok job ∧
        NetRunPlan ["inception_v3.dlc"] ⟨.hexagon, false⟩ 2 2 job rounds ∧
        ∀ round ∈ rounds,
          (Text.words (roundText ⟨.hexagon, false⟩ round)).count "snpe-net-run" = 2 := by
  have hforeign : ∀ m ∈ ["inception_v3.dlc"], Foreign m := by
    unfold Foreign
    decide
  rcases (netRun_planned ["inception_v3.dlc"] ⟨.hexagon, false⟩ 2 2 fun _ n => n).1 (by decide)
    with ⟨job, rounds, hjob, hplan⟩
  exact ⟨by decide, hforeign, job, rounds, hjob, hplan,
    fun round hround => (hplan.words hforeign round hround).1⟩

end Job

end AccelMonitor
