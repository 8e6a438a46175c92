import AccelMonitor.Benchmark.Options
import AccelMonitor.Proofs.Number.Digits
import AccelMonitor.Proofs.Text.Pieces
import Mathlib.Data.List.TakeDrop
import Mathlib.Logic.Function.Basic

/-!
# Reading a Command Line Back

The arguments of the benchmark tool say all of its options.

The arguments are apart because none of them holds a space, and a flag is apart from its
value because no flag holds an equals sign. Either part may be empty, and the name of the
accelerator is empty for most delegates. So the flags can be read back from the text, each
with its value, and the options from the flags. Numbers and truth values stand for
themselves. The delegate has to be put together from four flags: one flag each for two of the
delegates, one for all those that go through the neural network interface, of which the
accelerator's name says which one it is, and if all three flags are off it is the processor.

Since the options can be read back, different options have different command lines.

## Main definitions

* `ToolOptions.readFlags?`: The flags and values of a text.
* `ToolOptions.ofArguments?`: The options that a text says.
* `ToolOptions.isOn`: A flag is there and is true.

## Theorems

* `readFlag?_flagText`, `readFlags?_arguments`: The flags are read as they were written.
* `readNat?_natText`, `readBool?_boolText`, `readPreference?_optionValue`,
  `readDelegate?_flags`: So is each kind of value.
* `ofArguments?_arguments`: The options are read back.
* `arguments_decodable`: This, and what the flags look like.
-/

namespace AccelMonitor

namespace ToolOptions

/-- The flag and the value of an argument, which stand before and behind its first equals
    sign. -/
def readFlag? : List Char → Option (String × String)
  | '-' :: '-' :: s =>
    match s.span (· != '=') with
    | (flag, _ :: value) => some (String.ofList flag, String.ofList value)
    | (_, []) => none
  | _ => none

/-- The flags and values of a text, if it is made of arguments with spaces between them. -/
def readFlags? (text : String) : Option (List (String × String)) :=
  (Text.pieces ' ' text.toList).mapM readFlag?

/-- The number that a text of digits writes. -/
def readNat? (text : String) : Option Nat :=
  if text.toList ≠ [] ∧ text.toList.all Text.isDigit then some (Text.digitsValue text.toList)
  else none

/-- The truth value of a text. -/
def readBool? (text : String) : Option Bool :=
  [true, false].find? fun b => boolText b == text

/-- The preference of a value. -/
def readPreference? (text : String) : Option Preference :=
  Preference.all.find? fun p => p.optionValue == text

/-- The delegate that some flags stand for. At most one of the three flags can be set, and the
    name of the accelerator counts only if the neural network interface is used. -/
def readDelegate? (gpu hexagon indirect : Bool) (accelerator : String) : Option Delegate :=
  match gpu, hexagon, indirect with
  | true, false, false => some .gpu
  | false, true, false => some .hexagon
  | false, false, true =>
    Delegate.all.find? fun d => d.isIndirect && d.acceleratorName == accelerator
  | false, false, false => some .cpu
  | _, _, _ => none

/-- The options that some flags say. One of the flags is not needed for it, since it follows
    from the others, and two are the same for all options. -/
def ofFlags? (flags : List (String × String)) : Option ToolOptions := do
  let threads ← flags.lookup "num_threads" >>= readNat?
  let warmupRuns ← flags.lookup "warmup_runs" >>= readNat?
  let runs ← flags.lookup "num_runs" >>= readNat?
  let gpu ← flags.lookup "use_gpu" >>= readBool?
  let hexagon ← flags.lookup "use_hexagon" >>= readBool?
  let indirect ← flags.lookup "use_nnapi" >>= readBool?
  let accelerator ← flags.lookup "nnapi_accelerator_name"
  let delegate ← readDelegate? gpu hexagon indirect accelerator
  let delegated ← flags.lookup "require_full_delegation" >>= readBool?
  let timeDriver ← flags.lookup "time_driver" >>= readBool?
  let preference ← flags.lookup "nnapi_execution_preference" >>= readPreference?
  return { threads, warmupRuns, runs, delegate, cpuFallback := !delegated, timeDriver, preference }

/-- The options that a text says. -/
def ofArguments? (text : String) : Option ToolOptions :=
  readFlags? text >>= ofFlags?

/-- The flag is there and is true. -/
def isOn (flags : List (String × String)) (flag : String) : Bool :=
  flags.lookup flag == some "true"

theorem readNat?_natText (n : Nat) : readNat? (natText n) = some n := by
  have hdigits : (decimalDigits n).all Text.isDigit = true :=
    List.all_eq_true.mpr fun c hc => isDigit_of_mem_decimalDigits hc
  rw [readNat?, natText, String.toList_ofList, if_pos ⟨decimalDigits_ne_nil n, hdigits⟩,
    digitsValue_decimalDigits]

theorem readBool?_boolText (b : Bool) : readBool? (boolText b) = some b := by
  cases b <;> decide

theorem readPreference?_optionValue (p : Preference) :
    readPreference? p.optionValue = some p := by
  cases p <;> decide

/-- The delegate is read from the four flags that it is spread over. -/
theorem readDelegate?_flags (d : Delegate) :
    readDelegate? (d = .gpu) (d = .hexagon) d.isIndirect d.acceleratorName = some d := by
  cases d <;> decide

/-- A flag without an equals sign is read as it was written, whatever its value is. -/
theorem readFlag?_flagText {f : String × String} (h : '=' ∉ f.1.toList) :
    readFlag? (flagText f).toList = some f := by
  have htext : (flagText f).toList = '-' :: '-' :: (f.1.toList ++ '=' :: f.2.toList) := by
    simp only [flagText, String.toList_append, List.append_assoc]
    rfl
  have hname : ∀ c ∈ f.1.toList, (c != '=') = true :=
    fun c hc => bne_iff_ne.mpr fun heq => h (heq ▸ hc)
  -- The first equals sign is the one behind the name.
  have hspan : (f.1.toList ++ '=' :: f.2.toList).span (· != '=')
      = (f.1.toList, '=' :: f.2.toList) := by
    rw [List.span_eq_takeWhile_dropWhile, List.takeWhile_append_of_pos hname,
      List.dropWhile_append_of_pos hname, List.takeWhile_cons_of_neg (by decide),
      List.dropWhile_cons_of_neg (by decide), List.append_nil]
  rw [htext, readFlag?, hspan]
  simp only [String.ofList_toList]

/-- The names of the flags, which are the same for all options. -/
def flagNames : List String :=
  ["disable_nnapi_cpu", "enable_op_profiling", "hexagon_profiling", "nnapi_accelerator_name",
    "nnapi_execution_preference", "num_runs", "num_threads", "require_full_delegation",
    "time_driver", "use_gpu", "use_hexagon", "use_nnapi", "warmup_runs"]

theorem names_flags (o : ToolOptions) : o.flags.map Prod.fst = flagNames := rfl

/-- Names of flags hold neither spaces nor equals signs. -/
theorem plain_of_mem_names {o : ToolOptions} {f : String × String} (hf : f ∈ o.flags) :
    ' ' ∉ f.1.toList ∧ '=' ∉ f.1.toList := by
  have hnames : ∀ name ∈ flagNames, ' ' ∉ name.toList ∧ '=' ∉ name.toList := by
    decide
  exact hnames f.1 (names_flags o ▸ List.mem_map_of_mem hf)

/-- Values of flags hold no spaces, so an argument can be cut at its only equals sign and the
    arguments at the spaces between them. It is shown once for each kind of value. -/
theorem plain_of_mem_values {o : ToolOptions} {f : String × String} (hf : f ∈ o.flags) :
    ' ' ∉ f.2.toList := by
  -- The kinds of values: truth values, names from a fixed list, and numbers.
  have hbool : ∀ b, ' ' ∉ (boolText b).toList := by
    decide
  have hpreference : ∀ p : Preference, ' ' ∉ p.optionValue.toList := by
    intro p
    cases p <;> decide
  have haccelerator : ∀ d : Delegate, ' ' ∉ d.acceleratorName.toList := by
    intro d
    cases d <;> decide
  have hnumber : ∀ n, ' ' ∉ (natText n).toList := by
    intro n hspace
    rw [natText, String.toList_ofList] at hspace
    exact absurd (isDigit_of_mem_decimalDigits hspace) (by decide)
  -- One case for each flag, in their order.
  simp only [flags, List.mem_cons, List.not_mem_nil, or_false] at hf
  rcases hf with rfl | rfl | rfl | rfl | rfl | rfl | rfl | rfl | rfl | rfl | rfl | rfl | rfl
  · exact hbool _
  · exact hbool _
  · exact hbool _
  · exact haccelerator _
  · exact hpreference _
  · exact hnumber _
  · exact hnumber _
  · exact hbool _
  · exact hbool _
  · exact hbool _
  · exact hbool _
  · exact hbool _
  · exact hnumber _

theorem mapM_map_eq_some {α β : Type} {f : α → β} {g : β → Option α} {l : List α}
    (h : ∀ a ∈ l, g (f a) = some a) : (l.map f).mapM g = some l := by
  induction l with
  | nil => rfl
  | cons a l ih =>
    rw [List.forall_mem_cons] at h
    rw [List.map_cons, List.mapM_cons, h.1, ih h.2]
    rfl

/-- The flags are read back from the text. -/
theorem readFlags?_arguments (o : ToolOptions) : readFlags? o.arguments = some o.flags := by
  have hspace : ∀ argument ∈ (o.flags.map flagText).map String.toList, ' ' ∉ argument := by
    simp only [List.forall_mem_map]
    intro f hf
    simp only [flagText, String.toList_append, List.mem_append, not_or]
    exact ⟨⟨⟨by decide, (plain_of_mem_names hf).1⟩, by decide⟩, plain_of_mem_values hf⟩
  have hread : ∀ f ∈ o.flags, readFlag? (flagText f).toList = some f :=
    fun f hf => readFlag?_flagText (plain_of_mem_names hf).2
  have hpieces : Text.pieces ' ' o.arguments.toList = (o.flags.map flagText).map String.toList := by
    rw [arguments, Text.join, String.toList_ofList]
    exact Text.pieces_joinWith (List.cons_ne_nil _ _) hspace
  rw [readFlags?, hpieces, List.map_map]
  exact mapM_map_eq_some hread

/-- The options are read back from the flags. Every option is written, also where it has its
    default, so each is found under its name. -/
theorem ofFlags?_flags (o : ToolOptions) : ofFlags? o.flags = some o := by
  have hthreads : o.flags.lookup "num_threads" = some (natText o.threads) := rfl
  have hwarmup : o.flags.lookup "warmup_runs" = some (natText o.warmupRuns) := rfl
  have hruns : o.flags.lookup "num_runs" = some (natText o.runs) := rfl
  have hgpu : o.flags.lookup "use_gpu" = some (boolText (o.delegate = .gpu)) := rfl
  have hhexagon : o.flags.lookup "use_hexagon" = some (boolText (o.delegate = .hexagon)) := rfl
  have hindirect : o.flags.lookup "use_nnapi" = some (boolText o.delegate.isIndirect) := rfl
  have haccelerator : o.flags.lookup "nnapi_accelerator_name" = some o.delegate.acceleratorName :=
    rfl
  have hdelegated : o.flags.lookup "require_full_delegation" = some (boolText !o.cpuFallback) := rfl
  have htime : o.flags.lookup "time_driver" = some (boolText o.timeDriver) := rfl
  have hpreference : o.flags.lookup "nnapi_execution_preference" = some o.preference.optionValue :=
    rfl
  -- Each option is found under its flag, and each value is read back as it was.
  simp only [ofFlags?, hthreads, hwarmup, hruns, hgpu, hhexagon, hindirect, haccelerator,
    hdelegated, htime, hpreference, Option.bind_eq_bind, Option.bind_some, readNat?_natText,
    readBool?_boolText, readPreference?_optionValue, readDelegate?_flags, Bool.not_not]
  rfl

/-- The options are read back from the text. -/
theorem ofArguments?_arguments (o : ToolOptions) : ofArguments? o.arguments = some o := by
  rw [ofArguments?, readFlags?_arguments, Option.bind_eq_bind, Option.bind_some, ofFlags?_flags]

theorem boolText_eq_true (b : Bool) : (some (boolText b) == some "true") = b := by
  cases b <;> decide

/-- At most one kind of accelerator is asked for. -/
theorem countP_isOn (o : ToolOptions) :
    ["use_gpu", "use_hexagon", "use_nnapi"].countP (isOn o.flags) ≤ 1 := by
  have hgpu : isOn o.flags "use_gpu" = decide (o.delegate = .gpu) := boolText_eq_true _
  have hhexagon : isOn o.flags "use_hexagon" = decide (o.delegate = .hexagon) := boolText_eq_true _
  have hindirect : isOn o.flags "use_nnapi" = o.delegate.isIndirect := boolText_eq_true _
  simp only [List.countP_cons, List.countP_nil, hgpu, hhexagon, hindirect]
  cases o.delegate <;> decide

/-- The options of the benchmark tool can be read back from its arguments, so different options
    have different command lines. The flags are in order, at most one kind of accelerator is
    asked for, and the neural network interface is kept off the processor exactly if it is used
    and all has to be delegated. -/
theorem arguments_decodable :
    (∀ o : ToolOptions, ofArguments? o.arguments = some o) ∧
    Function.Injective arguments ∧
    ∀ o : ToolOptions, readFlags? o.arguments = some o.flags ∧
      (o.flags.map Prod.fst).Pairwise (· < ·) ∧
      ["use_gpu", "use_hexagon", "use_nnapi"].countP (isOn o.flags) ≤ 1 ∧
      isOn o.flags "disable_nnapi_cpu"
        = (isOn o.flags "use_nnapi" && isOn o.flags "require_full_delegation") := by
  refine ⟨ofArguments?_arguments, ?_, fun o => ⟨readFlags?_arguments o, ?_, countP_isOn o, ?_⟩⟩
  · intro o o' h
    have hread := ofArguments?_arguments o
    rw [h, ofArguments?_arguments] at hread
    exact (Option.some.inj hread).symm
  · rw [names_flags]
    decide
  · have hdisabled : isOn o.flags "disable_nnapi_cpu"
        = (!o.cpuFallback && o.delegate.isIndirect) := boolText_eq_true _
    have hindirect : isOn o.flags "use_nnapi" = o.delegate.isIndirect := boolText_eq_true _
    have hdelegated : isOn o.flags "require_full_delegation" = !o.cpuFallback := boolText_eq_true _
    rw [hdisabled, hindirect, hdelegated, Bool.and_comm]

end ToolOptions

end AccelMonitor
