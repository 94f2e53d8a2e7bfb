import LowerComments.Proofs.Path.Shown
import LowerComments.Proofs.Utf8.WellFormed
import LowerComments.Report.Lines

/-!
# What the lines of a report read

The lines of a report are put together from words, some of them in a style, from paths and from
the text of a fault. Here each line is written out with the escape sequences in it
(`Report.processedLine_eq` and its neighbours), and each kind of fault with its words
(`Fault.Reads`). A path that is text stands in a line byte for byte
(`Bytes.ofString_display`), and the line of an updated file leaves out the `.` that the path
begins with (`Report.Names`).
-/

set_option autoImplicit false

namespace LowerComments

/-! ## Paths in a line -/

namespace Utf8

section Lossy

variable {state : Option Unfinished} {byte : UInt8} {rest : Bytes}

theorem decodeLossyFrom_complete {code : Nat} (complete : step state byte.toNat = .complete code) :
    decodeLossyFrom state (byte :: rest) = Char.ofNat code :: decodeLossyFrom none rest := by
  cases state <;> simp only [decodeLossyFrom, complete]

theorem decodeLossyFrom_unfinished {sequence : Unfinished}
    (unfinished : step state byte.toNat = .unfinished sequence) :
    decodeLossyFrom state (byte :: rest) = decodeLossyFrom (some sequence) rest := by
  cases state <;> simp only [decodeLossyFrom, unfinished]

end Lossy

/-- Nothing is replaced in what is shown of bytes that can be read. -/
theorem decodeLossyFrom_of_decodeFrom {index : Nat} {state : Option Unfinished} {bytes : Bytes}
    {text : List Char} (reads : decodeFrom index state bytes = .ok text) :
    decodeLossyFrom state bytes = text := by
  induction bytes generalizing index state text with
  | nil =>
    cases state with
    | none => exact Except.ok.inj reads
    | some sequence => simp [decodeFrom] at reads
  | cons byte rest ih =>
    rw [decodeFrom] at reads
    cases taken : step state byte.toNat with
    | complete code =>
      simp only [taken] at reads
      rw [decodeLossyFrom_complete taken]
      split at reads
      · next later there =>
        rw [ih there]
        exact Except.ok.inj reads
      · exact absurd reads (by simp)
    | unfinished sequence =>
      simp only [taken] at reads
      rw [decodeLossyFrom_unfinished taken]
      exact ih reads
    | refused => simp [taken] at reads

end Utf8

/-- **A path that is text is shown byte for byte.** -/
theorem Bytes.ofString_display {bytes : Bytes} (text : Utf8.WellFormed bytes) :
    Bytes.ofString bytes.display = bytes := by
  obtain ⟨letters, rfl⟩ := Utf8.wellFormed_iff.mp text
  rw [display, Utf8.decodeLossy,
    Utf8.decodeLossyFrom_of_decodeFrom (Utf8.decode_encode letters), ofString,
    String.toList_ofList]

/-- These words name the path: byte for byte when it is text, and without the `.` that it may begin
with. -/
structure Report.Names (path : Path) (words : String) : Prop where
  own : path.pieces.head? ≠ some [Path.dot] → Utf8.WellFormed path → Bytes.ofString words = path
  /-- Behind the `.` and what is idle after it, the path first leads on. -/
  behind : path.pieces.head? = some [Path.dot] → ∃ dropped rest, Path.Idle dropped ∧
    path = dropped ++ rest ∧ rest.LeadsOnAtOnce ∧
    (Utf8.WellFormed rest → Bytes.ofString words = rest)

theorem Report.names_shown {path : Path} (leads : path.LeadsOn) :
    Names path path.shown.display where
  own elsewhere text := by
    rw [ne_eq, ← Path.startsHere_iff, Bool.not_eq_true] at elsewhere
    rw [Path.shown_of_not_startsHere elsewhere, Bytes.ofString_display text]
  behind here := by
    obtain ⟨dropped, idle, whole, atOnce⟩ := Path.shown_split leads (Path.startsHere_iff.mpr here)
    exact ⟨dropped, path.shown, idle, whole, atOnce, Bytes.ofString_display⟩

/-- A file is named by its line when the extension of the target cannot stand for the directory. -/
theorem Report.names_of_mem_discover {tree : Tree} {target : Target} {root : Path}
    {files : List Path} (leads : Path.LeadsOn target.extension)
    (found : discover tree target root = .ok files) {path : Path} (member : path ∈ files) :
    Names path path.shown.display := by
  obtain ⟨names, -, rfl⟩ := discover_eq_ok_iff.mp found
  obtain ⟨name, kept, rfl⟩ := List.mem_map.mp member
  have accepted := (List.mem_filter.mp (mem_sortBy.mp kept)).2
  obtain ⟨front, rfl⟩ := List.isSuffixOf_iff_suffix.mp (Bool.and_eq_true_iff.mp accepted).1
  exact names_shown ((leads.behind front).join root)

/-! ## Faults -/

/-- What a fault reads in words. -/
inductive Fault.Reads : Fault → String → Prop
  | discovery (root : Path) (cause : IoFault) :
      Reads (.discovery root cause) ("cannot list " ++ root.display ++ ": " ++ cause.message)
  | read (path : Path) (cause : IoFault) :
      Reads (.read path cause) ("cannot read " ++ path.display ++ ": " ++ cause.message)
  | malformed (path : Path) (index length : Nat) :
      Reads (.decode path ⟨index, some length⟩) (path.display ++ " is not valid UTF-8: " ++
        ("invalid utf-8 sequence of " ++ toString length ++ " bytes from index " ++ toString index))
  | incomplete (path : Path) (index : Nat) :
      Reads (.decode path ⟨index, none⟩) (path.display ++ " is not valid UTF-8: " ++
        ("incomplete utf-8 byte sequence from index " ++ toString index))
  | write (path : Path) (cause : IoFault) :
      Reads (.write path cause) ("cannot write " ++ path.display ++ ": " ++ cause.message)
  | failed (count total : Nat) :
      Reads (.failed count total) (toString count ++ " of " ++ toString total ++ " file(s) failed")
  | io (cause : IoFault) : Reads (.io cause) ("I/O error: " ++ cause.message)
  | settings (cause : Settings.Fault) : Reads (.settings cause) ("config error: " ++ cause.message)

theorem Fault.reads_message (fault : Fault) : fault.Reads fault.message := by
  cases fault with
  | decode path cause =>
    obtain ⟨index, _ | length⟩ := cause
    · exact .incomplete path index
    · exact .malformed path index length
  | _ => constructor

/-! ## Lines -/

namespace Report

variable (styled : Bool)

theorem processedLine_eq (path : Path) :
    processedLine styled path =
      Bytes.ofString ((if styled then "\x1b[32mProcessed:\x1b[0m" else "Processed:") ++ " " ++
        path.shown.display ++ "\n") := by
  have word : Style.success.apply styled "Processed:" =
      if styled then "\x1b[32mProcessed:\x1b[0m" else "Processed:" := by
    cases styled <;> rfl
  rw [processedLine, word]

theorem flatMap_processedLine (files : List Path) :
    files.flatMap (processedLine styled) = files.flatMap fun path =>
      Bytes.ofString ((if styled then "\x1b[32mProcessed:\x1b[0m" else "Processed:") ++ " " ++
        path.shown.display ++ "\n") :=
  congrArg (List.flatMap · files) (funext (processedLine_eq styled))

theorem errorLine_eq (fault : Fault) :
    errorLine styled fault =
      Bytes.ofString ((if styled then "\x1b[31m\x1b[1merror\x1b[0m" else "error") ++ ": " ++
        fault.message ++ "\n") := by
  have word : Style.failure.apply styled "error" =
      if styled then "\x1b[31m\x1b[1merror\x1b[0m" else "error" := by
    cases styled <;> rfl
  rw [errorLine, word]

theorem flatMap_errorLine (faults : List Fault) :
    faults.flatMap (errorLine styled) = faults.flatMap fun fault =>
      Bytes.ofString ((if styled then "\x1b[31m\x1b[1merror\x1b[0m" else "error") ++ ": " ++
        fault.message ++ "\n") :=
  congrArg (List.flatMap · faults) (funext (errorLine_eq styled))

theorem noteLine_eq (path : Path) :
    noteLine styled path =
      Bytes.ofString ((if styled then "\x1b[32m\x1b[1mnote\x1b[0m" else "note") ++
        ": Loaded user config from: " ++
        (if styled then "\x1b[1m\x1b[4m" ++ path.display ++ "\x1b[0m" else path.display) ++
        "\n") := by
  have word : Style.strongSuccess.apply styled "note" =
      if styled then "\x1b[32m\x1b[1mnote\x1b[0m" else "note" := by
    cases styled <;> rfl
  have named : Style.emphasis.apply styled path.display =
      if styled then "\x1b[1m\x1b[4m" ++ path.display ++ "\x1b[0m" else path.display := by
    cases styled <;> rfl
  rw [noteLine, word, named]

theorem finishedLine_eq (processed : Nat) (seconds : String) :
    finishedLine styled processed seconds =
      Bytes.ofString ((if styled then "\x1b[32m\x1b[1mFinished\x1b[0m" else "Finished") ++ " " ++
        toString processed ++ " file(s) in " ++ seconds ++ "s.\n") := by
  have word : Style.strongSuccess.apply styled "Finished" =
      if styled then "\x1b[32m\x1b[1mFinished\x1b[0m" else "Finished" := by
    cases styled <;> rfl
  rw [finishedLine, word]

end Report

end LowerComments
