import LowerComments.Proofs.Arguments.Grammar
import LowerComments.Proofs.Utf8.WellFormed
import Mathlib.Data.List.Nodup
import Mathlib.Data.List.TakeWhile

/-!
# What the scan of a command line reads

The scan goes through the arguments from left to right and keeps the flags and the operand that
it has met. What a part of a command line adds to these is known without the scan: the flags
that it gives, each for the first time, and its operands (`Reading.Gains`). What two parts add
together is what they add one after the other (`Reading.Gains.trans`, `Reading.Gains.split`). So
each step of the scan is held to what its argument adds (`Reading.Adds`), and the whole scan
follows by induction (`Reading.adds_arguments`).

One thing is out of step. Whether the operand is text is not looked at when it is read, but at
the next flag or at the end, so a step cannot tell by itself whether the scan will go on. Steps
are therefore described for those ends at which the operand is text. It was the same operand
before, if there was one, so it was text there, too (`Reading.Gains.text`).

The scan thus ends well exactly for the command lines that follow the grammar, and what they
ask for is what the grammar says (`read_iff_asksForRun`).
-/

set_option autoImplicit false

namespace LowerComments.Arguments

/-! ## What arguments add to a reading -/

theorem isText_iff {bytes : Bytes} : isText bytes = true ↔ Utf8.WellFormed bytes := by
  rw [← not_iff_not, ← Utf8.exists_fault_iff]
  unfold isText
  cases Utf8.decode bytes <;> simp

namespace Reading

theorem operandIsText_iff {reading : Reading} :
    reading.operandIsText = true ↔ ∀ bytes ∈ reading.operand.toList, Utf8.WellFormed bytes := by
  rw [operandIsText, Option.all_eq_true]
  simp only [isText_iff, Option.mem_toList]

/-- A reading has at most one operand. -/
theorem toList_head? {operands : List Bytes} (single : operands.length ≤ 1) :
    operands.head?.toList = operands := by
  rw [← List.take_one, List.take_of_length_le single]

/-- Flags that had not been given and operands, added to a reading. -/
structure Gains (reading : Reading) (flags : List Flag) (operands : List Bytes) (next : Reading) :
    Prop where
  given : next.flags = flags.reverse ++ reading.flags
  once : flags.Nodup
  fresh : reading.flags.Disjoint flags
  operand : next.operand.toList = reading.operand.toList ++ operands

variable {reading middle next : Reading} {flags more : List Flag} {operands others : List Bytes}

theorem gains_nil (reading : Reading) : reading.Gains [] [] reading where
  given := rfl
  once := List.nodup_nil
  fresh := List.disjoint_nil_right _
  operand := (List.append_nil _).symm

/-- What is added to a reading tells what becomes of it. -/
theorem Gains.unique {other : Reading} (gains : reading.Gains flags operands next)
    (same : reading.Gains flags operands other) : next = other := by
  obtain ⟨operand, given⟩ := next
  obtain ⟨otherOperand, otherGiven⟩ := other
  obtain rfl : given = otherGiven := gains.given.trans same.given.symm
  have listed : operand.toList = otherOperand.toList := gains.operand.trans same.operand.symm
  obtain rfl : operand = otherOperand := by
    rw [← Option.head?_toList (o := operand), listed, Option.head?_toList]
  rfl

/-- An operand that is text at the end was text before. -/
theorem Gains.text (gains : reading.Gains flags operands next)
    (text : next.operandIsText = true) : reading.operandIsText = true := by
  rw [operandIsText_iff, gains.operand, List.forall_mem_append] at text
  exact operandIsText_iff.mpr text.1

/-- What is added by one part after the other is added by both together. -/
theorem Gains.trans (earlier : reading.Gains flags operands middle)
    (later : middle.Gains more others next) :
    reading.Gains (flags ++ more) (operands ++ others) next := by
  have apart := later.fresh
  rw [earlier.given, List.disjoint_append_left] at apart
  refine ⟨?_, ?_, List.disjoint_append_right.mpr ⟨earlier.fresh, apart.2⟩, ?_⟩
  · rw [later.given, earlier.given, List.reverse_append, List.append_assoc]
  · exact List.nodup_append'.mpr
      ⟨earlier.once, later.once, fun flag member => apart.1 (List.mem_reverse.mpr member)⟩
  · rw [later.operand, earlier.operand, List.append_assoc]

/-- **What two parts of a command line add is added by one after the other.** There is at most one
operand at the end, and so there is between the two. -/
theorem Gains.split (gains : reading.Gains (flags ++ more) (operands ++ others) next) :
    ∃ middle, reading.Gains flags operands middle ∧ middle.Gains more others next := by
  obtain ⟨given, once, fresh, operand⟩ := gains
  obtain ⟨first, second, apart⟩ := List.nodup_append'.mp once
  obtain ⟨freshFirst, freshSecond⟩ := List.disjoint_append_right.mp fresh
  rw [← List.append_assoc] at operand
  have single : (reading.operand.toList ++ operands).length ≤ 1 := by
    have whole : next.operand.toList.length ≤ 1 := Option.length_toList_le
    rw [operand, List.length_append] at whole
    omega
  have part := toList_head? single
  refine ⟨⟨_, flags.reverse ++ reading.flags⟩, ⟨rfl, first, freshFirst, part⟩,
    ⟨?_, second, ?_, operand.trans (congrArg (· ++ others) part.symm)⟩⟩
  · rw [given, List.reverse_append, List.append_assoc]
  · exact List.disjoint_append_left.mpr
      ⟨fun flag member => apart (List.mem_reverse.mp member), freshSecond⟩

/-! ## One step after the other -/

/-- A step of reading that goes on exactly when it may, and then adds these flags and operands. It
is described for those ends at which the operand is text. -/
def Adds (step : Reading → Except Halt Reading) (allowed : Prop) (flags : List Flag)
    (operands : List Bytes) : Prop :=
  ∀ reading next, next.operandIsText = true →
    (step reading = .ok next ↔ allowed ∧ reading.Gains flags operands next)

variable {step first rest : Reading → Except Halt Reading} {allowed allowedRest : Prop}

theorem Adds.congr {may : Prop} (adds : Adds step allowed flags operands) (same : allowed ↔ may)
    (sameFlags : may → flags = more) (sameOperands : operands = others) :
    Adds step may more others := by
  subst sameOperands
  intro reading next text
  rw [adds reading next text, same]
  exact and_congr_right fun allowed => by rw [sameFlags allowed]

theorem adds_ok : Adds .ok True [] [] := by
  intro reading next _
  rw [true_and, Except.ok.injEq]
  constructor
  · rintro rfl
    exact gains_nil reading
  · exact (gains_nil reading).unique

theorem adds_error {halt : Halt} (forbidden : ¬ allowed) :
    Adds (fun _ => .error halt) allowed flags operands :=
  fun _ _ _ => ⟨fun read => absurd read (by simp), fun ⟨may, _⟩ => absurd may forbidden⟩

/-- **Two steps add what they add, one after the other.** -/
theorem Adds.andThen (addsFirst : Adds first allowed flags operands)
    (addsRest : Adds rest allowedRest more others) :
    Adds (fun reading =>
        match first reading with
        | .error halt => .error halt
        | .ok next => rest next)
      (allowed ∧ allowedRest) (flags ++ more) (operands ++ others) := by
  intro reading last text
  simp only
  constructor
  · intro read
    split at read
    · exact absurd read (by simp)
    · next middle reached =>
      obtain ⟨mayRest, later⟩ := (addsRest middle last text).mp read
      obtain ⟨may, earlier⟩ := (addsFirst reading middle (later.text text)).mp reached
      exact ⟨⟨may, mayRest⟩, earlier.trans later⟩
  · rintro ⟨⟨may, mayRest⟩, gains⟩
    obtain ⟨middle, earlier, later⟩ := gains.split
    rw [(addsFirst reading middle (later.text text)).mpr ⟨may, earlier⟩]
    exact (addsRest middle last text).mpr ⟨mayRest, later⟩

/-! ## The steps of reading -/

/-- A request that can be read asks for a flag that was not set. -/
theorem request_eq_ok_iff {request : Request} :
    reading.request request = .ok next ↔
      reading.operandIsText = true ∧ ∃ flag, request = .flag flag ∧ flag ∉ reading.flags ∧
        next = { reading with flags := flag :: reading.flags } := by
  unfold Reading.request
  cases reading.operandIsText with
  | false => simp
  | true =>
    cases request with
    | help => simp
    | version => simp
    | flag flag => by_cases set : flag ∈ reading.flags <;> simp [set, eq_comm]

/-- A request is read if it is for a flag, and adds that flag. -/
theorem adds_request (request : Request) :
    Adds (fun reading => reading.request request) request.flag?.isSome request.flag?.toList
      [] := by
  intro reading next text
  rw [request_eq_ok_iff]
  cases request with
  | help => simp [Request.flag?]
  | version => simp [Request.flag?]
  | flag flag =>
    have added (fresh : flag ∉ reading.flags) :
        reading.Gains [flag] [] { reading with flags := flag :: reading.flags } :=
      ⟨rfl, List.nodup_singleton _, List.disjoint_singleton.mpr fresh, (List.append_nil _).symm⟩
    constructor
    · rintro ⟨_, own, same, fresh, rfl⟩
      obtain rfl := Request.flag.inj same
      exact ⟨rfl, added fresh⟩
    · rintro ⟨-, gains⟩
      have fresh : flag ∉ reading.flags := List.disjoint_singleton.mp gains.fresh
      exact ⟨gains.text text, flag, rfl, fresh, gains.unique (added fresh)⟩

/-- Letters are read if each of them gives a flag. -/
theorem adds_letters (letters : Bytes) :
    Adds (fun reading => reading.letters letters)
      (∀ letter ∈ letters, (Flag.ofLetter? letter).isSome) (letters.filterMap Flag.ofLetter?)
      [] := by
  induction letters with
  | nil => exact adds_ok.congr (by simp) (fun _ => rfl) rfl
  | cons letter rest ih =>
    simp only [Reading.letters]
    have table := flag?_lettered? letter
    cases lettered : lettered? letter with
    | none => exact adds_error (by simp [← table, lettered])
    | some request =>
      rw [lettered, Option.bind_some] at table
      refine ((adds_request request).andThen ih).congr ?_ ?_ rfl
      · rw [List.forall_mem_cons, table]
      · rw [List.filterMap_cons, table]
        intro _
        cases Flag.ofLetter? letter <;> rfl

/-- A name is read if it gives a flag and no value is attached to it. -/
theorem adds_name (name : Bytes) (hasValue : Bool) :
    Adds (fun reading => reading.name name hasValue)
      (hasValue = false ∧ (Flag.ofWord? (hyphen :: hyphen :: name)).isSome)
      (Flag.ofWord? (hyphen :: hyphen :: name)).toList [] := by
  simp only [Reading.name, ← flag?_named? name]
  cases named? name with
  | none => exact adds_error (by simp)
  | some request =>
    cases hasValue with
    | true => exact adds_error (by simp)
    | false => exact (adds_request request).congr (by simp) (fun _ => rfl) rfl

/-- An operand is read if there was none. -/
theorem adds_addOperand (bytes : Bytes) :
    Adds (fun reading => reading.addOperand bytes) True [] [bytes] := by
  intro reading next _
  simp only [addOperand, true_and]
  cases own : reading.operand with
  | some other =>
    refine ⟨fun read => absurd read (by simp), fun gains => ?_⟩
    have two : next.operand.toList.length ≤ 1 := Option.length_toList_le
    simp [gains.operand, own] at two
  | none =>
    have added : reading.Gains [] [bytes] { reading with operand := some bytes } :=
      ⟨rfl, List.nodup_nil, List.disjoint_nil_right _, by simp [own]⟩
    rw [Option.isSome_none, if_neg Bool.false_ne_true, Except.ok.injEq]
    constructor
    · rintro rfl
      exact added
    · exact added.unique

theorem adds_operands (words : List Bytes) :
    Adds (fun reading => reading.operands words) True [] words := by
  induction words with
  | nil => exact adds_ok
  | cons word rest ih =>
    simp only [operands]
    exact ((adds_addOperand word).andThen ih).congr (by simp) (fun _ => rfl) rfl

/-- **A switch is read if it gives flags**, and adds these. -/
theorem adds_switch {word : Bytes} (switch : isSwitch word = true) (goes : word ≠ ending) :
    Adds (fun reading => reading.argument (formOf word)) (GivesFlags word) (flagsOf word) [] := by
  obtain ⟨name, rfl, form⟩ | ⟨letters, filled, single, rfl, form⟩ := switch_cases switch goes
  · rw [form, givesFlags_name]
    by_cases value : equals ∈ name
    · have unnamed : Flag.ofWord? (hyphen :: hyphen :: name) = none := by
        refine Option.eq_none_iff_forall_ne_some.mpr fun flag own => ?_
        have plain : equals ∉ flag.word := by cases flag <;> decide +kernel
        rw [Flag.ofWord?_eq_some_iff] at own
        simp [own, value] at plain
      exact (adds_name _ _).congr (by simp [value, unnamed]) (by simp [unnamed]) rfl
    · have whole : name.takeWhile (· ≠ equals) = name :=
        List.takeWhile_eq_self_iff.mpr fun byte member => by
          simpa using ne_of_mem_of_not_mem member value
      rw [whole]
      refine (adds_name _ _).congr (by simp [value]) (fun named => ?_) rfl
      obtain ⟨flag, own⟩ := Option.isSome_iff_exists.mp named
      rw [flagsOf, own]
      rfl
  · rw [form, givesFlags_letters filled single, flagsOf_letters single]
    exact adds_letters letters

/-! ## The whole command line -/

/-- **A command line is read to its end if each of its switches gives flags**, no flag is given
twice and there is at most one operand. -/
theorem adds_arguments (words : List Bytes) :
    Adds (fun reading => reading.arguments words) (OnlyFlags words) (flagsIn words)
      (operandsIn words) := by
  induction words with
  | nil => exact adds_ok.congr (by simp [OnlyFlags, beforeEnding]) (fun _ => rfl) rfl
  | cons word rest ih =>
    simp only [Reading.arguments, formOf_eq_ending_iff]
    by_cases goes : word = ending
    · subst goes
      simp only [if_true, flagsIn_ending, operandsIn_ending]
      exact (adds_operands rest).congr (by simp [onlyFlags_ending]) (fun _ => rfl) rfl
    · simp only [if_neg goes]
      rw [onlyFlags_cons goes, flagsIn_cons goes, operandsIn_cons goes]
      cases switch : isSwitch word with
      | true =>
        exact ((adds_switch switch goes).andThen ih).congr (by simp) (fun _ => rfl) rfl
      | false =>
        rw [formOf_of_operand switch]
        exact ((adds_addOperand word).andThen ih).congr (by simp) (fun _ => rfl) rfl

end Reading

/-- A command line asks for a run exactly when it follows the grammar, and then for what it says by
the grammar. -/
theorem read_eq_ok_iff_asked {words : List Bytes} {arguments : Arguments} :
    read words = .ok arguments ↔ AsksForRun words ∧ arguments = asked words := by
  constructor
  · intro parsed
    unfold read at parsed
    split at parsed
    · exact absurd parsed (by simp)
    · next reading scanned =>
      unfold Reading.finish at parsed
      split at parsed
      · next text =>
        obtain rfl := Except.ok.inj parsed
        obtain ⟨known, gains⟩ := (Reading.adds_arguments words {} reading text).mp scanned
        have operand : reading.operand.toList = operandsIn words := gains.operand
        have flags : reading.flags = (flagsIn words).reverse :=
          gains.given.trans (List.append_nil _)
        refine ⟨⟨known, gains.once, ?_, ?_⟩, ?_⟩
        · exact operand ▸ Option.length_toList_le
        · exact operand ▸ Reading.operandIsText_iff.mp text
        · simp [asked, ← operand, flags]
      · exact absurd parsed (by simp)
  · rintro ⟨asks, rfl⟩
    let reading : Reading := ⟨(operandsIn words).head?, (flagsIn words).reverse⟩
    have operand : reading.operand.toList = operandsIn words := Reading.toList_head? asks.single
    have text : reading.operandIsText = true :=
      Reading.operandIsText_iff.mpr (operand.symm ▸ asks.text)
    have gains : Reading.Gains {} (flagsIn words) (operandsIn words) reading :=
      ⟨(List.append_nil _).symm, asks.once, List.disjoint_nil_left _, operand⟩
    have scanned : Reading.arguments {} words = .ok reading :=
      (Reading.adds_arguments words {} reading text).mpr ⟨asks.known, gains⟩
    rw [read, scanned]
    simp only
    rw [Reading.finish, if_pos text]
    simp [asked, reading]

/-- **Which command lines ask for a run, and for which one.** They are those that follow the
grammar, and each asks for the flags that it gives and for the directory that its operand names.
A rearranged command line is read with the same outcome, as far as either asks for a run. -/
theorem read_iff_asksForRun (words : List Bytes) :
    ((∃ arguments, read words = .ok arguments) ↔ AsksForRun words) ∧
      (∀ arguments, read words = .ok arguments → arguments = asked words) ∧
      ∀ other, Rearranged words other →
        ∀ arguments, read words = .ok arguments ↔ read other = .ok arguments := by
  refine ⟨?_, fun arguments parsed => (read_eq_ok_iff_asked.mp parsed).2,
    fun other rearranged arguments => ?_⟩
  · simp only [read_eq_ok_iff_asked, exists_and_left, exists_eq, and_true]
  · rw [read_eq_ok_iff_asked, read_eq_ok_iff_asked]
    constructor
    · rintro ⟨asks, rfl⟩
      exact ⟨rearranged.asksForRun asks, rearranged.asked asks⟩
    · rintro ⟨asks, rfl⟩
      exact ⟨rearranged.symm.asksForRun asks, rearranged.symm.asked asks⟩

/-- A bundle of two letters is taken apart and put behind a name. The operand starts with a hyphen,
and so it stands behind the end of the switches. -/
theorem read_iff_asksForRun_bundle :
    let words := [Bytes.ofString "-kq", Bytes.ofString "--atomic", ending, Bytes.ofString "-d"]
    let other := [Bytes.ofString "--atomic", Bytes.ofString "-q", Bytes.ofString "-k", ending,
      Bytes.ofString "-d"]
    let arguments : Arguments := ⟨Bytes.ofString "-d", true, true, true⟩
    Rearranged words other ∧ read words = .ok arguments ∧ read other = .ok arguments := by
  intro words other arguments
  have rearranged : Rearranged words other :=
    ⟨by decide +kernel, [Bytes.ofString "--atomic"], [Bytes.ofString "kq"],
      [Bytes.ofString "q", Bytes.ofString "k"], ⟨by decide +kernel, by decide +kernel⟩,
      ⟨by decide +kernel, by decide +kernel⟩, by decide +kernel⟩
  have parsed : read words = .ok arguments := by decide +kernel
  obtain ⟨_, _, same⟩ := read_iff_asksForRun words
  exact ⟨rearranged, parsed, (same other rearranged arguments).mp parsed⟩

end LowerComments.Arguments
