import LowerComments.Arguments.Read
import LowerComments.Proofs.Utf8.WellFormed
import Mathlib.Data.List.Basic
import Mathlib.Tactic.ByContra

/-!
# The grammar of the command line

The arguments in front of the first `--` fall into two kinds by their form, and those behind it
are all of one kind. A switch starts with a hyphen and is not a lone one; everything else is an
operand. A command line asks for a run when each of its switches gives flags, by the name of one
or by letters in a bundle, when no flag is given twice, and when there is at most one operand and
that is text (`AsksForRun`). What it asks for are the flags that are given and the directory that
the operand names (`asked`).

All of this is said without an order. So the arguments may change places and letters may change
bundles without any effect (`Rearranged.asksForRun`, `Rearranged.asked`), as long as letters do
not begin with a hyphen: two hyphens are the beginning of a name, or the end of the switches.

Names and letters are written out here. That the table of the switches has the same ones is
checked switch by switch (`flag?_named?`, `flag?_lettered?`).
-/

set_option autoImplicit false

namespace LowerComments.Arguments

/-! ## The kinds of arguments -/

/-- The argument that ends the switches. -/
def ending : Bytes := [hyphen, hyphen]

/-- The arguments in front of the one that ends the switches. -/
def beforeEnding (words : List Bytes) : List Bytes := words.takeWhile (· ≠ ending)

/-- The arguments behind the one that ends the switches. -/
def behindEnding (words : List Bytes) : List Bytes := (words.dropWhile (· ≠ ending)).tail

/-- The argument starts with a hyphen and is not a lone one. -/
def isSwitch (word : Bytes) : Bool := word.head? = some hyphen ∧ word ≠ [hyphen]

/-- The operands of a command line. -/
def operandsIn (words : List Bytes) : List Bytes :=
  (beforeEnding words).filter (!isSwitch ·) ++ behindEnding words

/-- The argument that gives a flag by its name. -/
def Flag.word : Flag → Bytes
  | .keepGoing => Bytes.ofString "--keep-going"
  | .atomic => Bytes.ofString "--atomic"
  | .quiet => Bytes.ofString "--quiet"

/-- The letter that gives a flag, if there is one. -/
def Flag.letter? : Flag → Option UInt8
  | .keepGoing => some 0x6B -- `k`
  | .atomic => none
  | .quiet => some 0x71 -- `q`

/-- The flag that an argument gives by its name. -/
def Flag.ofWord? (word : Bytes) : Option Flag :=
  [keepGoing, atomic, quiet].find? (·.word = word)

/-- The flag that a letter gives. -/
def Flag.ofLetter? (letter : UInt8) : Option Flag :=
  [keepGoing, atomic, quiet].find? (·.letter? = some letter)

/-- The argument gives flags: by the name of one, or by letters behind a hyphen. -/
def GivesFlags (word : Bytes) : Prop :=
  (∃ flag, Flag.ofWord? word = some flag) ∨
    ∃ letters, letters ≠ [] ∧ word = hyphen :: letters ∧
      ∀ letter ∈ letters, (Flag.ofLetter? letter).isSome

/-- The flags that an argument gives. -/
def flagsOf (word : Bytes) : List Flag :=
  match Flag.ofWord? word with
  | some flag => [flag]
  | none => word.tail.filterMap Flag.ofLetter?

/-- The flags that a command line gives, each as often as it is given. -/
def flagsIn (words : List Bytes) : List Flag :=
  ((beforeEnding words).filter isSwitch).flatMap flagsOf

/-- Each switch of a command line gives flags. -/
def OnlyFlags (words : List Bytes) : Prop :=
  ∀ word ∈ beforeEnding words, isSwitch word = true → GivesFlags word

/-- The command line asks for a run. -/
structure AsksForRun (words : List Bytes) : Prop where
  known : OnlyFlags words
  once : (flagsIn words).Nodup
  single : (operandsIn words).length ≤ 1
  text : ∀ word ∈ operandsIn words, Utf8.WellFormed word

/-- What the command line asks for: the directory that its operand names, or the working
directory, and the flags that it gives. -/
def asked (words : List Bytes) : Arguments where
  path := (operandsIn words).head?.getD [Path.dot]
  keepGoing := .keepGoing ∈ flagsIn words
  atomic := .atomic ∈ flagsIn words
  quiet := .quiet ∈ flagsIn words

/-- In front of the end of the switches are these arguments and bundles of these letters, in some
order. -/
structure MadeUpOf (words rest bundles : List Bytes) : Prop where
  order : (beforeEnding words).Perm (rest ++ bundles.map (hyphen :: ·))
  letters : ∀ letters ∈ bundles, letters ≠ [] ∧ hyphen ∉ letters

/-- Two command lines are the same but for the order of the arguments in front of the end of the
switches, and for the bundles in which letters are given there. -/
def Rearranged (words other : List Bytes) : Prop :=
  behindEnding words = behindEnding other ∧ ∃ rest bundles otherBundles,
    MadeUpOf words rest bundles ∧ MadeUpOf other rest otherBundles ∧
      bundles.flatten.Perm otherBundles.flatten

/-! ## Names and letters -/

theorem Flag.ofWord?_eq_some_iff {word : Bytes} {flag : Flag} :
    ofWord? word = some flag ↔ flag.word = word := by
  constructor
  · intro found
    simpa using List.find?_some found
  · rintro rfl
    cases flag <;> decide +kernel

/-- The flag that a request is for. -/
def Request.flag? : Request → Option Flag
  | .flag own => some own
  | .help => none
  | .version => none

/-- What a key finds in the table of the switches is for a flag when every switch that it fits is
for that flag, and when it fits one. -/
theorem flag?_find? {key : Switch → Bool} {flag? : Option Flag}
    (known : ∀ switch ∈ switches, key switch = true → switch.request.flag? = flag?)
    (complete : ∀ flag, flag? = some flag → ∃ switch ∈ switches, key switch = true) :
    ((switches.find? key).map Switch.request).bind Request.flag? = flag? := by
  cases found : switches.find? key with
  | some switch => exact known switch (List.mem_of_find?_eq_some found) (List.find?_some found)
  | none =>
    refine (Option.eq_none_iff_forall_ne_some.mpr fun flag own => ?_).symm
    obtain ⟨switch, member, fits⟩ := complete flag own
    exact List.find?_eq_none.mp found switch member fits

/-- The names in the table of the switches are those that give the flags. -/
theorem flag?_named? (name : Bytes) :
    (named? name).bind Request.flag? = Flag.ofWord? (hyphen :: hyphen :: name) := by
  have table : ∀ switch ∈ switches,
      switch.request.flag? = Flag.ofWord? (hyphen :: hyphen :: Bytes.ofString switch.name) := by
    decide +kernel
  have named (flag : Flag) : ∃ switch ∈ switches,
      flag.word = hyphen :: hyphen :: Bytes.ofString switch.name := by
    cases flag <;> decide +kernel
  refine flag?_find? (fun switch member fits => ?_) fun flag own => ?_
  · obtain rfl : Bytes.ofString switch.name = name := by simpa using fits
    exact table switch member
  · obtain ⟨switch, member, word⟩ := named flag
    rw [Flag.ofWord?_eq_some_iff, word] at own
    exact ⟨switch, member, by simpa using own⟩

/-- The letters in the table of the switches are those that give the flags. -/
theorem flag?_lettered? (letter : UInt8) :
    (lettered? letter).bind Request.flag? = Flag.ofLetter? letter := by
  have table : ∀ switch ∈ switches, switch.letter.all fun own =>
      [switch.request.flag?] = (Utf8.encode [own]).map Flag.ofLetter? := by
    decide +kernel
  have lettered : ∀ flag ∈ [Flag.keepGoing, .atomic, .quiet], flag.letter?.all fun letter =>
      switches.any fun switch => switch.letter.any (Utf8.encode [·] = [letter]) := by
    decide +kernel
  refine flag?_find? (fun switch member fits => ?_) fun flag given => ?_
  · obtain ⟨own, owned, bytes⟩ := (Option.any_eq_true _ _).mp fits
    rw [decide_eq_true_iff] at bytes
    have known := table switch member
    simpa [owned, bytes] using known
  · have own : flag.letter? = some letter := by simpa using List.find?_some given
    have fits := lettered flag (List.mem_of_find?_eq_some given)
    rw [own] at fits
    exact List.any_eq_true.mp fits

/-! ## Arguments by their form -/

/-- A name has a second hyphen, and letters have none in front. -/
theorem ofWord?_of_letters {letters : Bytes} (single : letters.head? ≠ some hyphen) :
    Flag.ofWord? (hyphen :: letters) = none := by
  refine Option.eq_none_iff_forall_ne_some.mpr fun flag own => single ?_
  have double : flag.word.tail.head? = some hyphen := by cases flag <;> decide +kernel
  rw [Flag.ofWord?_eq_some_iff] at own
  rwa [own] at double

theorem givesFlags_letters {letters : Bytes} (filled : letters ≠ [])
    (single : letters.head? ≠ some hyphen) :
    GivesFlags (hyphen :: letters) ↔ ∀ letter ∈ letters, (Flag.ofLetter? letter).isSome := by
  constructor
  · rintro (⟨flag, own⟩ | ⟨others, _, same, lettered⟩)
    · rw [ofWord?_of_letters single] at own
      exact absurd own (by simp)
    · obtain ⟨-, rfl⟩ := List.cons.inj same
      exact lettered
  · exact fun lettered => .inr ⟨letters, filled, rfl, lettered⟩

theorem givesFlags_name (name : Bytes) :
    GivesFlags (hyphen :: hyphen :: name) ↔ (Flag.ofWord? (hyphen :: hyphen :: name)).isSome := by
  rw [Option.isSome_iff_exists]
  refine ⟨?_, .inl⟩
  rintro (named | ⟨letters, _, same, lettered⟩)
  · exact named
  · obtain ⟨-, rfl⟩ := List.cons.inj same
    exact absurd (lettered hyphen List.mem_cons_self) (by decide)

theorem flagsOf_letters {letters : Bytes} (single : letters.head? ≠ some hyphen) :
    flagsOf (hyphen :: letters) = letters.filterMap Flag.ofLetter? := by
  rw [flagsOf, ofWord?_of_letters single]
  rfl

/-- A switch that does not end the switches is a name or letters. -/
theorem switch_cases {word : Bytes} (switch : isSwitch word = true) (goes : word ≠ ending) :
    (∃ name, word = hyphen :: hyphen :: name ∧
        formOf word = .name (name.takeWhile (· ≠ equals)) (name.contains equals)) ∨
      ∃ letters, letters ≠ [] ∧ letters.head? ≠ some hyphen ∧ word = hyphen :: letters ∧
        formOf word = .letters letters := by
  unfold isSwitch at switch
  rcases word with _ | ⟨first, _ | ⟨second, rest⟩⟩
  · simp at switch
  · simp_all
  · obtain rfl : first = hyphen := by simpa using switch
    by_cases double : second = hyphen
    · subst double
      have more : rest ≠ [] := fun nothing => goes (by rw [nothing, ending])
      exact .inl ⟨rest, rfl, by simp [formOf, more]⟩
    · exact .inr ⟨second :: rest, by simp, by simpa using double, rfl, by simp [formOf, double]⟩

theorem formOf_of_operand {word : Bytes} (operand : isSwitch word = false) :
    formOf word = .operand word := by
  unfold isSwitch at operand
  rcases word with _ | ⟨first, _ | ⟨second, rest⟩⟩
  · rfl
  · rfl
  · have other : first ≠ hyphen := by simpa using operand
    simp [formOf, other]

theorem formOf_eq_ending_iff {word : Bytes} : formOf word = .ending ↔ word = ending := by
  constructor
  · intro form
    by_contra goes
    cases switch : isSwitch word with
    | false => simp [formOf_of_operand switch] at form
    | true =>
      obtain ⟨_, _, other⟩ | ⟨_, _, _, _, other⟩ := switch_cases switch goes
      · simp [other] at form
      · simp [other] at form
  · rintro rfl
    rfl

/-! ## One argument more -/

section Cons

variable {word : Bytes} {words : List Bytes}

theorem onlyFlags_ending : OnlyFlags (ending :: words) := by
  simp [OnlyFlags, beforeEnding]

theorem flagsIn_ending : flagsIn (ending :: words) = [] := by
  simp [flagsIn, beforeEnding]

theorem operandsIn_ending : operandsIn (ending :: words) = words := by
  simp [operandsIn, beforeEnding, behindEnding]

theorem onlyFlags_cons (goes : word ≠ ending) :
    OnlyFlags (word :: words) ↔ (isSwitch word = true → GivesFlags word) ∧ OnlyFlags words := by
  simp [OnlyFlags, beforeEnding, goes]

theorem flagsIn_cons (goes : word ≠ ending) :
    flagsIn (word :: words) = (if isSwitch word then flagsOf word else []) ++ flagsIn words := by
  cases switch : isSwitch word <;> simp [flagsIn, beforeEnding, goes, switch]

theorem operandsIn_cons (goes : word ≠ ending) :
    operandsIn (word :: words) = (if isSwitch word then [] else [word]) ++ operandsIn words := by
  cases switch : isSwitch word <;> simp [operandsIn, beforeEnding, behindEnding, goes, switch]

end Cons

/-! ## Rearranged arguments -/

section Rearranging

variable {words other rest bundles : List Bytes} {letters : Bytes}

theorem MadeUpOf.isSwitch (parts : MadeUpOf words rest bundles) :
    ∀ word ∈ bundles.map (hyphen :: ·), Arguments.isSwitch word = true := by
  intro word member
  obtain ⟨letters, own, rfl⟩ := List.mem_map.mp member
  simp [Arguments.isSwitch, (parts.letters letters own).1]

theorem MadeUpOf.single (parts : MadeUpOf words rest bundles) (own : letters ∈ bundles) :
    letters.head? ≠ some hyphen :=
  fun first => (parts.letters letters own).2 (List.mem_of_head? first)

/-- Bundles are no operands. -/
theorem MadeUpOf.operandsIn (parts : MadeUpOf words rest bundles) :
    (operandsIn words).Perm (rest.filter (!Arguments.isSwitch ·) ++ behindEnding words) := by
  have none : (bundles.map (hyphen :: ·)).filter (!Arguments.isSwitch ·) = [] :=
    List.filter_eq_nil_iff.mpr fun word member => by simp [parts.isSwitch word member]
  have order := parts.order.filter (!Arguments.isSwitch ·)
  rw [List.filter_append, none, List.append_nil] at order
  exact order.append_right _

/-- The letters of bundles give flags, whatever bundles they are in. -/
theorem MadeUpOf.flagsIn (parts : MadeUpOf words rest bundles) :
    (flagsIn words).Perm ((rest.filter Arguments.isSwitch).flatMap flagsOf ++
      bundles.flatten.filterMap Flag.ofLetter?) := by
  have all : (bundles.map (hyphen :: ·)).filter Arguments.isSwitch = bundles.map (hyphen :: ·) :=
    List.filter_eq_self.mpr parts.isSwitch
  have letters : (bundles.map (hyphen :: ·)).flatMap flagsOf =
      bundles.flatten.filterMap Flag.ofLetter? := by
    rw [List.filterMap_flatten, List.flatMap_map, ← List.flatMap_def]
    exact List.flatMap_congr fun letters own => flagsOf_letters (parts.single own)
  have order := (parts.order.filter Arguments.isSwitch).flatMap_right flagsOf
  rwa [List.filter_append, all, List.flatMap_append, letters] at order

theorem MadeUpOf.onlyFlags_iff (parts : MadeUpOf words rest bundles) :
    OnlyFlags words ↔
      (∀ word ∈ rest, Arguments.isSwitch word = true → GivesFlags word) ∧
        ∀ letter ∈ bundles.flatten, (Flag.ofLetter? letter).isSome := by
  simp only [OnlyFlags, parts.order.mem_iff, List.forall_mem_append]
  refine and_congr_right fun _ => ?_
  simp only [List.mem_flatten]
  constructor
  · rintro known letter ⟨letters, own, member⟩
    have given := known _ (List.mem_map_of_mem own) (parts.isSwitch _ (List.mem_map_of_mem own))
    rw [givesFlags_letters (parts.letters letters own).1 (parts.single own)] at given
    exact given letter member
  · intro known word member _
    obtain ⟨letters, own, rfl⟩ := List.mem_map.mp member
    rw [givesFlags_letters (parts.letters letters own).1 (parts.single own)]
    exact fun letter given => known letter ⟨letters, own, given⟩

end Rearranging

namespace Rearranged

variable {words other : List Bytes}

protected theorem symm (rearranged : Rearranged words other) : Rearranged other words := by
  obtain ⟨behind, rest, bundles, otherBundles, parts, otherParts, letters⟩ := rearranged
  exact ⟨behind.symm, rest, otherBundles, bundles, otherParts, parts, letters.symm⟩

theorem operandsIn (rearranged : Rearranged words other) :
    (operandsIn words).Perm (operandsIn other) := by
  obtain ⟨behind, rest, bundles, otherBundles, parts, otherParts, _⟩ := rearranged
  exact parts.operandsIn.trans (behind ▸ otherParts.operandsIn.symm)

theorem flagsIn (rearranged : Rearranged words other) : (flagsIn words).Perm (flagsIn other) := by
  obtain ⟨_, rest, bundles, otherBundles, parts, otherParts, letters⟩ := rearranged
  exact parts.flagsIn.trans (((letters.filterMap _).append_left _).trans otherParts.flagsIn.symm)

theorem onlyFlags (rearranged : Rearranged words other) (known : OnlyFlags words) :
    OnlyFlags other := by
  obtain ⟨_, rest, bundles, otherBundles, parts, otherParts, same⟩ := rearranged
  obtain ⟨others, lettered⟩ := parts.onlyFlags_iff.mp known
  exact otherParts.onlyFlags_iff.mpr
    ⟨others, fun letter own => lettered letter (same.mem_iff.mpr own)⟩

/-- **A rearranged command line asks for a run, too.** -/
theorem asksForRun (rearranged : Rearranged words other) (asks : AsksForRun words) :
    AsksForRun other where
  known := rearranged.onlyFlags asks.known
  once := rearranged.flagsIn.nodup_iff.mp asks.once
  single := rearranged.operandsIn.length_eq ▸ asks.single
  text := fun word member => asks.text word (rearranged.operandsIn.mem_iff.mpr member)

/-- **A rearranged command line asks for the same run.** There is at most one operand, so its place
among the switches does not matter. -/
theorem asked (rearranged : Rearranged words other) (asks : AsksForRun words) :
    asked words = asked other := by
  have same : Arguments.operandsIn words = Arguments.operandsIn other := by
    have order := rearranged.operandsIn
    have single := asks.single
    rcases operands : Arguments.operandsIn words with _ | ⟨operand, _ | ⟨second, rest⟩⟩
    · rw [operands] at order
      exact (List.nil_perm.mp order).symm
    · rw [operands] at order
      exact List.singleton_perm.mp order
    · simp [operands] at single
  unfold Arguments.asked
  simp only [same, rearranged.flagsIn.mem_iff]

end Rearranged

end LowerComments.Arguments
