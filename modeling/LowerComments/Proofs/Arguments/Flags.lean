import LowerComments.Proofs.Arguments.Scan

/-!
# One more flag

What a command line asks for does not hang on where its flags stand. A flag in front of the other
arguments therefore changes nothing of what they ask for and adds itself, as long as it is not
among them (`read_quiet_cons`).
-/

set_option autoImplicit false

namespace LowerComments.Arguments

/-- **The quiet switch in front of arguments that do not ask for quiet adds quiet to what they ask
for, and nothing else.** -/
theorem read_quiet_cons {words : List Bytes} {arguments : Arguments}
    (parsed : read words = .ok arguments) (loud : arguments.quiet = false) :
    read (Bytes.ofString "-q" :: words) = .ok { arguments with quiet := true } := by
  obtain ⟨asks, rfl⟩ := read_eq_ok_iff_asked.mp parsed
  have goes : Bytes.ofString "-q" ≠ ending := by decide +kernel
  have switch : isSwitch (Bytes.ofString "-q") = true := by decide +kernel
  have given : flagsOf (Bytes.ofString "-q") = [.quiet] := by decide +kernel
  have gives : GivesFlags (Bytes.ofString "-q") :=
    .inr ⟨Bytes.ofString "q", by decide +kernel, by decide +kernel, by decide +kernel⟩
  have flags : flagsIn (Bytes.ofString "-q" :: words) = .quiet :: flagsIn words := by
    rw [flagsIn_cons goes, switch, given]
    rfl
  have operands : operandsIn (Bytes.ofString "-q" :: words) = operandsIn words := by
    rw [operandsIn_cons goes, switch]
    rfl
  have unset : Flag.quiet ∉ flagsIn words := by simpa [asked] using loud
  refine read_eq_ok_iff_asked.mpr ⟨⟨(onlyFlags_cons goes).mpr ⟨fun _ => gives, asks.known⟩,
    ?_, ?_, ?_⟩, ?_⟩
  · rw [flags]
    exact List.nodup_cons.mpr ⟨unset, asks.once⟩
  · exact operands ▸ asks.single
  · exact operands ▸ asks.text
  · simp [asked, flags, operands]

end LowerComments.Arguments
