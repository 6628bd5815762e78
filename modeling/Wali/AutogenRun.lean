import Wali.ArchDiff
import Wali.FileRuns
import Wali.LibcStubs
import Wali.RowLocality
import Wali.TemplateFilling
import Wali.TypeFile
import Wali.WamrStubs

/-!
`parse_args` and `main` of `autogen.py`: the selected generators, one after another,
and the files that each of them writes.
-/

namespace Wali.AutogenRun

open Wali.ArchDiff
open Wali.ArrayExpansion
open Wali.FileRuns
open Wali.InsertionDict
open Wali.LibcStubs
open Wali.MarkdownStubs
open Wali.PythonText
open Wali.RegexMatching
open Wali.RowLocality
open Wali.RunOutcome
open Wali.RunOutcome.Outcome
open Wali.StubEmission
open Wali.SyscallTable
open Wali.TemplateFilling
open Wali.TypeFile
open Wali.TypeTemplates
open Wali.WamrStubs
open Wali.WitStubs

section Arguments

/-- The generators of `stub_classes`. -/
inductive StubClass
  | libc
  | wamr
  | wit
  | archDiff
  | markdown
  deriving DecidableEq

/-- The key of a generator, which is also its directory. -/
def StubClass.key : StubClass → Text
  | libc => "libc"
  | wamr => "wamr"
  | wit => "wit"
  | archDiff => "arch-diff"
  | markdown => "markdown"

/-- `stub_classes.keys()` -/
def stubClasses : List StubClass := [.libc, .wamr, .wit, .archDiff, .markdown]

inductive StubArg
  | stub (s : StubClass)
  | all
  deriving DecidableEq

/-- `choices` of the argument `stubs`; another text ends the run. -/
def stubArg (x : Text) : Outcome PyErr StubArg :=
  if x = "all" then returns .all
  else ofOption (.systemExit 2) ((stubClasses.find? (·.key = x)).map .stub)

def StubArg.stub? : StubArg → Option StubClass
  | stub s => some s
  | all => none

/-- `p.stubs` for the positional arguments of the command line. -/
def parseArgs (args : List Text) : Outcome PyErr (List StubClass) := do
  let stubs ← forEach stubArg args
  returns (if stubs = [] ∨ .all ∈ stubs then stubClasses else stubs.filterMap StubArg.stub?)

/-- The generator is selected by the arguments. -/
def Selected (args : List Text) (k : StubClass) : Prop :=
  args = [] ∨ "all".toList ∈ args ∨ k.key ∈ args

theorem key_injective {k k' : StubClass} (h : k.key = k'.key) : k = k' := by
  cases k <;> cases k' <;> first | rfl | exact absurd h (by decide)

theorem stubArg_all : stubArg "all" = returns .all := if_pos rfl

theorem stubArg_key (k : StubClass) : stubArg k.key = returns (.stub k) := by
  cases k <;> rfl

theorem eq_of_stubArg {x : Text} {arg : StubArg} (h : stubArg x = returns arg) :
    arg = .all ∧ x = "all" ∨ ∃ k : StubClass, arg = .stub k ∧ x = k.key := by
  unfold stubArg at h
  split at h
  · next hx =>
      cases h
      exact .inl ⟨rfl, hx⟩
  · obtain ⟨k, hk, rfl⟩ := Option.map_eq_some_iff.mp (ofOption_eq_returns_iff.mp h)
    exact .inr ⟨k, rfl, (by simpa using List.find?_some hk : k.key = x).symm⟩

theorem mem_parseArgs {args : List Text} {stubs : List StubClass}
    (h : parseArgs args = returns stubs) (k : StubClass) : k ∈ stubs ↔ Selected args k := by
  obtain ⟨chosen, hchosen, heq⟩ := bind_eq_returns_iff.mp h
  have hall : .all ∈ chosen ↔ "all".toList ∈ args := by
    constructor
    · intro hmem
      obtain ⟨x, hx, hstub⟩ := exists_of_mem_forEach hchosen hmem
      rcases eq_of_stubArg hstub with ⟨_, rfl⟩ | ⟨_, hk, _⟩
      · exact hx
      · cases hk
    · intro hmem
      obtain ⟨arg, harg, hstub⟩ := exists_mem_of_forEach hchosen hmem
      rw [stubArg_all] at hstub
      cases hstub
      exact harg
  have hkey : .stub k ∈ chosen ↔ k.key ∈ args := by
    constructor
    · intro hmem
      obtain ⟨x, hx, hstub⟩ := exists_of_mem_forEach hchosen hmem
      rcases eq_of_stubArg hstub with ⟨hk, _⟩ | ⟨_, hk, rfl⟩
      · cases hk
      · cases hk
        exact hx
    · intro hmem
      obtain ⟨arg, harg, hstub⟩ := exists_mem_of_forEach hchosen hmem
      rw [stubArg_key] at hstub
      cases hstub
      exact harg
  have hnil : chosen = [] ↔ args = [] := by
    rw [← List.length_eq_zero_iff, ← List.length_eq_zero_iff, length_of_forEach hchosen]
  cases heq
  unfold Selected
  split
  · next hdefault =>
      have hmem : k ∈ stubClasses := by cases k <;> decide
      rw [hnil, hall] at hdefault
      simp only [hmem, true_iff]
      exact hdefault.imp id .inl
  · next hdefault =>
      rw [hnil, hall, not_or] at hdefault
      simp only [hdefault.1, hdefault.2, false_or, ← hkey, List.mem_filterMap]
      constructor
      · rintro ⟨arg, harg, hstub⟩
        cases arg with
        | all => cases hstub
        | stub k' =>
            cases hstub
            exact harg
      · exact fun hmem => ⟨_, hmem, rfl⟩

/-- Every argument is among the choices. -/
theorem finishes_parseArgs_iff {args : List Text} :
    (parseArgs args).Finishes ↔ ∀ x ∈ args, x = "all" ∨ ∃ k : StubClass, x = k.key := by
  have hargs : (parseArgs args).Finishes ↔ (forEach stubArg args).Finishes := by
    rw [parseArgs, finishes_bind_iff]
    exact exists_congr fun stubs => and_iff_left (finishes_returns _)
  rw [hargs, finishes_forEach_iff]
  refine forall₂_congr fun x _ => ?_
  constructor
  · rintro ⟨arg, harg⟩
    exact (eq_of_stubArg harg).imp And.right fun ⟨k, _, hk⟩ => ⟨k, hk⟩
  · rintro (rfl | ⟨k, rfl⟩)
    · exact ⟨_, stubArg_all⟩
    · exact ⟨_, stubArg_key k⟩

end Arguments

section Run

/-- The files that a run reads and what it takes from elsewhere: the table of `system_calls`,
the method `to_markdown` of a data frame, and how many copies of a text fit in memory. -/
structure Inputs where
  primitives : Text
  complex : Text
  records : Text
  witTemplate : Text
  supportTemplate : Text
  table : CsvTable
  archs_nodup : table.archs.Nodup
  syscalls : SystemCalls
  toMarkdown : List SupportRow → Text
  fits : Nat → Text → Bool

namespace Inputs

variable (inputs : Inputs)

def templates : Templates := ⟨parseTypeFile inputs.primitives, parseTypeFile inputs.complex⟩

def syscallInfo : List (SyscallRow Cell) := inputs.table.parseCsv.1

def archs : List Text := inputs.table.parseCsv.2

end Inputs

/-- The parts of a path. -/
abbrev Path := List Text

/-- A file is opened when its text is complete. -/
def write {α : Type} (path : Path) (contents : Outcome PyErr α) (text : α → Text) :
    Put PyErr Path Text :=
  ⟨path, contents >>= fun entries => returns (text entries)⟩

/-- A file is opened, which empties it, before its text is complete. -/
def openThenWrite {α : Type} (path : Path) (contents : Outcome PyErr α)
    (text : α → Outcome PyErr Text) : List (Put PyErr Path Text) :=
  [write path contents fun _ => [], ⟨path, contents >>= text⟩]

def libcPuts (T : Templates) (syscallInfo : List (SyscallRow Cell)) : List (Put PyErr Path Text) :=
  [write ["libc", "defs.out"] (syscallIter T syscallInfo (defStub T)) fun defs =>
      LibcFiles.defsOut { defs, cases := [], rustDefs := [], rustMatch := [] },
    write ["libc", "case.out"] (syscallIter T syscallInfo (caseStub T)) fun cases =>
      LibcFiles.caseOut { defs := [], cases, rustDefs := [], rustMatch := [] },
    write ["libc", "rust", "defs.out"] (syscallIter T syscallInfo (rustDefStub T)) fun rustDefs =>
      LibcFiles.rustDefsOut { defs := [], cases := [], rustDefs, rustMatch := [] },
    write ["libc", "rust", "match.out"] (syscallIter T syscallInfo rustMatchStub) fun rustMatch =>
      LibcFiles.rustMatchOut { defs := [], cases := [], rustDefs := [], rustMatch }]

def wamrPuts (T : Templates) (syscallInfo : List (SyscallRow Cell)) : List (Put PyErr Path Text) :=
  [write ["wamr", "declr.out"] (syscallIter T syscallInfo declrStub) fun declr =>
      WamrFiles.declrOut { declr, impl := [], symbols := [] },
    write ["wamr", "impl.out"] (syscallIter T syscallInfo implStub) fun impl =>
      WamrFiles.implOut { declr := [], impl, symbols := [] },
    write ["wamr", "symbols.out"] (syscallIter T syscallInfo symbolsStub) fun symbols =>
      WamrFiles.symbolsOut { declr := [], impl := [], symbols }]

def archPath (arch : Text) : Path := ["arch-diff", arch ++ "_undefined.out"]

/-- Here the file is opened before its lines are joined. -/
def archDiffPuts (syscallInfo : List (SyscallRow Cell)) (archs : List Text) :
    List (Put PyErr Path Text) :=
  archs.zipIdx.flatMap fun (arch, i) =>
    openThenWrite (archPath arch) (bufs syscallInfo archs) fun bufs => bufText (bufs.getD i [])

def witPath : Path := ["wit", "wali.wit"]

/-- Here the file is opened before the arrays of the filled template are rewritten. -/
def witPuts (inputs : Inputs) : List (Put PyErr Path Text) :=
  openThenWrite witPath (genWitStubs inputs.templates inputs.records inputs.syscallInfo)
    fun wit => subArrays inputs.fits (fillWit inputs.witTemplate wit)

/-- What a generator writes. -/
def stubPuts (inputs : Inputs) : StubClass → List (Put PyErr Path Text)
  | .libc => libcPuts inputs.templates inputs.syscallInfo
  | .wamr => wamrPuts inputs.templates inputs.syscallInfo
  | .wit => witPuts inputs
  | .archDiff => archDiffPuts inputs.syscallInfo inputs.archs
  | .markdown =>
      [write ["markdown", "support.md"]
        (genMarkdownStubs inputs.syscalls inputs.syscallInfo inputs.archs)
        (supportText inputs.toMarkdown inputs.supportTemplate)]

def main (inputs : Inputs) (args : List Text) (files : Files Path Text) :
    FileRun PyErr Path Text :=
  match parseArgs args with
  | returns stubs => putAll (stubs.flatMap (stubPuts inputs)) files
  | raises error => ⟨raises error, files⟩
  | diverges => ⟨diverges, files⟩

end Run

section Outputs

def libcOuts (files : LibcFiles) : List (Path × Text) :=
  [(["libc", "defs.out"], files.defsOut), (["libc", "case.out"], files.caseOut),
    (["libc", "rust", "defs.out"], files.rustDefsOut),
    (["libc", "rust", "match.out"], files.rustMatchOut)]

def wamrOuts (files : WamrFiles) : List (Path × Text) :=
  [(["wamr", "declr.out"], files.declrOut), (["wamr", "impl.out"], files.implOut),
    (["wamr", "symbols.out"], files.symbolsOut)]

/-- The files of the architectures in order -/
def archOuts (archs texts : List Text) : List (Path × Text) := (archs.map archPath).zip texts

/-- What a generator computes: the files with their texts. -/
def outputs (inputs : Inputs) : StubClass → Outcome PyErr (List (Path × Text))
  | .libc => do
      let files ← genLibcStubs inputs.templates inputs.syscallInfo
      returns (libcOuts files)
  | .wamr => do
      let files ← genWamrStubs inputs.templates inputs.syscallInfo
      returns (wamrOuts files)
  | .wit => do
      let wit ← genWitStubs inputs.templates inputs.records inputs.syscallInfo
      let text ← subArrays inputs.fits (fillWit inputs.witTemplate wit)
      returns [(witPath, text)]
  | .archDiff => do
      let texts ← genArchDiffStubs inputs.syscallInfo inputs.archs
      returns (archOuts inputs.archs texts)
  | .markdown => do
      let report ← genMarkdownStubs inputs.syscalls inputs.syscallInfo inputs.archs
      returns [(["markdown", "support.md"],
        supportText inputs.toMarkdown inputs.supportTemplate report)]

variable {inputs : Inputs} {k : StubClass} {path : Path} {outs : List (Path × Text)}
  {T : Templates} {rows : List (SyscallRow Cell)} {archs : List Text}

theorem head_path {put : Put PyErr Path Text} (h : put ∈ stubPuts inputs k) :
    put.path.head? = some k.key := by
  cases k with
  | libc =>
      simp only [stubPuts, libcPuts, List.mem_cons, List.not_mem_nil, or_false] at h
      rcases h with rfl | rfl | rfl | rfl <;> rfl
  | wamr =>
      simp only [stubPuts, wamrPuts, List.mem_cons, List.not_mem_nil, or_false] at h
      rcases h with rfl | rfl | rfl <;> rfl
  | wit =>
      rcases List.mem_pair.mp h with rfl | rfl <;> rfl
  | archDiff =>
      obtain ⟨arch, _, h⟩ := List.mem_flatMap.mp h
      rcases List.mem_pair.mp h with rfl | rfl <;> rfl
  | markdown =>
      obtain rfl := List.mem_singleton.mp h
      rfl

/-- Different generators write different files. -/
theorem apart_stubPuts (inputs : Inputs) : Apart (stubPuts inputs) := by
  intro k k' put hput put' hput' hpath
  have hkey := head_path hput
  rw [hpath, head_path hput'] at hkey
  exact key_injective (Option.some.inj hkey).symm

theorem finishes_write_iff {α : Type} {contents : Outcome PyErr α} {text : α → Text} :
    (write path contents text).contents.Finishes ↔ contents.Finishes := by
  rw [write, finishes_bind_iff]
  exact exists_congr fun entries => and_iff_left (finishes_returns _)

theorem finished_openThenWrite_iff {α : Type} {contents : Outcome PyErr α}
    {text : α → Outcome PyErr Text} :
    Finished (openThenWrite path contents text) ↔ (contents >>= text).Finishes := by
  simp only [Finished, openThenWrite, List.forall_mem_cons, finishes_write_iff]
  constructor
  · exact fun h => h.2.1
  · intro h
    obtain ⟨a, ha, _⟩ := finishes_bind_iff.mp h
    exact ⟨⟨a, ha⟩, h, fun _ hput => absurd hput List.not_mem_nil⟩

theorem openThenWrite_of_returns {α : Type} {contents : Outcome PyErr α} {a : α} {text : Text}
    {render : α → Outcome PyErr Text} (ha : contents = returns a)
    (htext : render a = returns text) :
    openThenWrite path contents render = settled [(path, []), (path, text)] := by
  rw [openThenWrite, write, ha, returns_bind, returns_bind, htext]
  rfl

/-- The text of `wali.wit`, where all arrays of the filled template can be rewritten -/
theorem outputs_wit_eq_returns_iff :
    outputs inputs .wit = returns outs ↔
      ∃ wit, genWitStubs inputs.templates inputs.records inputs.syscallInfo = returns wit ∧
        ArraysFit inputs.fits (fillWit inputs.witTemplate wit) ∧
        outs = [(witPath, witText inputs.witTemplate wit)] := by
  simp only [outputs, bind_eq_returns_iff, subArrays_eq_returns_iff, returns.injEq]
  refine exists_congr fun wit => and_congr_right fun _ => ?_
  constructor
  · rintro ⟨_, ⟨hfit, rfl⟩, rfl⟩
    exact ⟨hfit, rfl⟩
  · rintro ⟨hfit, rfl⟩
    exact ⟨_, ⟨hfit, rfl⟩, rfl⟩

theorem finishes_outputs_wit_iff :
    (outputs inputs .wit).Finishes ↔
      ∃ wit, genWitStubs inputs.templates inputs.records inputs.syscallInfo = returns wit ∧
        ArraysFit inputs.fits (fillWit inputs.witTemplate wit) := by
  constructor
  · rintro ⟨outs, houts⟩
    obtain ⟨wit, hwit, hfit, _⟩ := outputs_wit_eq_returns_iff.mp houts
    exact ⟨wit, hwit, hfit⟩
  · rintro ⟨wit, hwit, hfit⟩
    exact ⟨_, outputs_wit_eq_returns_iff.mpr ⟨wit, hwit, hfit, rfl⟩⟩

theorem libcPuts_of_returns {files : LibcFiles} (h : genLibcStubs T rows = returns files) :
    libcPuts T rows = settled (libcOuts files) := by
  obtain ⟨hdefs, hcases, hrust, hmatch⟩ := genLibcStubs_eq_returns_iff.mp h
  unfold libcPuts write
  rw [hdefs, hcases, hrust, hmatch]
  rfl

theorem finishes_of_libcPuts (h : Finished (libcPuts T rows)) : (genLibcStubs T rows).Finishes := by
  simp only [Finished, libcPuts, List.forall_mem_cons, finishes_write_iff] at h
  obtain ⟨⟨_, hdefs⟩, ⟨_, hcases⟩, ⟨_, hrust⟩, ⟨_, hmatch⟩, _⟩ := h
  exact ⟨⟨_, _, _, _⟩, genLibcStubs_eq_returns_iff.mpr ⟨hdefs, hcases, hrust, hmatch⟩⟩

theorem wamrPuts_of_returns {files : WamrFiles} (h : genWamrStubs T rows = returns files) :
    wamrPuts T rows = settled (wamrOuts files) := by
  obtain ⟨hdeclr, himpl, hsymbols⟩ := genWamrStubs_eq_returns_iff.mp h
  unfold wamrPuts write
  rw [hdeclr, himpl, hsymbols]
  rfl

theorem finishes_of_wamrPuts (h : Finished (wamrPuts T rows)) : (genWamrStubs T rows).Finishes := by
  simp only [Finished, wamrPuts, List.forall_mem_cons, finishes_write_iff] at h
  obtain ⟨⟨_, hdeclr⟩, ⟨_, himpl⟩, ⟨_, hsymbols⟩, _⟩ := h
  exact ⟨⟨_, _, _⟩, genWamrStubs_eq_returns_iff.mpr ⟨hdeclr, himpl, hsymbols⟩⟩

theorem witPuts_of_returns {wit : WitInterface}
    (hwit : genWitStubs inputs.templates inputs.records inputs.syscallInfo = returns wit)
    (hfit : ArraysFit inputs.fits (fillWit inputs.witTemplate wit)) :
    witPuts inputs = settled [(witPath, []), (witPath, witText inputs.witTemplate wit)] :=
  openThenWrite_of_returns hwit (subArrays_eq_returns_iff.mpr ⟨hfit, rfl⟩)

theorem archPath_injective : Function.Injective archPath := by
  intro a b h
  exact List.append_cancel_right (List.cons.inj (List.cons.inj h).2).1

theorem archOuts_eq_map {texts : List Text} (hlength : texts.length = archs.length) :
    archOuts archs texts =
      archs.zipIdx.map fun arch => (archPath arch.1, texts.getD arch.2 []) := by
  refine List.ext_getElem (by simp [archOuts, hlength]) fun i hi hi' => ?_
  have htext : i < texts.length := by
    simp at hi'
    omega
  simp [archOuts, List.getD_eq_getElem?_getD, List.getElem?_eq_getElem htext]

theorem length_bufs {bufs : List (List Cell)} (h : ArchDiff.bufs rows archs = returns bufs) :
    bufs.length = archs.length := by
  obtain ⟨_, _, heq⟩ := bind_eq_returns_iff.mp h
  cases heq
  simp

theorem length_texts {texts : List Text} (h : genArchDiffStubs rows archs = returns texts) :
    texts.length = archs.length := by
  obtain ⟨bufs, hbufs, htexts⟩ := bind_eq_returns_iff.mp h
  rw [length_of_forEach htexts, length_bufs hbufs]

theorem archDiffPuts_of_returns {texts : List Text}
    (h : genArchDiffStubs rows archs = returns texts) :
    archDiffPuts rows archs =
      settled ((archOuts archs texts).flatMap fun out => [(out.1, []), out]) := by
  obtain ⟨bufs, hbufs, htexts⟩ := bind_eq_returns_iff.mp h
  have hlength := length_texts h
  rw [archOuts_eq_map hlength, List.flatMap_map, settled, List.map_flatMap, archDiffPuts]
  refine List.flatMap_congr fun ⟨arch, i⟩ harch => ?_
  have hi : i < archs.length :=
    (List.getElem?_eq_some_iff.mp (List.mk_mem_zipIdx_iff_getElem?.mp harch)).1
  have htext : bufText (bufs.getD i []) = returns (texts.getD i []) := by
    have hbuf : i < bufs.length := by rwa [length_bufs hbufs]
    have hline : i < texts.length := by rwa [hlength]
    rw [List.getD_eq_getElem?_getD, List.getD_eq_getElem?_getD, List.getElem?_eq_getElem hbuf,
      List.getElem?_eq_getElem hline]
    exact getElem?_of_forEach htexts (List.getElem?_eq_getElem hbuf)
      (List.getElem?_eq_getElem hline)
  exact openThenWrite_of_returns hbufs htext

theorem finishes_of_archDiffPuts (h : Finished (archDiffPuts rows archs)) :
    (genArchDiffStubs rows archs).Finishes := by
  have htexts : ∀ arch i, (arch, i) ∈ archs.zipIdx →
      (bufs rows archs >>= fun bufs => bufText (bufs.getD i [])).Finishes := by
    intro arch i harch
    exact finished_openThenWrite_iff.mp (finished_flatMap_iff.mp h (arch, i) harch)
  have hbufs : (bufs rows archs).Finishes := by
    cases archs with
    | nil =>
        have hrounds : (forEach (fun sc => forEach (undefinedCell sc) [].zipIdx) rows).Finishes :=
          finishes_forEach_iff.mpr fun _ _ => finishes_returns []
        obtain ⟨rounds, hrounds⟩ := hrounds
        exact finishes_bind_iff.mpr ⟨rounds, hrounds, finishes_returns _⟩
    | cons arch archs =>
        obtain ⟨buffers, hbuffers, _⟩ :=
          finishes_bind_iff.mp (htexts arch 0 (by simp [List.zipIdx_cons]))
        exact ⟨buffers, hbuffers⟩
  obtain ⟨bufs, hbufs⟩ := hbufs
  refine finishes_bind_iff.mpr ⟨bufs, hbufs, finishes_forEach_iff.mpr fun buf hbuf => ?_⟩
  obtain ⟨i, hi, rfl⟩ := List.getElem_of_mem hbuf
  have harch : i < archs.length := by rwa [← length_bufs hbufs]
  have htext := htexts archs[i] i
    (List.mk_mem_zipIdx_iff_getElem?.mpr (List.getElem?_eq_getElem harch))
  rw [hbufs, returns_bind, List.getD_eq_getElem?_getD, List.getElem?_eq_getElem hi] at htext
  exact htext

/-- The jobs of a generator write what it computes. -/
theorem stubPuts_of_outputs (h : outputs inputs k = returns outs) :
    Finished (stubPuts inputs k) ∧
      ∀ path, lastText path (written (stubPuts inputs k)) = find path outs := by
  have hsettled : ∀ puts : List (Put PyErr Path Text), puts = settled outs →
      (outs.map Prod.fst).Nodup →
      Finished puts ∧ ∀ path, lastText path (written puts) = find path outs := by
    rintro _ rfl hnodup
    rw [written_settled]
    exact ⟨finished_settled outs, fun path => lastText_of_nodup hnodup⟩
  have hemptied : ∀ puts : List (Put PyErr Path Text),
      puts = settled (outs.flatMap fun out => [(out.1, []), out]) → (outs.map Prod.fst).Nodup →
      Finished puts ∧ ∀ path, lastText path (written puts) = find path outs := by
    rintro _ rfl hnodup
    rw [written_settled]
    exact ⟨finished_settled _, fun path => lastText_emptied hnodup⟩
  cases k with
  | libc =>
      obtain ⟨files, hfiles, heq⟩ := bind_eq_returns_iff.mp h
      cases heq
      exact hsettled _ (libcPuts_of_returns hfiles) (by simp [libcOuts])
  | wamr =>
      obtain ⟨files, hfiles, heq⟩ := bind_eq_returns_iff.mp h
      cases heq
      exact hsettled _ (wamrPuts_of_returns hfiles) (by simp [wamrOuts])
  | wit =>
      obtain ⟨wit, hwit, hfit, rfl⟩ := outputs_wit_eq_returns_iff.mp h
      exact hemptied _ (witPuts_of_returns hwit hfit) (List.nodup_singleton _)
  | archDiff =>
      obtain ⟨texts, htexts, heq⟩ := bind_eq_returns_iff.mp h
      cases heq
      have hpaths : ((archOuts inputs.archs texts).map Prod.fst).Nodup := by
        rw [archOuts, List.map_fst_zip (by simp [length_texts htexts])]
        exact inputs.archs_nodup.map archPath_injective
      exact hemptied _ (archDiffPuts_of_returns htexts) hpaths
  | markdown =>
      obtain ⟨report, hreport, heq⟩ := bind_eq_returns_iff.mp h
      cases heq
      refine hsettled _ ?_ (by simp)
      rw [stubPuts, write, hreport]
      rfl

theorem finishes_outputs_iff {α : Type} {x : Outcome PyErr α} (f : α → List (Path × Text)) :
    (x >>= fun a => (returns (f a) : Outcome PyErr _)).Finishes ↔ x.Finishes := by
  rw [finishes_bind_iff]
  exact exists_congr fun a => and_iff_left (finishes_returns _)

theorem finished_stubPuts_iff : Finished (stubPuts inputs k) ↔ (outputs inputs k).Finishes := by
  refine ⟨fun h => ?_, fun ⟨outs, houts⟩ => (stubPuts_of_outputs houts).1⟩
  cases k with
  | libc => exact (finishes_outputs_iff _).mpr (finishes_of_libcPuts h)
  | wamr => exact (finishes_outputs_iff _).mpr (finishes_of_wamrPuts h)
  | wit =>
      obtain ⟨wit, hwit, text, htext⟩ := finishes_bind_iff.mp (finished_openThenWrite_iff.mp h)
      exact finishes_outputs_wit_iff.mpr ⟨wit, hwit, (subArrays_eq_returns_iff.mp htext).1⟩
  | archDiff => exact (finishes_outputs_iff _).mpr (finishes_of_archDiffPuts h)
  | markdown =>
      have hreport := h _ (List.mem_singleton_self _)
      exact (finishes_outputs_iff _).mpr (finishes_write_iff.mp hreport)

end Outputs

section Samples

/-- A call with one argument and a call that is not supported, for one architecture -/
def closeTable : CsvTable where
  argColumns := 6
  archs := ["x86_64"]
  rows := [
    { nr := "3", syscall := "close", nargs := "1", argTypes := ["int", "", "", "", "", ""],
      aliases := "", unusedAliases := "", archNrs := ["3"] },
    { nr := "29", syscall := "shmget", nargs := "", argTypes := ["", "", "", "", "", ""],
      aliases := "", unusedAliases := "", archNrs := ["-1"] }]
  argWidth := by decide
  archWidth := by decide

/-- A run on this table and the table of a kernel, if there is one -/
def closeInputs (kernel : Option (List Text)) : Inputs where
  primitives := "type int = s32;\n"
  complex := []
  records := []
  witTemplate := []
  supportTemplate := []
  table := closeTable
  archs_nodup := by decide
  syscalls := fun _ => kernel
  toMarkdown := fun _ => []
  fits := fun _ _ => true

theorem closeInputs_templates (kernel : Option (List Text)) :
    (closeInputs kernel).templates = ⟨Dict.ofList [("int", "s32")], Dict.ofList []⟩ := rfl

def closeDeclrOut : Text :=
  join "\n" ["long wali_syscall_close (wasm_exec_env_t exec_env, long a1);",
    "long wali_syscall_shmget (wasm_exec_env_t exec_env);"]

theorem finishes_closeInputs (kernel : Option (List Text)) :
    (genLibcStubs (closeInputs kernel).templates (closeInputs kernel).syscallInfo).Finishes ∧
    (genWamrStubs (closeInputs kernel).templates (closeInputs kernel).syscallInfo).Finishes ∧
    (genWitStubs (closeInputs kernel).templates [] (closeInputs kernel).syscallInfo).Finishes := by
  rw [closeInputs_templates]
  exact ⟨⟨_, rfl⟩, ⟨_, rfl⟩, ⟨_, rfl⟩⟩

theorem wamr_closeInputs (kernel : Option (List Text)) :
    ∃ outs, outputs (closeInputs kernel) .wamr = returns outs ∧
      find (["wamr", "declr.out"] : Path) outs = some closeDeclrOut := by
  unfold outputs
  rw [closeInputs_templates]
  exact ⟨_, rfl, rfl⟩

theorem markdown_closeInputs : ¬ (outputs (closeInputs none) .markdown).Finishes := by
  rintro ⟨outs, houts⟩
  cases houts

end Samples

section Runs

variable {inputs : Inputs} {args args' : List Text} {stubs stubs' : List StubClass}
  {files files' : Files Path Text}

theorem main_of_parseArgs (hargs : parseArgs args = returns stubs) :
    main inputs args files = putAll (stubs.flatMap (stubPuts inputs)) files := by
  rw [main, hargs]

theorem outcome_eq_returns_iff (hargs : parseArgs args = returns stubs) :
    (main inputs args files).outcome = returns () ↔
      ∀ k ∈ stubs, (outputs inputs k).Finishes := by
  rw [main_of_parseArgs hargs, outcome_putAll_eq_returns_iff, finished_flatMap_iff]
  exact forall₂_congr fun k _ => finished_stubPuts_iff

/-- A run succeeds if all selected generators do; then each file of a selected generator
holds the text that the generator computes, and every other file is as it was. -/
theorem complete_run (hargs : parseArgs args = returns stubs) :
    ((main inputs args files).outcome = returns () ↔
      ∀ k ∈ stubs, (outputs inputs k).Finishes) ∧
    ((main inputs args files).outcome = returns () → ∀ path text,
      (main inputs args files).files path = some text ↔
        (∃ k ∈ stubs, ∃ outs, outputs inputs k = returns outs ∧ find path outs = some text) ∨
          ((∀ k ∈ stubs, ∀ outs, outputs inputs k = returns outs → find path outs = none) ∧
            files path = some text)) := by
  refine ⟨outcome_eq_returns_iff hargs, fun houtcome path text => ?_⟩
  have hfinish := (outcome_eq_returns_iff hargs).mp houtcome
  have hfinished : Finished (stubs.flatMap (stubPuts inputs)) :=
    finished_flatMap_iff.mpr fun k hk => finished_stubPuts_iff.mpr (hfinish k hk)
  have hlast : ∀ k ∈ stubs, ∀ found, lastText path (written (stubPuts inputs k)) = found ↔
      ∃ outs, outputs inputs k = returns outs ∧ find path outs = found := by
    intro k hk found
    obtain ⟨outs, houts⟩ := hfinish k hk
    rw [(stubPuts_of_outputs houts).2, houts]
    simp
  rw [main_of_parseArgs hargs, putAll_blocks_files (apart_stubPuts inputs) hfinished]
  refine or_congr ?_ (and_congr_left fun _ => ?_)
  · exact exists_congr fun k => and_congr_right fun hk => hlast k hk _
  · refine forall₂_congr fun k hk => ?_
    obtain ⟨outs, houts⟩ := hfinish k hk
    rw [(stubPuts_of_outputs houts).2, houts]
    simp

theorem close_declared :
    (main (closeInputs none) ["wamr"] fun _ => none).outcome = returns () ∧
      (main (closeInputs none) ["wamr"] fun _ => none).files ["wamr", "declr.out"] =
        some closeDeclrOut := by
  obtain ⟨outs, houts, hdeclr⟩ := wamr_closeInputs none
  have hargs : parseArgs ["wamr"] = returns [.wamr] := rfl
  have hrun := @complete_run (closeInputs none) _ _ (fun _ => none) hargs
  have houtcome := hrun.1.mpr fun k hk => ⟨outs, List.mem_singleton.mp hk ▸ houts⟩
  exact ⟨houtcome, (hrun.2 houtcome _ _).mpr (.inl ⟨.wamr, by simp, outs, houts, hdeclr⟩)⟩

/-- Whether a run succeeds depends on which generators are selected, not on their order and how
often each is named; nor do the files after a successful run, and a second one changes nothing. -/
theorem runs_converge (hchoices : ∀ x ∈ args, x = "all" ∨ ∃ k : StubClass, x = k.key)
    (hchoices' : ∀ x ∈ args', x = "all" ∨ ∃ k : StubClass, x = k.key)
    (hsame : ∀ k, Selected args k ↔ Selected args' k) :
    ((main inputs args files).outcome = returns () ↔
      (main inputs args' files').outcome = returns ()) ∧
    ((main inputs args files).outcome = returns () →
      main inputs args' files = main inputs args files ∧
        main inputs args' (main inputs args files).files = main inputs args files) := by
  obtain ⟨stubs, hargs⟩ := finishes_parseArgs_iff.mpr hchoices
  obtain ⟨stubs', hargs'⟩ := finishes_parseArgs_iff.mpr hchoices'
  have hmem : ∀ k, k ∈ stubs ↔ k ∈ stubs' := by
    intro k
    rw [mem_parseArgs hargs, mem_parseArgs hargs', hsame]
  refine ⟨?_, fun houtcome => ?_⟩
  · rw [outcome_eq_returns_iff hargs, outcome_eq_returns_iff hargs']
    simp only [hmem]
  have hfinished : Finished (stubs.flatMap (stubPuts inputs)) := by
    rw [main_of_parseArgs hargs] at houtcome
    exact outcome_putAll_eq_returns_iff.mp houtcome
  have hcongr : ∀ files : Files Path Text, main inputs args' files = main inputs args files := by
    intro files
    rw [main_of_parseArgs hargs, main_of_parseArgs hargs']
    exact (putAll_blocks_congr (apart_stubPuts inputs) hmem hfinished).symm
  refine ⟨hcongr files, ?_⟩
  rw [hcongr]
  simp only [main_of_parseArgs hargs]
  exact putAll_putAll _ files

theorem close_runs_converge :
    main (closeInputs none) ["libc", "wamr", "libc"] (fun _ => none) =
        main (closeInputs none) ["wamr", "libc"] (fun _ => none) ∧
      main (closeInputs none) ["libc", "wamr", "libc"]
          (main (closeInputs none) ["wamr", "libc"] fun _ => none).files =
        main (closeInputs none) ["wamr", "libc"] (fun _ => none) := by
  have hargs : parseArgs ["wamr", "libc"] = returns [.wamr, .libc] := rfl
  obtain ⟨hlibc, hwamr, _⟩ := finishes_closeInputs none
  refine (@runs_converge _ _ _ (fun _ => none) (fun _ => none) ?_ ?_ ?_).2 ?_
  · intro x hx
    rcases List.mem_pair.mp hx with rfl | rfl
    exacts [.inr ⟨.wamr, rfl⟩, .inr ⟨.libc, rfl⟩]
  · intro x hx
    simp only [List.mem_cons, List.not_mem_nil, or_false] at hx
    rcases hx with rfl | rfl | rfl
    exacts [.inr ⟨.libc, rfl⟩, .inr ⟨.wamr, rfl⟩, .inr ⟨.libc, rfl⟩]
  · intro k
    simp only [Selected, List.mem_cons, List.not_mem_nil, or_false, reduceCtorEq, false_or]
    tauto
  · rw [outcome_eq_returns_iff hargs]
    intro k hk
    rcases List.mem_pair.mp hk with rfl | rfl
    exacts [(finishes_outputs_iff _).mpr hwamr, (finishes_outputs_iff _).mpr hlibc]

/-- The inputs of a run in which every generator succeeds. -/
structure Acceptable (inputs : Inputs) : Prop where
  rows : ∀ sc ∈ inputs.syscallInfo, AcceptedRow inputs.templates sc
  numbers : ∀ row ∈ inputs.table.rows, row.syscall ≠ [] → ∀ s ∈ row.archNrs, IsNrCell s
  named : inputs.syscallInfo ≠ []
  columns : 6 ≤ inputs.table.argColumns
  kernels : ∀ v ∈ archSupp inputs.archs, (inputs.syscalls v).isSome
  arrays : ∀ wit, genWitStubs inputs.templates inputs.records inputs.syscallInfo = returns wit →
    ArraysFit inputs.fits (fillWit inputs.witTemplate wit)

theorem finishes_archDiff_iff
    (hnames : ¬ IntColumn (inputs.table.column (·.syscall))) :
    (genArchDiffStubs inputs.syscallInfo inputs.archs).Finishes ↔
      ∀ row ∈ inputs.table.rows, row.syscall ≠ [] → ∀ s ∈ row.archNrs, IsNrCell s := by
  have hbufs := fun buffers => @bufs_eq_returns_iff inputs.table hnames buffers
  constructor
  · rintro ⟨texts, htexts⟩
    obtain ⟨buffers, hbuffers, _⟩ := bind_eq_returns_iff.mp htexts
    exact ((hbufs buffers).mp hbuffers).1
  · intro hcells
    refine finishes_bind_iff.mpr ⟨_, (hbufs _).mpr ⟨hcells, rfl⟩, ?_⟩
    refine finishes_forEach_iff.mpr fun buf hbuf => ?_
    obtain ⟨i, _, rfl⟩ := List.mem_map.mp hbuf
    exact ⟨_, bufText_str _⟩

/-- When all generators succeed, for a table whose names are not all numbers. -/
theorem full_run_succeeds_iff
    (hnames : ¬ IntColumn (inputs.table.column (·.syscall)))
    (hargs : parseArgs args = returns stubs) (hall : ∀ k, Selected args k) :
    (main inputs args files).outcome = returns () ↔ Acceptable inputs := by
  have hevery : (∀ k ∈ stubs, (outputs inputs k).Finishes) ↔
      ((outputs inputs .libc).Finishes ∧ (outputs inputs .wamr).Finishes ∧
        (outputs inputs .wit).Finishes) ∧ (outputs inputs .archDiff).Finishes ∧
        (outputs inputs .markdown).Finishes := by
    have hmem : ∀ k, k ∈ stubs := fun k => (mem_parseArgs hargs k).mpr (hall k)
    constructor
    · exact fun h => ⟨⟨h _ (hmem _), h _ (hmem _), h _ (hmem _)⟩, h _ (hmem _), h _ (hmem _)⟩
    · rintro ⟨⟨hlibc, hwamr, hwit⟩, harch, hmarkdown⟩ (_ | _ | _ | _ | _) _
      all_goals assumption
  have hgenerators : (outputs inputs .libc).Finishes ∧ (outputs inputs .wamr).Finishes ∧
      (outputs inputs .wit).Finishes ↔
        (∀ sc ∈ inputs.syscallInfo, AcceptedRow inputs.templates sc) ∧
          ∀ wit, genWitStubs inputs.templates inputs.records inputs.syscallInfo = returns wit →
            ArraysFit inputs.fits (fillWit inputs.witTemplate wit) := by
    rw [← @finishes_generators_iff _ inputs.records, finishes_outputs_wit_iff]
    simp only [outputs, finishes_outputs_iff]
    constructor
    · rintro ⟨hlibc, hwamr, wit, hwit, hfit⟩
      refine ⟨⟨hlibc, hwamr, wit, hwit⟩, fun wit' hwit' => ?_⟩
      rw [hwit] at hwit'
      cases hwit'
      exact hfit
    · rintro ⟨⟨hlibc, hwamr, wit, hwit⟩, hfit⟩
      exact ⟨hlibc, hwamr, wit, hwit, hfit wit hwit⟩
  rw [outcome_eq_returns_iff hargs, hevery, hgenerators]
  simp only [outputs, finishes_outputs_iff, finishes_archDiff_iff hnames,
    finishes_genMarkdownStubs_iff]
  constructor
  · rintro ⟨⟨hrows, harrays⟩, hnumbers, hnamed, hcolumns, hkernels⟩
    exact ⟨hrows, hnumbers, hnamed, (missingColumns_parseCsv hnamed).mp hcolumns, hkernels, harrays⟩
  · rintro ⟨hrows, hnumbers, hnamed, hcolumns, hkernels, harrays⟩
    exact ⟨⟨hrows, harrays⟩, hnumbers, hnamed, (missingColumns_parseCsv hnamed).mpr hcolumns,
      hkernels⟩

theorem close_full_run :
    (main (closeInputs (some [])) [] fun _ => none).outcome = returns () := by
  have hargs : parseArgs [] = returns stubClasses := rfl
  refine (full_run_succeeds_iff (by decide) hargs fun k => .inl rfl).mpr ?_
  exact
    { rows := finishes_generators_iff.mp (finishes_closeInputs (some []))
      numbers := (by decide : ∀ row ∈ closeTable.rows, row.syscall ≠ [] →
        ∀ s ∈ row.archNrs, IsNrCell s)
      named := by decide
      columns := by decide
      kernels := fun _ _ => rfl
      arrays := fun wit _ groups hgroups => absurd hgroups List.not_mem_nil }

theorem bufText_cases (buf : List Cell) :
    (∃ text, bufText buf = returns text) ∨
      bufText buf = raises .typeError ∧ ∃ z, .int z ∈ buf := by
  have hlines : (∃ lines, forEach joinItem buf = returns lines) ∨
      forEach joinItem buf = raises .typeError ∧ ∃ z, .int z ∈ buf := by
    induction buf with
    | nil => exact .inl ⟨[], rfl⟩
    | cons cell buf ih =>
        rcases cell with z | s
        · exact .inr ⟨rfl, z, List.mem_cons_self⟩
        · rcases ih with ⟨lines, hlines⟩ | ⟨hraises, z, hz⟩
          · exact .inl ⟨s :: lines, by rw [forEach, hlines]; rfl⟩
          · exact .inr ⟨by rw [forEach, hraises]; rfl, z, List.mem_cons_of_mem _ hz⟩
  rcases hlines with ⟨lines, hlines⟩ | ⟨hraises, hint⟩
  · exact .inl ⟨join "\n" lines, by rw [bufText, hlines]; rfl⟩
  · exact .inr ⟨by rw [bufText, hraises]; rfl, hint⟩

/-- The lists of the architectures hold names of the table. -/
theorem exists_row_of_mem_bufs {syscallInfo : List (SyscallRow Cell)} {archs : List Text}
    {buffers : List (List Cell)} (h : bufs syscallInfo archs = returns buffers) {i : Nat}
    {cell : Cell} (hcell : cell ∈ buffers.getD i []) : ∃ sc ∈ syscallInfo, sc.syscall = cell := by
  obtain ⟨rounds, hrounds, heq⟩ := bind_eq_returns_iff.mp h
  cases heq
  have hlt : i < archs.length := by
    by_contra hge
    rw [List.getD_eq_getElem?_getD, List.getElem?_eq_none (by simpa using hge)] at hcell
    cases hcell
  rw [List.getD_eq_getElem?_getD, List.getElem?_map, List.getElem?_range hlt, Option.map_some,
    Option.getD_some] at hcell
  obtain ⟨round, hround, hentry⟩ := List.mem_filterMap.mp hcell
  obtain ⟨sc, hsc, hrow⟩ := exists_of_mem_forEach hrounds hround
  obtain ⟨entry, hentry', rfl⟩ : ∃ entry, entry ∈ round ∧ entry = some cell := by
    rw [Option.join_eq_some_iff] at hentry
    exact ⟨some cell, List.mem_of_getElem? hentry, rfl⟩
  obtain ⟨arch, _, hcell⟩ := exists_of_mem_forEach hrow hentry'
  obtain ⟨_, _, hcell⟩ := bind_eq_returns_iff.mp hcell
  obtain ⟨missing, _, hcell⟩ := bind_eq_returns_iff.mp hcell
  refine ⟨sc, hsc, ?_⟩
  cases missing with
  | true => exact Option.some.inj (returns.inj hcell)
  | false => cases hcell

/-- The jobs that give the files their texts: those of a generator without the emptying of the
files that it opens first. -/
def textPuts (inputs : Inputs) : StubClass → List (Put PyErr Path Text)
  | .archDiff => inputs.archs.zipIdx.map fun (arch, i) =>
      ⟨archPath arch, bufs inputs.syscallInfo inputs.archs >>= fun bufs => bufText (bufs.getD i [])⟩
  | .wit => [⟨witPath, genWitStubs inputs.templates inputs.records inputs.syscallInfo >>= fun wit =>
      subArrays inputs.fits (fillWit inputs.witTemplate wit)⟩]
  | k => stubPuts inputs k

/-- The text that a selected generator gives to the file. -/
def Complete (inputs : Inputs) (stubs : List StubClass) (path : Path) (text : Text) : Prop :=
  ∃ k ∈ stubs, ⟨path, returns text⟩ ∈ textPuts inputs k

/-- A file that was opened and got no text: that of an architecture, in a table with a number for
a name, or `wali.wit`, where an array of the filled template cannot be repeated. -/
def Emptied (inputs : Inputs) (path : Path) (text : Text) (error : PyErr) : Prop :=
  text = [] ∧
    (((∃ arch ∈ inputs.archs, path = archPath arch) ∧
        (∃ sc ∈ inputs.syscallInfo, ¬ sc.syscall.IsStr) ∧ error = .typeError) ∨
      (path = witPath ∧ ∃ wit,
        genWitStubs inputs.templates inputs.records inputs.syscallInfo = returns wit ∧
        ∃ groups ∈ findall arrayPattern (fillWit inputs.witTemplate wit),
          repeatError inputs.fits groups = some error))

theorem leaves_openThenWrite {α : Type} {path : Path} {contents : Outcome PyErr α}
    {render : α → Outcome PyErr Text} {good : Path → Text → Prop}
    {broken : Path → Text → PyErr → Prop}
    (hgood : ∀ text, contents >>= render = returns text → good path text)
    (hbroken : ∀ a error, contents = returns a → render a = raises error → broken path [] error)
    (hends : ∀ a, render a ≠ diverges) :
    Leaves good broken (openThenWrite path contents render) := by
  have hopened : ∀ text, (contents >>= fun _ => returns ([] : Text)) = returns text →
      ∃ a, contents = returns a ∧ text = [] := by
    intro text hfirst
    obtain ⟨a, ha, heq⟩ := bind_eq_returns_iff.mp hfirst
    exact ⟨a, ha, (returns.inj heq).symm⟩
  refine leaves_pair hgood ?_ ?_
  · intro text error hfirst hsecond
    obtain ⟨a, ha, rfl⟩ := hopened text hfirst
    rw [ha, returns_bind] at hsecond
    exact hbroken a error ha hsecond
  · intro text hfirst
    obtain ⟨a, ha, _⟩ := hopened text hfirst
    rw [ha, returns_bind]
    exact hends a

theorem leaves_stubPuts {k : StubClass} (hk : k ∈ stubs) :
    Leaves (Complete inputs stubs) (Emptied inputs) (stubPuts inputs k) := by
  have hcomplete : textPuts inputs k = stubPuts inputs k →
      Leaves (Complete inputs stubs) (Emptied inputs) (stubPuts inputs k) := by
    intro hsame
    refine leaves_of_forall fun put hput text htext => ⟨k, hk, ?_⟩
    rw [hsame, ← htext]
    exact hput
  cases k with
  | libc => exact hcomplete rfl
  | wamr => exact hcomplete rfl
  | markdown => exact hcomplete rfl
  | wit =>
      refine leaves_openThenWrite ?_ ?_ fun _ => subArrays_ne_diverges _ _
      · intro text htext
        refine ⟨.wit, hk, List.mem_singleton.mpr ?_⟩
        rw [← htext]
      · intro wit error hwit hraises
        exact ⟨rfl, .inr ⟨rfl, wit, hwit, repeatError_of_subArrays hraises⟩⟩
  | archDiff =>
      refine leaves_flatMap fun ⟨arch, i⟩ harch => leaves_openThenWrite ?_ ?_ ?_
      · intro text htext
        refine ⟨.archDiff, hk, List.mem_map.mpr ⟨(arch, i), harch, ?_⟩⟩
        rw [← htext]
      · intro bufs error hbufs hraises
        have harch' : arch ∈ inputs.archs :=
          List.mem_of_getElem? (List.mk_mem_zipIdx_iff_getElem?.mp harch)
        rcases bufText_cases (bufs.getD i []) with ⟨text, htext⟩ | ⟨htypeError, z, hz⟩
        · rw [htext] at hraises
          cases hraises
        · rw [htypeError] at hraises
          cases hraises
          obtain ⟨sc, hsc, hname⟩ := exists_row_of_mem_bufs hbufs hz
          exact ⟨rfl, .inl ⟨⟨arch, harch', rfl⟩, ⟨sc, hsc, by rw [hname]; exact id⟩, rfl⟩⟩
      · intro bufs hdiverges
        rcases bufText_cases (bufs.getD i []) with ⟨text, htext⟩ | ⟨htypeError, _⟩
        · rw [htext] at hdiverges
          cases hdiverges
        · rw [htypeError] at hdiverges
          cases hdiverges

/-- Whatever way a run ends: a file is as it was or complete, or it was opened, and so emptied,
by a generator that then failed to make its text. -/
theorem interrupted_run (inputs : Inputs) (args : List Text) (files : Files Path Text)
    (path : Path) :
    (main inputs args files).files path = files path ∨
      (∃ stubs text, parseArgs args = returns stubs ∧ Complete inputs stubs path text ∧
        (main inputs args files).files path = some text) ∨
      (∃ text error, Emptied inputs path text error ∧
        (main inputs args files).files path = some text ∧
        (main inputs args files).outcome = raises error) := by
  cases hargs : parseArgs args with
  | raises error => exact .inl (by rw [main, hargs])
  | diverges => exact .inl (by rw [main, hargs])
  | returns stubs =>
      have hleaves : Leaves (Complete inputs stubs) (Emptied inputs)
          (stubs.flatMap (stubPuts inputs)) := leaves_flatMap fun k hk => leaves_stubPuts hk
      rw [main_of_parseArgs hargs, putAll_files, putAll_outcome]
      cases hlast : lastText path (written (stubs.flatMap (stubPuts inputs))) with
      | none => exact .inl rfl
      | some text =>
          rcases hleaves path text hlast with hcomplete | ⟨error, hverdict, hemptied⟩
          · exact .inr (.inl ⟨stubs, text, rfl, hcomplete, rfl⟩)
          · exact .inr (.inr ⟨text, error, hemptied, rfl, hverdict⟩)

/-- A generator that fails stops the run: the files of the generators in front of it are
complete, and no file of a later one is touched. -/
theorem stopped_run {before after : List StubClass} {k : StubClass}
    (hargs : parseArgs args = returns (before ++ k :: after))
    (hbefore : ∀ j ∈ before, (outputs inputs j).Finishes) (hk : ¬ (outputs inputs k).Finishes) :
    (main inputs args files).outcome ≠ returns () ∧
      (∀ j ∈ before, ∀ outs, outputs inputs j = returns outs → ∀ path text,
        find path outs = some text → (main inputs args files).files path = some text) ∧
      ∀ path, path.head? ≠ some k.key → (∀ j ∈ before, path.head? ≠ some j.key) →
        (main inputs args files).files path = files path := by
  have hfinished : Finished (before.flatMap (stubPuts inputs)) :=
    finished_flatMap_iff.mpr fun j hj => finished_stubPuts_iff.mpr (hbefore j hj)
  have hstuck : ¬ Finished (stubPuts inputs k) := finished_stubPuts_iff.not.mpr hk
  have hwritten : written ((before ++ k :: after).flatMap (stubPuts inputs)) =
      (before.flatMap fun j => written (stubPuts inputs j)) ++ written (stubPuts inputs k) := by
    rw [List.flatMap_append, List.flatMap_cons, written_append hfinished,
      (append_of_not_finished hstuck _).1, written_flatMap hfinished]
  refine ⟨?_, fun j hj outs houts path text htext => ?_, fun path hkey hothers => ?_⟩
  · rw [ne_eq, outcome_eq_returns_iff hargs]
    exact fun h => hk (h k (by simp))
  · have hlast := (stubPuts_of_outputs houts).2 path
    rw [htext] at hlast
    have hfirst : lastText path (before.flatMap fun j => written (stubPuts inputs j)) = some text :=
      (lastText_flatMap_iff (apart_stubPuts inputs)).mpr ⟨j, hj, hlast⟩
    have hnone : lastText path (written (stubPuts inputs k)) = none := by
      rw [Option.eq_none_iff_forall_ne_some]
      intro text' htext'
      have hsame := apart_stubPuts inputs k j _ (mem_written (mem_of_lastText htext')) _
        (mem_written (mem_of_lastText hlast)) rfl
      exact hk (hsame ▸ hbefore j hj)
    rw [main_of_parseArgs hargs, putAll_files, hwritten, lastText_append, hnone, hfirst]
    rfl
  · have hnone : ∀ j, path.head? ≠ some j.key →
        ∀ text, (path, text) ∉ written (stubPuts inputs j) :=
      fun j hj text hmem => hj (head_path (mem_written hmem))
    have hlast : lastText path ((before.flatMap fun j => written (stubPuts inputs j)) ++
        written (stubPuts inputs k)) = none := by
      rw [Option.eq_none_iff_forall_ne_some]
      intro text htext
      rcases List.mem_append.mp (mem_of_lastText htext) with hmem | hmem
      · obtain ⟨j, hj, hmem⟩ := List.mem_flatMap.mp hmem
        exact hnone j (hothers j hj) text hmem
      · exact hnone k hkey text hmem
    rw [main_of_parseArgs hargs, putAll_files, hwritten, hlast]
    rfl

theorem close_stopped :
    (main (closeInputs none) ["wamr", "markdown", "wit"] fun _ => none).outcome ≠ returns () ∧
      (main (closeInputs none) ["wamr", "markdown", "wit"] fun _ => none).files
        ["wamr", "declr.out"] = some closeDeclrOut ∧
      (main (closeInputs none) ["wamr", "markdown", "wit"] fun _ => none).files
        ["wit", "wali.wit"] = none := by
  obtain ⟨outs, houts, hdeclr⟩ := wamr_closeInputs none
  have hargs : parseArgs ["wamr", "markdown", "wit"] = returns ([.wamr] ++ .markdown :: [.wit]) :=
    rfl
  obtain ⟨houtcome, hbefore, hafter⟩ :=
    @stopped_run (closeInputs none) _ (fun _ => none) _ _ _ hargs
    (fun j hj => ⟨outs, List.mem_singleton.mp hj ▸ houts⟩) markdown_closeInputs
  exact ⟨houtcome, hbefore .wamr (by simp) outs houts _ _ hdeclr, hafter _ (by decide) (by decide)⟩

end Runs

end Wali.AutogenRun
