import Wali.AssignmentLines
import Wali.FileRuns
import Wali.ToolchainLocations

/-!
The texts that `gen_toolchains.py` writes, and what make, bash and CMake read from them:
the assignments of the three files. A run writes all of them or none.
-/

namespace Wali.ToolchainTexts

open Wali.AssignmentLines
open Wali.FileRuns
open Wali.IndentedText
open Wali.InsertionDict
open Wali.PythonFormat
open Wali.PythonText
open Wali.RunOutcome
open Wali.RunOutcome.Outcome
open Wali.ToolchainFiles
open Wali.ToolchainLocations

section Languages

/-- Blanks and operators end a word of bash; an opening parenthesis begins a text that
belongs to the word. Words with quotation marks or escapes in them are not read. -/
def bashEnds : List Char := [' ', '\t', ';', '&', '|', '<', '>', ')', '"', '\'', '\\', '`']

def cmakeEnds : List Char := [' ', '\t', '(', ')', '#', '"', '\\']

/-- `NAME := value` -/
def makeStatement : Statement where
  head := []
  op := ":="
  tail := []
  spaced := true
  isName := isNameChar
  value := lineValue '#'

/-- `export NAME=value` -/
def bashStatement : Statement where
  head := "export "
  op := "="
  tail := []
  spaced := false
  isName := isNameChar
  value := wordValue bashEnds true

/-- `set (NAME value)` -/
def cmakeStatement : Statement where
  head := "set ("
  op := []
  tail := ")"
  spaced := true
  isName := isNameChar
  value := wordValue cmakeEnds false

end Languages

section Texts

variable (cfg : WaliToml) (flags : FlagTexts)

/-- `NAME = value`, which make expands where the variable is used -/
def lazyAssignment (name value : Text) : Line := .text (name ++ (" = " ++ value))

def makeLines : List Line :=
  [.text "# Auto-generated by gen_configs.py — Include this file in other makefiles",
    .assign "mkfile_path" 1 false "$(abspath $(lastword $(MAKEFILE_LIST)))",
    .text [],
    .assign "WALI_ROOT_DIR" 2 false "$(patsubst %/,%, $(dir $(mkfile_path)))/..",
    .assign "WALI_BUILD_DIR" 1 false ("$(WALI_ROOT_DIR)/" ++ cfg.root),
    .text [],
    .text "# ---- Build Artifact Directories ---- #",
    .assign "WALI_LLVM_DIR" 4 false ("$(WALI_BUILD_DIR)/" ++ cfg.llvm),
    .assign "WALI_SYSROOT_DIR" 1 false ("$(WALI_BUILD_DIR)/" ++ cfg.sysroot),
    .assign "WALI_LIBCXX_DIR" 2 false ("$(WALI_BUILD_DIR)/" ++ cfg.libcxx),
    .text [],
    .text "# ---- Compiler/Linker Toolchain Binaries ---- #",
    .assign "WALI_LLVM_BIN_DIR" 1 false "$(WALI_LLVM_DIR)/bin",
    .assign "WALI_CC" 5 false "$(WALI_LLVM_BIN_DIR)/clang",
    .assign "WALI_CXX" 4 false "$(WALI_LLVM_BIN_DIR)/clang++",
    .assign "WALI_LD" 5 false "$(WALI_LLVM_BIN_DIR)/wasm-ld",
    .assign "WALI_AR" 5 false "$(WALI_LLVM_BIN_DIR)/llvm-ar",
    .assign "WALI_RANLIB" 1 false "$(WALI_LLVM_BIN_DIR)/llvm-ranlib",
    .text [],
    .assign "WALI_COMMON_CFLAGS" 3 false flags.cflags,
    .assign "WALI_COMMON_CXXFLAGS" 1 false flags.cxxflags,
    .assign "WALI_COMMON_LDFLAGS" 2 false flags.ldflags,
    .assign "WALI_TARGET" 10 false cfg.triple,
    .assign "WALI_TARGET_NOVENDOR" 1 false cfg.targetNovendor,
    .text [],
    .text "# --- Libclang RT --- #",
    lazyAssignment "WALI_LLVM_MAJOR_VERSION"
      "$(shell $(WALI_LLVM_BIN_DIR)/llvm-config --version | cut -d '.' -f 1)",
    lazyAssignment "WALI_LIBCLANG_RT_LIB"
      ("$(WALI_LLVM_DIR)/lib/clang/$(WALI_LLVM_MAJOR_VERSION)/lib/" ++
        (cfg.triple ++ "/libclang_rt.builtins.a")),
    .text [],
    .text "#.PHONY: print-vars",
    .text "#print-vars:",
    .text "#\t@echo WALI_ROOT_DIR=$(WALI_ROOT_DIR)",
    .text "#\t@echo WALI_CC=$(WALI_CC)",
    .text "#\t@echo WALI_CFLAGS=$(WALI_COMMON_CFLAGS)",
    .text "#\t@echo WALI_CXXFLAGS=$(WALI_COMMON_CXXFLAGS)",
    .text "#\t@echo WALI_LDFLAGS=$(WALI_COMMON_LDFLAGS)"]

def bashLines : List Line :=
  [.text "#!/usr/bin/env bash",
    .text "# Auto-generated by gen_configs.py — source this file",
    .text "set -euo pipefail",
    .text [],
    .assign "WALI_ROOT_DIR" 0 false "$(dirname $(realpath $\x7bBASH_SOURCE\x7d))/..",
    .assign "WALI_BUILD_DIR" 0 false ("$WALI_ROOT_DIR/" ++ cfg.root),
    .text [],
    .text "# Build Artifact Directories",
    .assign "WALI_LLVM_DIR" 0 false ("$WALI_BUILD_DIR/" ++ cfg.llvm),
    .assign "WALI_SYSROOT_DIR" 0 false ("$WALI_BUILD_DIR/" ++ cfg.sysroot),
    .assign "WALI_LIBCXX_DIR" 0 false ("$WALI_BUILD_DIR/" ++ cfg.libcxx),
    .text [],
    .text "# LLVM Tools",
    .assign "WALI_LLVM_BIN_DIR" 0 false "$WALI_LLVM_DIR/bin",
    .assign "WALI_CC" 0 false "$WALI_LLVM_BIN_DIR/clang",
    .assign "WALI_CXX" 0 false "$WALI_LLVM_BIN_DIR/clang++",
    .assign "WALI_LD" 0 false "$WALI_LLVM_BIN_DIR/wasm-ld",
    .assign "WALI_AR" 0 false "$WALI_LLVM_BIN_DIR/llvm-ar",
    .assign "WALI_RANLIB" 0 false "$WALI_LLVM_BIN_DIR/llvm-ranlib",
    .text [],
    .text "# Compile/Link Flags",
    .assign "WALI_COMMON_CFLAGS" 0 true flags.cflags,
    .assign "WALI_COMMON_CXXFLAGS" 0 true flags.cxxflags,
    .assign "WALI_COMMON_LDFLAGS" 0 true flags.ldflags,
    .assign "WALI_TARGET" 0 false cfg.triple,
    .assign "WALI_TARGET_NOVENDOR" 0 false cfg.targetNovendor,
    .text [],
    .text "# Libclang RT: Uncomment this only after llvm is already built, if needed.",
    .text "# export WALI_LLVM_MAJOR_VERSION=$($WALI_LLVM_BIN_DIR/llvm-config --version | cut -d '.' -f 1)",
    .text ("# export WALI_LIBCLANG_RT_LIB=$WALI_LLVM_DIR/lib/clang/$WALI_LLVM_MAJOR_VERSION/lib/" ++
      (cfg.triple ++ "/libclang_rt.builtins.a"))]

def cmakeLines : List Line :=
  [.text "# Auto-generated by gen_configs.py — use with -DCMAKE_TOOLCHAIN_FILE=wali.cmake",
    .assign "CMAKE_SYSTEM_NAME" 0 false "Linux",
    .text [],
    .text "# Resolve project root relative to this file",
    .text "get_filename_component(WALI_ROOT_DIR \"$\x7bCMAKE_CURRENT_LIST_DIR\x7d\" ABSOLUTE)",
    .assign "WALI_BUILD_DIR" 1 false ("$\x7bWALI_ROOT_DIR\x7d/" ++ cfg.root),
    .assign "WALI_LLVM_BIN_DIR" 0 false ("$\x7bWALI_BUILD_DIR\x7d/" ++ cfg.llvm ++ "/bin"),
    .assign "WALI_LIBCXX_DIR" 0 false ("$\x7bWALI_BUILD_DIR\x7d/" ++ cfg.libcxx),
    .text [],
    .text "# Sysroot",
    .assign "CMAKE_SYSROOT" 0 false ("$\x7bWALI_BUILD_DIR\x7d/" ++ cfg.sysroot),
    .text [],
    .text "# Compiler Toolchain",
    .assign "CMAKE_C_COMPILER" 2 false "$\x7bWALI_LLVM_BIN_DIR\x7d/clang",
    .assign "CMAKE_CXX_COMPILER" 0 false "$\x7bWALI_LLVM_BIN_DIR\x7d/clang++",
    .assign "CMAKE_AR" 10 false "$\x7bWALI_LLVM_BIN_DIR\x7d/llvm-ar",
    .assign "CMAKE_RANLIB" 6 false "$\x7bWALI_LLVM_BIN_DIR\x7d/llvm-ranlib",
    .assign "CMAKE_LINKER" 6 false "$\x7bWALI_LLVM_BIN_DIR\x7d/wasm-ld",
    .text [],
    .text "# Flags",
    .assign "CMAKE_C_FLAGS" 0 true flags.cflags,
    .assign "CMAKE_CXX_FLAGS" 0 true flags.cxxflags,
    .assign "CMAKE_EXE_LINKER_FLAGS" 0 true flags.ldflags]

/-- The lines as the f-strings have them: eight blanks in front, four in front of the
closing quotation marks -/
def fileText (st : Statement) (lines : List Line) : Text :=
  dedent (block "        " "    " (lines.map (Line.render st)))

end Texts

structure Texts where
  makefile : Text
  bash : Text
  cmake : Text

/-- `main` of `gen_toolchains.py` up to the writing of the files -/
def genTexts (special : SpecialFields) (cfg : WaliToml) : Outcome PyErr Texts := do
  if cfg.tripleSplit.length ≠ 4 then raises (.systemExit 1)
  else do
    let makeFlags ← formatFlags special cfg "$(WALI_SYSROOT_DIR)" "$(WALI_COMMON_CFLAGS)"
      "$(WALI_LIBCXX_DIR)"
    let bashFlags ← formatFlags special cfg "$\x7bWALI_SYSROOT_DIR\x7d"
      "$\x7bWALI_COMMON_CFLAGS\x7d" "$\x7bWALI_LIBCXX_DIR\x7d"
    let cmakeFlags ← formatFlags special cfg "$\x7bCMAKE_SYSROOT\x7d"
      "$\x7bCMAKE_C_FLAGS\x7d" "$\x7bWALI_LIBCXX_DIR\x7d"
    returns
      { makefile := fileText makeStatement (makeLines cfg makeFlags)
        bash := fileText bashStatement (bashLines cfg bashFlags)
        cmake := fileText cmakeStatement (cmakeLines cfg cmakeFlags) }

def outputs (texts : Texts) : List (Text × Text) :=
  [("wali.mk", texts.makefile), ("wali.sh", texts.bash), ("wali.cmake", texts.cmake)]

/-- The texts for a `wali.toml` with these contents. `load` is the reading of the table
from the text. -/
def tomlTexts (load : Text → Outcome PyErr WaliToml) (special : SpecialFields) :
    Option Text → Outcome PyErr Texts
  | none => raises (.systemExit 1)
  | some text => do
      let cfg ← load text
      genTexts special cfg

/-- A run in the directory of the script -/
def genToolchainsRun (load : Text → Outcome PyErr WaliToml) (special : SpecialFields)
    (files : Files Text Text) : FileRun PyErr Text Text :=
  match tomlTexts load special (files "wali.toml") with
  | returns texts => putAll (settled (outputs texts)) files
  | raises error => ⟨raises error, files⟩
  | diverges => ⟨diverges, files⟩

section Characters

/-- The text holds none of these characters. -/
def Clean (banned : List Char) (s : Text) : Prop := ∀ c ∈ s, c ∉ banned

def makeBanned : List Char := ['#', '\\', '\n']

def bashBanned : List Char := '\n' :: '(' :: bashEnds

def cmakeBanned : List Char := '\n' :: cmakeEnds

def quotedBanned : List Char := ['\n', '"', '\\']

variable {banned banned' : List Char} {s s' : Text}

theorem forall_mem_literal {P : Char → Prop} {literal : String} {l : List Char}
    (h : String.ofList l = literal) (hl : ∀ c ∈ l, P c) : ∀ c ∈ literal.toList, P c := by
  subst h
  rwa [String.toList_ofList]

theorem clean_literal {literal : String} {l : List Char} (h : String.ofList l = literal)
    (hl : ∀ c ∈ l, c ∉ banned) : Clean banned literal.toList :=
  forall_mem_literal h hl

theorem clean_append (h : Clean banned s) (h' : Clean banned s') : Clean banned (s ++ s') :=
  fun c hc => (List.mem_append.mp hc).elim (h c) (h' c)

theorem Clean.mono (h : Clean banned s) (hsub : banned' ⊆ banned) : Clean banned' s :=
  fun c hc hbanned => h c hc (hsub hbanned)

theorem Clean.not_mem (h : Clean banned s) {c : Char} (hc : c ∈ banned) : c ∉ s :=
  fun hmem => h c hmem hc

/-- What no value of a plain configuration holds -/
def wordBanned : List Char := bashBanned ++ cmakeBanned ++ makeBanned ++ quotedBanned

theorem not_isPlain_of_banned : ∀ c ∈ wordBanned, ¬ IsPlain c := by
  decide

theorem clean_of_isPlain (h : ∀ c ∈ s, IsPlain c) : Clean wordBanned s :=
  fun c hc hbanned => not_isPlain_of_banned c hbanned (h c hc)

theorem mem_join_of_mem {sep part : Text} {parts : List Text} {c : Char} (hpart : part ∈ parts)
    (hc : c ∈ part) : c ∈ join sep parts := by
  induction parts with
  | nil => cases hpart
  | cons first parts ih =>
      by_cases hparts : parts = []
      · subst hparts
        rw [List.mem_singleton.mp hpart] at hc
        simpa [join] using hc
      · rw [join_cons hparts, List.mem_append, List.mem_append]
        rcases List.mem_cons.mp hpart with rfl | hpart
        · exact .inl (.inl hc)
        · exact .inr (ih hpart)

theorem mem_of_mem_splitOn {d c : Char} {part : Text} (hpart : part ∈ s.splitOn d)
    (hc : c ∈ part) : c ∈ s := by
  have hmem : c ∈ join [d] (s.splitOn d) := mem_join_of_mem hpart hc
  rwa [join, List.intercalate_splitOn] at hmem

theorem clean_targetNovendor {cfg : WaliToml} (hdash : '-' ∉ banned) (h : Clean banned cfg.triple) :
    Clean banned cfg.targetNovendor := by
  intro c hc
  rcases mem_of_mem_join hc with hsep | ⟨part, hpart, hmem⟩
  · have heq : c = '-' := List.mem_singleton.mp hsep
    exact heq ▸ hdash
  · refine h c (@mem_of_mem_splitOn _ '-' c part ?_ hmem)
    rcases List.mem_append.mp hpart with hpart | hpart
    · exact List.mem_of_mem_take hpart
    · exact List.mem_of_mem_drop hpart

end Characters

section Statements

variable {name value : Text} {pad : Nat} {s : Text}

theorem lawful_makeStatement : Lawful makeStatement where
  blank := by decide
  op := by
    intro c hc
    obtain rfl : ':' = c := Option.some.inj hc
    decide
  separated := by decide
  op_blank := by decide
  newline := by decide
  flush := by
    intro c hc
    cases hc
  tab := by decide

theorem lawful_bashStatement : Lawful bashStatement where
  blank := by decide
  op := by
    intro c hc
    obtain rfl : '=' = c := Option.some.inj hc
    decide
  separated := by decide
  op_blank := by decide
  newline := by decide
  flush := by
    intro c hc
    obtain rfl : 'e' = c := Option.some.inj hc
    decide
  tab := by decide

theorem lawful_cmakeStatement : Lawful cmakeStatement where
  blank := by decide
  op := by
    intro c hc
    obtain rfl : ' ' = c := Option.some.inj hc
    decide
  separated := by decide
  op_blank := by decide
  newline := by decide
  flush := by
    intro c hc
    obtain rfl : 's' = c := Option.some.inj hc
    decide
  tab := by decide

theorem reads_make (h : Clean makeBanned value) (hstart : value.head? ≠ some ' ') :
    Reads makeStatement false value := by
  have hwritten : writeValue false value ++ makeStatement.tail = value := List.append_nil value
  refine ⟨?_, h.not_mem (by decide), ?_⟩
  · rw [hwritten]
    exact lineValue_eq (h.not_mem (by decide)) (h.not_mem (by decide))
  · rwa [hwritten]

theorem head?_ne_of_not_mem {c : Char} (h : c ∉ s) : s.head? ≠ some c :=
  fun hc => h (List.mem_of_head? hc)

theorem reads_bash (h : Clean bashBanned value) : Reads bashStatement false value := by
  have hwritten : writeValue false value ++ bashStatement.tail = value := List.append_nil value
  refine ⟨?_, h.not_mem (by decide), ?_⟩
  · refine wordValue_word (fun c hc => (h.mono (by decide)) c hc)
      (fun _ => ⟨h.not_mem (by decide), h.not_mem (by decide)⟩)
      (fun c hc => by cases hc) ?_
    refine ne_of_eq_of_ne (congrArg List.head? hwritten) ?_
    exact head?_ne_of_not_mem (h.not_mem (by decide))
  · rw [hwritten]
    exact head?_ne_of_not_mem (h.not_mem (by decide))

theorem reads_cmake (h : Clean cmakeBanned value) : Reads cmakeStatement false value := by
  have hstart : ∀ c ∈ cmakeBanned, c ≠ ')' → (value ++ cmakeStatement.tail).head? ≠ some c := by
    intro c hc hne hhead
    rcases List.mem_append.mp (List.mem_of_head? hhead) with hmem | hmem
    · exact h c hmem hc
    · exact hne (List.mem_singleton.mp hmem)
  refine ⟨?_, h.not_mem (by decide), hstart ' ' (by decide) (by decide)⟩
  refine wordValue_word (fun c hc => (h.mono (by decide)) c hc) (fun hnests => absurd hnests (by decide))
    ?_ (hstart '"' (by decide) (by decide))
  intro c hc
  obtain rfl : ')' = c := Option.some.inj hc
  decide

/-- Quoted values are read alike in bash and in CMake. -/
theorem reads_quoted {st : Statement} {ends : List Char} {nests : Bool}
    (hvalue : st.value = wordValue ends nests) (h : Clean quotedBanned value) :
    Reads st true value where
  value_eq := by
    rw [hvalue]
    exact wordValue_quoted (h.not_mem (by decide)) (h.not_mem (by decide))
  newline := h.not_mem (by decide)
  start := by simp [writeValue]

theorem wellFormed_text {st : Statement} {c : Char} (hs : s.head? = some c)
    (hc : st.begins c = false ∧ isIndent c = false) (hnewline : Clean ['\n'] s) :
    WellFormed st (.text s) := by
  refine ⟨readLine_of_begins hs hc.1, fun d hd => ?_, hnewline.not_mem List.mem_cons_self⟩
  rw [hs] at hd
  exact (Option.some.inj hd) ▸ hc.2

theorem wellFormed_textLiteral {st : Statement} {literal : String} {c : Char} {rest : List Char}
    (h : String.ofList (c :: rest) = literal)
    (hc : (st.begins c = false ∧ isIndent c = false) ∧ ∀ d ∈ c :: rest, d ∉ ['\n']) :
    WellFormed st (.text literal.toList) := by
  refine @wellFormed_text literal.toList st c ?_ hc.1 (clean_literal h hc.2)
  rw [← h, String.toList_ofList]
  rfl

theorem wellFormed_textAppend {st : Statement} {literal : String} {c : Char} {rest tail : Text}
    (h : String.ofList (c :: rest) = literal)
    (hc : (st.begins c = false ∧ isIndent c = false) ∧ ∀ d ∈ c :: rest, d ∉ ['\n'])
    (htail : Clean ['\n'] tail) : WellFormed st (.text (literal.toList ++ tail)) := by
  refine @wellFormed_text _ st c ?_ hc.1 (clean_append (clean_literal h hc.2) htail)
  rw [← h, String.toList_ofList]
  rfl

theorem name_literal {st : Statement} {literal : String} {l : List Char}
    (h : String.ofList l = literal) (hl : l ≠ [] ∧ ∀ c ∈ l, st.isName c = true) :
    literal.toList ≠ [] ∧ ∀ c ∈ literal.toList, st.isName c = true := by
  subst h
  rwa [String.toList_ofList]

theorem start_literal {literal : String} {c d : Char} {l : List Char}
    (h : String.ofList (c :: l) = literal) (hne : c ≠ d) : literal.toList.head? ≠ some d := by
  subst h
  rw [String.toList_ofList]
  exact fun heq => hne (Option.some.inj heq)

/-- A literal that the language reads to its end -/
theorem reads_literal {st : Statement} {literal : String} {l : List Char}
    (h : String.ofList l = literal)
    (hl : st.value (l ++ st.tail) = some (l, st.tail) ∧ '\n' ∉ l ∧
      (l ++ st.tail).head? ≠ some ' ') : Reads st false literal.toList := by
  subst h
  rw [String.toList_ofList]
  exact ⟨hl.1, hl.2.1, hl.2.2⟩

theorem wellFormed_assign {st : Statement} {literal : String} {l : List Char} {quoted : Bool}
    (hl : String.ofList l = literal) (hname : l ≠ [] ∧ ∀ c ∈ l, st.isName c = true)
    (hpad : st.spaced = false → pad = 0) (hvalue : Reads st quoted value) :
    WellFormed st (.assign literal.toList pad quoted value) :=
  ⟨name_literal hl hname, hpad, hvalue⟩

/-- A flag string without comments, quotation marks and escapes -/
def IsFlagText (s : Text) : Prop := Clean (makeBanned ++ quotedBanned) s ∧ s.head? ≠ some ' '

structure FitFlags (flags : FlagTexts) : Prop where
  cflags : IsFlagText flags.cflags
  cxxflags : IsFlagText flags.cxxflags
  ldflags : IsFlagText flags.ldflags

variable {cfg : WaliToml} {flags : FlagTexts}

theorem clean_word (hcfg : PlainToml cfg) {w : Text}
    (hw : w ∈ [cfg.triple, cfg.root, cfg.llvm, cfg.sysroot, cfg.libcxx]) : Clean wordBanned w :=
  clean_of_isPlain (hcfg.words w hw)

theorem wellFormed_blank {st : Statement} (h : st.readLine [] = none) : WellFormed st (.text []) :=
  ⟨h, fun _ hc => (by cases hc), List.not_mem_nil⟩

theorem readLine_lazyAssignment {name : Text} (hname : ∀ c ∈ name, isNameChar c = true)
    (value : Text) : makeStatement.readLine (name ++ (" = " ++ value)) = none := by
  have hrest : ∀ c, (" = " ++ value : Text).head? = some c → isNameChar c = false := by
    intro c hc
    obtain rfl : ' ' = c := Option.some.inj hc
    decide
  have hop : ¬ makeStatement.op <+: makeStatement.skip (" = " ++ value) := by
    rintro ⟨after, hafter⟩
    cases hafter
  exact readAssignment_of_not_op hname hrest hop

theorem wellFormed_lazyAssignment {literal : String} {l : List Char} {value : Text}
    (hl : String.ofList l = literal) (hname : l ≠ [] ∧ ∀ c ∈ l, isNameChar c = true)
    (hvalue : Clean ['\n'] value) :
    WellFormed makeStatement (lazyAssignment literal.toList value) := by
  subst hl
  rw [String.toList_ofList]
  refine ⟨readLine_lazyAssignment hname.2 value, ?_, ?_⟩
  · obtain ⟨c, cs, rfl⟩ := List.exists_cons_of_ne_nil hname.1
    intro d hd
    obtain rfl : c = d := Option.some.inj hd
    exact isIndent_of_isName lawful_makeStatement (hname.2 c List.mem_cons_self)
  · have hl : '\n' ∉ l := fun hc => absurd (hname.2 _ hc) (by decide)
    have heq : '\n' ∉ (" = " : Text) := by decide
    simp only [List.mem_append, not_or]
    exact ⟨hl, heq, hvalue.not_mem List.mem_cons_self⟩

theorem wellFormed_makeLines (hcfg : PlainToml cfg) (hflags : FitFlags flags) :
    ∀ line ∈ makeLines cfg flags, WellFormed makeStatement line := by
  have hwords : ∀ w ∈ [cfg.triple, cfg.root, cfg.llvm, cfg.sysroot, cfg.libcxx],
      Clean (' ' :: makeBanned) w := fun w hw => (clean_word hcfg hw).mono (by decide)
  simp only [List.forall_mem_cons] at hwords
  obtain ⟨htriple, hroot, hllvm, hsysroot, hlibcxx, _⟩ := hwords
  have hvendor : Clean (' ' :: makeBanned) cfg.targetNovendor :=
    clean_targetNovendor (by decide) htriple
  obtain ⟨hcflags, hcxxflags, hldflags⟩ := hflags
  have hspaced : ∀ {pad : Nat}, makeStatement.spaced = false → pad = 0 := by rintro pad ⟨⟩
  have hword : ∀ {value : Text}, Clean (' ' :: makeBanned) value → Reads makeStatement false value :=
    fun hvalue => reads_make (hvalue.mono (List.subset_cons_self _ _))
      (head?_ne_of_not_mem (hvalue.not_mem List.mem_cons_self))
  have hflag : ∀ {value : Text}, IsFlagText value → Reads makeStatement false value :=
    fun hvalue => reads_make (hvalue.1.mono (List.subset_append_left _ _)) hvalue.2
  unfold makeLines
  repeat' refine List.forall_mem_cons.mpr ⟨?_, ?_⟩
  all_goals first
    | exact wellFormed_blank rfl
    | exact wellFormed_textLiteral rfl (by decide)
    | exact wellFormed_assign rfl (by decide) hspaced (hflag (by assumption))
    | exact wellFormed_assign rfl (by decide) hspaced (hword (by assumption))
    | exact wellFormed_assign rfl (by decide) hspaced (hword (clean_literal rfl (by decide)))
    | exact wellFormed_assign rfl (by decide) hspaced
        (hword (clean_append (clean_literal rfl (by decide)) (by assumption)))
    | exact wellFormed_assign rfl (by decide) hspaced
        (reads_make (clean_literal rfl (by decide)) (start_literal rfl (by decide)))
    | exact wellFormed_lazyAssignment rfl (by decide) (clean_literal rfl (by decide))
    | exact wellFormed_lazyAssignment rfl (by decide) (clean_append (clean_literal rfl (by decide))
        (clean_append (htriple.mono (by decide)) (clean_literal rfl (by decide))))
    | exact List.forall_mem_nil _

theorem wellFormed_bashLines (hcfg : PlainToml cfg) (hflags : FitFlags flags) :
    ∀ line ∈ bashLines cfg flags, WellFormed bashStatement line := by
  have hwords : ∀ w ∈ [cfg.triple, cfg.root, cfg.llvm, cfg.sysroot, cfg.libcxx],
      Clean bashBanned w := fun w hw => (clean_word hcfg hw).mono (by decide)
  simp only [List.forall_mem_cons] at hwords
  obtain ⟨htriple, hroot, hllvm, hsysroot, hlibcxx, _⟩ := hwords
  have hvendor : Clean bashBanned cfg.targetNovendor := clean_targetNovendor (by decide) htriple
  obtain ⟨hcflags, hcxxflags, hldflags⟩ := hflags
  have hpad : bashStatement.spaced = false → 0 = 0 := fun _ => rfl
  have hflag : ∀ {value : Text}, IsFlagText value → Reads bashStatement true value :=
    fun hvalue => reads_quoted rfl (hvalue.1.mono (List.subset_append_right _ _))
  unfold bashLines
  repeat' refine List.forall_mem_cons.mpr ⟨?_, ?_⟩
  all_goals first
    | exact wellFormed_blank rfl
    | exact wellFormed_textLiteral rfl (by decide)
    | exact wellFormed_assign rfl (by decide) hpad (hflag (by assumption))
    | exact wellFormed_assign rfl (by decide) hpad (reads_bash (by assumption))
    | exact wellFormed_assign rfl (by decide) hpad (reads_bash (clean_literal rfl (by decide)))
    | exact wellFormed_assign rfl (by decide) hpad
        (reads_bash (clean_append (clean_literal rfl (by decide)) (by assumption)))
    | exact wellFormed_assign rfl (by decide) hpad (reads_literal rfl (by decide))
    | exact wellFormed_textAppend rfl (by decide)
        (clean_append (htriple.mono (by decide)) (clean_literal rfl (by decide)))
    | exact List.forall_mem_nil _

theorem wellFormed_cmakeLines (hcfg : PlainToml cfg) (hflags : FitFlags flags) :
    ∀ line ∈ cmakeLines cfg flags, WellFormed cmakeStatement line := by
  have hwords : ∀ w ∈ [cfg.root, cfg.llvm, cfg.sysroot, cfg.libcxx], Clean cmakeBanned w :=
    fun w hw => (clean_word hcfg (List.mem_cons_of_mem _ hw)).mono (by decide)
  simp only [List.forall_mem_cons] at hwords
  obtain ⟨hroot, hllvm, hsysroot, hlibcxx, _⟩ := hwords
  obtain ⟨hcflags, hcxxflags, hldflags⟩ := hflags
  have hspaced : ∀ {pad : Nat}, cmakeStatement.spaced = false → pad = 0 := by rintro pad ⟨⟩
  have hflag : ∀ {value : Text}, IsFlagText value → Reads cmakeStatement true value :=
    fun hvalue => reads_quoted rfl (hvalue.1.mono (List.subset_append_right _ _))
  unfold cmakeLines
  repeat' refine List.forall_mem_cons.mpr ⟨?_, ?_⟩
  all_goals first
    | exact wellFormed_blank rfl
    | exact wellFormed_textLiteral rfl (by decide)
    | exact wellFormed_assign rfl (by decide) hspaced (hflag (by assumption))
    | exact wellFormed_assign rfl (by decide) hspaced (reads_cmake (clean_literal rfl (by decide)))
    | exact wellFormed_assign rfl (by decide) hspaced
        (reads_cmake (clean_append (clean_literal rfl (by decide)) (by assumption)))
    | exact wellFormed_assign rfl (by decide) hspaced
        (reads_cmake (clean_append (clean_append (clean_literal rfl (by decide)) (by assumption))
          (clean_literal rfl (by decide))))
    | exact List.forall_mem_nil _

end Statements

section Flags

variable {special : SpecialFields} {cfg : WaliToml} {flags : FlagTexts}

theorem clean_flagTail {texts : List Text} (h : ∀ flag ∈ texts, ∀ c ∈ flag, c = ' ' ∨ IsPlain c) :
    Clean (makeBanned ++ quotedBanned) (flagTail texts) := by
  have hblank : ' ' ∉ makeBanned ++ quotedBanned := by decide
  have hsub : makeBanned ++ quotedBanned ⊆ wordBanned := by decide
  intro c hc
  rcases mem_flagTail hc with rfl | ⟨flag, hflag, hmem⟩
  · exact hblank
  · rcases h flag hflag c hmem with rfl | hplain
    · exact hblank
    · exact fun hbanned => not_isPlain_of_banned c (hsub hbanned) hplain

/-- References to variables do not disturb the flag strings. -/
theorem fitFlags_of_formatFlags (hcfg : PlainToml cfg) {sysrootVar cflagsVar libcxxVar : Text}
    (hsysroot : Clean (makeBanned ++ quotedBanned) sysrootVar)
    (hcflags : Clean (makeBanned ++ quotedBanned) cflagsVar)
    (hlibcxx : Clean (makeBanned ++ quotedBanned) libcxxVar)
    (h : formatFlags special cfg sysrootVar cflagsVar libcxxVar = returns flags) :
    FitFlags flags := by
  rw [formatFlags_eq hcfg.braceFree] at h
  obtain rfl := returns.inj h
  have htriple : Clean (makeBanned ++ quotedBanned) cfg.triple :=
    (clean_word hcfg (by simp)).mono (by decide)
  refine ⟨⟨?_, ?_⟩, ⟨?_, ?_⟩, ⟨?_, ?_⟩⟩
  · exact clean_append (clean_literal rfl (by decide)) (clean_append htriple
      (clean_append (clean_literal rfl (by decide)) (clean_append hsysroot
        (clean_flagTail hcfg.cflags))))
  · exact fun hc => by cases hc
  · exact clean_append (clean_literal rfl (by decide)) (clean_append hcflags
      (clean_append (clean_literal rfl (by decide)) (clean_append hlibcxx
        (clean_literal rfl (by decide)))))
  · exact fun hc => by cases hc
  · exact clean_append (clean_literal rfl (by decide)) (clean_append hsysroot
      (clean_append (clean_literal rfl (by decide)) (clean_append hlibcxx
        (clean_append (clean_literal rfl (by decide)) (clean_flagTail hcfg.ldflags)))))
  · exact fun hc => by cases hc

end Flags

section Reading

variable {special : SpecialFields} {cfg : WaliToml} {texts : Texts} {assigned : Toolchains}

def makePrelude : Assignments :=
  [("mkfile_path", "$(abspath $(lastword $(MAKEFILE_LIST)))"),
    ("WALI_ROOT_DIR", "$(patsubst %/,%, $(dir $(mkfile_path)))/..")]

def bashPrelude : Assignments :=
  [("WALI_ROOT_DIR", "$(dirname $(realpath $\x7bBASH_SOURCE\x7d))/..")]

def cmakePrelude : Assignments := [("CMAKE_SYSTEM_NAME", "Linux")]

/-- The languages read the assignments from the texts, behind those that the generator
writes for every configuration. -/
structure ReadBack (texts : Texts) (assigned : Toolchains) : Prop where
  makefile : makeStatement.readText texts.makefile = makePrelude ++ assigned.makefile
  bash : bashStatement.readText texts.bash = bashPrelude ++ assigned.bash
  cmake : cmakeStatement.readText texts.cmake = cmakePrelude ++ assigned.cmake

theorem readText_fileText {st : Statement} {lines : List Line} (hst : Lawful st)
    (hempty : st.readLine [] = none) (h : ∀ line ∈ lines, WellFormed st line) :
    st.readText (fileText st lines) = lines.filterMap Line.assignment :=
  readText_dedent_block hst hempty (by decide) (by decide) h

theorem genTexts_eq_returns_iff :
    genTexts special cfg = returns texts ↔
      cfg.tripleSplit.length = 4 ∧ ∃ makeFlags bashFlags cmakeFlags,
        formatFlags special cfg "$(WALI_SYSROOT_DIR)" "$(WALI_COMMON_CFLAGS)"
          "$(WALI_LIBCXX_DIR)" = returns makeFlags ∧
        formatFlags special cfg "$\x7bWALI_SYSROOT_DIR\x7d" "$\x7bWALI_COMMON_CFLAGS\x7d"
          "$\x7bWALI_LIBCXX_DIR\x7d" = returns bashFlags ∧
        formatFlags special cfg "$\x7bCMAKE_SYSROOT\x7d" "$\x7bCMAKE_C_FLAGS\x7d"
          "$\x7bWALI_LIBCXX_DIR\x7d" = returns cmakeFlags ∧
        texts = ⟨fileText makeStatement (makeLines cfg makeFlags),
          fileText bashStatement (bashLines cfg bashFlags),
          fileText cmakeStatement (cmakeLines cfg cmakeFlags)⟩ := by
  unfold genTexts
  split
  · next hlength => simp [hlength]
  · next hlength =>
      simp only [bind_eq_returns_iff, returns.injEq, not_not.mp hlength, true_and]
      constructor
      · rintro ⟨makeFlags, hmake, bashFlags, hbash, cmakeFlags, hcmake, rfl⟩
        exact ⟨makeFlags, bashFlags, cmakeFlags, hmake, hbash, hcmake, rfl⟩
      · rintro ⟨makeFlags, bashFlags, cmakeFlags, hmake, hbash, hcmake, rfl⟩
        exact ⟨makeFlags, hmake, bashFlags, hbash, cmakeFlags, hcmake, rfl⟩

theorem readText_makefile {flags : FlagTexts} (hcfg : PlainToml cfg) (hflags : FitFlags flags) :
    makeStatement.readText (fileText makeStatement (makeLines cfg flags)) =
      makePrelude ++ makefile cfg flags := by
  have hassigned : (makeLines cfg flags).filterMap Line.assignment =
      makePrelude ++ makefile cfg flags := rfl
  rw [readText_fileText lawful_makeStatement rfl (wellFormed_makeLines hcfg hflags), hassigned]

theorem readText_bash {flags : FlagTexts} (hcfg : PlainToml cfg) (hflags : FitFlags flags) :
    bashStatement.readText (fileText bashStatement (bashLines cfg flags)) =
      bashPrelude ++ bash cfg flags := by
  have hassigned : (bashLines cfg flags).filterMap Line.assignment =
      bashPrelude ++ bash cfg flags := rfl
  rw [readText_fileText lawful_bashStatement rfl (wellFormed_bashLines hcfg hflags), hassigned]

theorem readText_cmake {flags : FlagTexts} (hcfg : PlainToml cfg) (hflags : FitFlags flags) :
    cmakeStatement.readText (fileText cmakeStatement (cmakeLines cfg flags)) =
      cmakePrelude ++ cmake cfg flags := by
  have hassigned : (cmakeLines cfg flags).filterMap Line.assignment =
      cmakePrelude ++ cmake cfg flags := rfl
  rw [readText_fileText lawful_cmakeStatement rfl (wellFormed_cmakeLines hcfg hflags), hassigned]

theorem readBack_of_genTexts (hcfg : PlainToml cfg) (h : genTexts special cfg = returns texts) :
    ∃ assigned, genToolchainsMain special cfg = returns assigned ∧ ReadBack texts assigned := by
  obtain ⟨htriple, makeFlags, bashFlags, cmakeFlags, hmake, hbash, hcmake, rfl⟩ :=
    genTexts_eq_returns_iff.mp h
  refine ⟨_, genToolchainsMain_eq_returns_iff.mpr
    ⟨htriple, makeFlags, bashFlags, cmakeFlags, hmake, hbash, hcmake, rfl⟩, ?_⟩
  have hclean : ∀ {literal : String} {l : List Char}, String.ofList l = literal →
      (∀ c ∈ l, c ∉ makeBanned ++ quotedBanned) → Clean (makeBanned ++ quotedBanned) literal.toList :=
    clean_literal
  have hmakeFlags : FitFlags makeFlags := fitFlags_of_formatFlags hcfg (hclean rfl (by decide))
    (hclean rfl (by decide)) (hclean rfl (by decide)) hmake
  have hbashFlags : FitFlags bashFlags := fitFlags_of_formatFlags hcfg (hclean rfl (by decide))
    (hclean rfl (by decide)) (hclean rfl (by decide)) hbash
  have hcmakeFlags : FitFlags cmakeFlags := fitFlags_of_formatFlags hcfg (hclean rfl (by decide))
    (hclean rfl (by decide)) (hclean rfl (by decide)) hcmake
  have hmakefile := readText_makefile hcfg hmakeFlags
  have hbashfile := readText_bash hcfg hbashFlags
  have hcmakefile := readText_cmake hcfg hcmakeFlags
  constructor
  · dsimp only
    exact hmakefile
  · dsimp only
    exact hbashfile
  · dsimp only
    exact hcmakefile

end Reading

section Runs

variable {load : Text → Outcome PyErr WaliToml} {special : SpecialFields} {files : Files Text Text}

/-- The texts that a run writes, if it gets to them -/
def textsOf (load : Text → Outcome PyErr WaliToml) (special : SpecialFields) (toml : Option Text) :
    Option Texts :=
  match tomlTexts load special toml with
  | returns texts => some texts
  | _ => none

theorem map_fst_outputs (texts : Texts) :
    (outputs texts).map Prod.fst = ["wali.mk".toList, "wali.sh".toList, "wali.cmake".toList] := rfl

theorem nodup_outputs (texts : Texts) : ((outputs texts).map Prod.fst).Nodup := by
  rw [map_fst_outputs]
  decide

theorem find_outputs_eq_none_iff {path : Text} {texts : Texts} :
    find path (outputs texts) = none ↔
      path ∉ ["wali.mk".toList, "wali.sh".toList, "wali.cmake".toList] := by
  rw [← Option.not_isSome_iff_eq_none, find_isSome_iff, map_fst_outputs]

/-- Later texts replace all of the earlier ones. -/
theorem find_outputs_or (path : Text) (texts texts' : Texts) (file : Option Text) :
    (find path (outputs texts)).or ((find path (outputs texts')).or file) =
      (find path (outputs texts)).or file := by
  cases hfind : find path (outputs texts) with
  | some text => rfl
  | none =>
      have hfind' : find path (outputs texts') = none :=
        find_outputs_eq_none_iff.mpr (find_outputs_eq_none_iff.mp hfind)
      rw [hfind', Option.none_or, Option.none_or]

/-- A run writes all three files or none. -/
theorem genToolchainsRun_files (files : Files Text Text) (path : Text) :
    (genToolchainsRun load special files).files path =
      match textsOf load special (files "wali.toml") with
      | some texts => (find path (outputs texts)).or (files path)
      | none => files path := by
  unfold genToolchainsRun textsOf
  cases tomlTexts load special (files "wali.toml") with
  | returns texts =>
      refine (putAll_files _ files path).trans ?_
      rw [written_settled, lastText_of_nodup (nodup_outputs texts)]
  | raises error => rfl
  | diverges => rfl

/-- For every plain configuration with a full target triple the run succeeds, and what
make, bash and CMake read from its three files is what the generator assigns. -/
theorem written_files_read_back {text : Text} {cfg : WaliToml} (hcfg : PlainToml cfg)
    (htriple : cfg.tripleSplit.length = 4) (hfile : files "wali.toml" = some text)
    (hload : load text = returns cfg) :
    (genToolchainsRun load special files).outcome = returns () ∧
      ∃ texts assigned, genToolchainsMain special cfg = returns assigned ∧
        ReadBack texts assigned ∧
        ∀ out ∈ outputs texts, (genToolchainsRun load special files).files out.1 = some out.2 := by
  obtain ⟨assigned, hmain⟩ := @finishes_genToolchainsMain special cfg hcfg.braceFree htriple
  obtain ⟨texts, htexts⟩ : (genTexts special cfg).Finishes := by
    obtain ⟨_, makeFlags, bashFlags, cmakeFlags, hmake, hbash, hcmake, _⟩ :=
      genToolchainsMain_eq_returns_iff.mp hmain
    exact ⟨_, genTexts_eq_returns_iff.mpr
      ⟨htriple, makeFlags, bashFlags, cmakeFlags, hmake, hbash, hcmake, rfl⟩⟩
  have htoml : tomlTexts load special (files "wali.toml") = returns texts := by
    rw [hfile, tomlTexts, hload, returns_bind, htexts]
  obtain ⟨assigned', hmain', hread⟩ := readBack_of_genTexts hcfg htexts
  refine ⟨?_, texts, assigned', hmain', hread, fun out hout => ?_⟩
  · unfold genToolchainsRun
    rw [htoml]
    exact outcome_putAll_eq_returns_iff.mpr (finished_settled _)
  · rw [genToolchainsRun_files, textsOf, htoml]
    simp only [find_of_mem (nodup_outputs texts) hout, Option.some_or]

def bareText : Text :=
  "target.triple = \"wasm32-unknown-linux-muslwali\"\n" ++
    ("build_dirs = \x7b root = \"build\", llvm = \"llvm\", sysroot = \"sysroot\", libcxx = \"libcxx\" \x7d\n" ++
      "flags.extra_cflags = [\"-O2\", \"-g\"]\n")

/-- The table in `bareText` -/
def bareToml : WaliToml where
  triple := "wasm32-unknown-linux-muslwali"
  root := "build"
  llvm := "llvm"
  sysroot := "sysroot"
  libcxx := "libcxx"
  warningCflags := []
  wasmFeatures := []
  extraCflags := ["-O2", "-g"]
  extraCxxflags := []
  link := []

def loadBare (text : Text) : Outcome PyErr WaliToml :=
  if text = bareText then returns bareToml else raises .valueError

theorem bareToml_read_back :
    (genToolchainsRun loadBare noSpecialFields
        (Function.update (fun _ => none) "wali.toml" (some bareText))).outcome = returns () ∧
      ∃ texts assigned, genToolchainsMain noSpecialFields bareToml = returns assigned ∧
        ReadBack texts assigned ∧
        ∀ out ∈ outputs texts, (genToolchainsRun loadBare noSpecialFields
          (Function.update (fun _ => none) "wali.toml" (some bareText))).files out.1 = some out.2 :=
  written_files_read_back (by constructor <;> decide) (by decide) (Function.update_self _ _ _)
    (if_pos rfl)

/-- What happens in the directory between two looks at it -/
inductive Event
  | edit (toml : Option Text)
  | run

def step (load : Text → Outcome PyErr WaliToml) (special : SpecialFields)
    (files : Files Text Text) : Event → Files Text Text
  | .edit toml => Function.update files "wali.toml" toml
  | .run => (genToolchainsRun load special files).files

def history (load : Text → Outcome PyErr WaliToml) (special : SpecialFields) (events : List Event)
    (files : Files Text Text) : Files Text Text :=
  events.foldl (step load special) files

def lastEdit (toml : Option Text) : List Event → Option Text
  | [] => toml
  | .edit toml :: events => lastEdit toml events
  | .run :: events => lastEdit toml events

/-- The texts of the last configuration that a run accepted -/
def lastAccepted (load : Text → Outcome PyErr WaliToml) (special : SpecialFields)
    (toml : Option Text) : List Event → Option Texts
  | [] => none
  | .edit toml :: events => lastAccepted load special toml events
  | .run :: events => (lastAccepted load special toml events).or (textsOf load special toml)

theorem genToolchainsRun_toml (files : Files Text Text) :
    (genToolchainsRun load special files).files "wali.toml" = files "wali.toml" := by
  rw [genToolchainsRun_files]
  cases textsOf load special (files "wali.toml") with
  | none => rfl
  | some texts =>
      have hfind : find ("wali.toml" : Text) (outputs texts) = none :=
        find_outputs_eq_none_iff.mpr (by decide)
      simp only [hfind, Option.none_or]

/-- The three files never come from different configurations: whatever is edited and run,
they hold the texts of the last configuration that a run accepted. -/
theorem history_files (events : List Event) (files : Files Text Text) :
    history load special events files "wali.toml" = lastEdit (files "wali.toml") events ∧
      ∀ path : Text, path ≠ "wali.toml" → history load special events files path =
        match lastAccepted load special (files "wali.toml") events with
        | some texts => (find path (outputs texts)).or (files path)
        | none => files path := by
  induction events generalizing files with
  | nil => exact ⟨rfl, fun _ _ => rfl⟩
  | cons event events ih =>
      cases event with
      | edit toml =>
          obtain ⟨htoml, hfiles⟩ := ih (Function.update files "wali.toml" toml)
          rw [Function.update_self] at htoml hfiles
          refine ⟨htoml, fun path hpath => ?_⟩
          have hsame := hfiles path hpath
          rwa [Function.update_of_ne hpath] at hsame
      | run =>
          obtain ⟨htoml, hfiles⟩ := ih (genToolchainsRun load special files).files
          rw [genToolchainsRun_toml] at htoml hfiles
          refine ⟨htoml, fun path hpath => (hfiles path hpath).trans ?_⟩
          rw [lastAccepted, genToolchainsRun_files]
          cases lastAccepted load special (files "wali.toml") events with
          | none => rfl
          | some texts =>
              cases textsOf load special (files "wali.toml") with
              | none => rfl
              | some texts' => exact find_outputs_or path texts texts' (files path)

end Runs

end Wali.ToolchainTexts
