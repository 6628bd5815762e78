import Wali.PathNormalisation
import Wali.PythonFormat
import Wali.VariableExpansion

/-!
`gen_toolchains.py`: the assignments of the make file, of the bash file and of the
CMake file, and the values that the three languages give to their variables.
-/

namespace Wali.ToolchainFiles

open Wali.InsertionDict
open Wali.PathNormalisation
open Wali.PythonFormat
open Wali.PythonText
open Wali.RunOutcome
open Wali.RunOutcome.Outcome
open Wali.VariableExpansion

/-- A value of the table `flags.link`; `scalar` holds the text that the f-string
writes for it. -/
inductive LinkValue
  | bool (val : Bool)
  | list (val : List Text)
  | scalar (val : Text)

structure WaliToml where
  triple : Text
  root : Text
  llvm : Text
  sysroot : Text
  libcxx : Text
  warningCflags : List Text
  wasmFeatures : List Text
  extraCflags : List Text
  extraCxxflags : List Text
  link : List (Text × LinkValue)

def shJoin (xs : List Text) : Text := join " " xs

def linkFlags : Text × LinkValue → List Text
  | (key, .bool val) => if val then ["-Wl,--" ++ key] else []
  | (key, .list val) => val.map fun x => "-Wl,--" ++ key ++ "=" ++ x
  | (key, .scalar val) => ["-Wl,--" ++ key ++ "=" ++ val]

namespace WaliToml

variable (cfg : WaliToml)

def tripleSplit : List Text := cfg.triple.splitOn '-'

def targetNovendor : Text := join "-" (cfg.tripleSplit.take 1 ++ cfg.tripleSplit.drop 2)

/-- Flags after those for the target and the sysroot. -/
def userCflags : List Text :=
  cfg.extraCflags ++ cfg.warningCflags.map (fun x => ("-W" : Text) ++ x) ++ cfg.wasmFeatures

def ldflags : List Text := cfg.link.flatMap linkFlags

def commonCflags : Text :=
  shJoin (["--target=" ++ cfg.triple, "--sysroot=\x7bSYSROOTVAR\x7d"] ++ cfg.userCflags)

def commonLdflags : Text :=
  shJoin (["-L\x7bSYSROOTVAR\x7d/lib".toList, "-L\x7bLIBCXXVAR\x7d/lib".toList] ++ cfg.ldflags)

end WaliToml

def commonCxxflags : Text :=
  shJoin ["-stdlib=libc++", "\x7bCFLAGSVAR\x7d", "-I\x7bLIBCXXVAR\x7d/include/c++/v1"]

/-- The flag strings of one file. -/
structure FlagTexts where
  cflags : Text
  cxxflags : Text
  ldflags : Text

/-- The flag strings with the variables of one language in their fields. -/
def formatFlags (special : SpecialFields) (cfg : WaliToml)
    (sysrootVar cflagsVar libcxxVar : Text) : Outcome PyErr FlagTexts := do
  let cflags ← format special (Dict.ofList [("SYSROOTVAR", sysrootVar)]) cfg.commonCflags
  let cxxflags ← format special
    (Dict.ofList [("CFLAGSVAR", cflagsVar), ("LIBCXXVAR", libcxxVar)]) commonCxxflags
  let ldflags ← format special
    (Dict.ofList [("SYSROOTVAR", sysrootVar), ("LIBCXXVAR", libcxxVar)]) cfg.commonLdflags
  returns { cflags, cxxflags, ldflags }

/-- Variable assignments of a file, in order, after that of `WALI_ROOT_DIR`. -/
abbrev Assignments := List (Text × Text)

/-- `NAME := value`. The two variables about the compiler's runtime library, which
make expands at their use only, are left out. -/
def makefile (cfg : WaliToml) (flags : FlagTexts) : Assignments :=
  [("WALI_BUILD_DIR", "$(WALI_ROOT_DIR)/" ++ cfg.root),
    ("WALI_LLVM_DIR", "$(WALI_BUILD_DIR)/" ++ cfg.llvm),
    ("WALI_SYSROOT_DIR", "$(WALI_BUILD_DIR)/" ++ cfg.sysroot),
    ("WALI_LIBCXX_DIR", "$(WALI_BUILD_DIR)/" ++ cfg.libcxx),
    ("WALI_LLVM_BIN_DIR", "$(WALI_LLVM_DIR)/bin"),
    ("WALI_CC", "$(WALI_LLVM_BIN_DIR)/clang"),
    ("WALI_CXX", "$(WALI_LLVM_BIN_DIR)/clang++"),
    ("WALI_LD", "$(WALI_LLVM_BIN_DIR)/wasm-ld"),
    ("WALI_AR", "$(WALI_LLVM_BIN_DIR)/llvm-ar"),
    ("WALI_RANLIB", "$(WALI_LLVM_BIN_DIR)/llvm-ranlib"),
    ("WALI_COMMON_CFLAGS", flags.cflags),
    ("WALI_COMMON_CXXFLAGS", flags.cxxflags),
    ("WALI_COMMON_LDFLAGS", flags.ldflags),
    ("WALI_TARGET", cfg.triple),
    ("WALI_TARGET_NOVENDOR", cfg.targetNovendor)]

/-- `export NAME=value`, the flag strings in double quotes -/
def bash (cfg : WaliToml) (flags : FlagTexts) : Assignments :=
  [("WALI_BUILD_DIR", "$WALI_ROOT_DIR/" ++ cfg.root),
    ("WALI_LLVM_DIR", "$WALI_BUILD_DIR/" ++ cfg.llvm),
    ("WALI_SYSROOT_DIR", "$WALI_BUILD_DIR/" ++ cfg.sysroot),
    ("WALI_LIBCXX_DIR", "$WALI_BUILD_DIR/" ++ cfg.libcxx),
    ("WALI_LLVM_BIN_DIR", "$WALI_LLVM_DIR/bin"),
    ("WALI_CC", "$WALI_LLVM_BIN_DIR/clang"),
    ("WALI_CXX", "$WALI_LLVM_BIN_DIR/clang++"),
    ("WALI_LD", "$WALI_LLVM_BIN_DIR/wasm-ld"),
    ("WALI_AR", "$WALI_LLVM_BIN_DIR/llvm-ar"),
    ("WALI_RANLIB", "$WALI_LLVM_BIN_DIR/llvm-ranlib"),
    ("WALI_COMMON_CFLAGS", flags.cflags),
    ("WALI_COMMON_CXXFLAGS", flags.cxxflags),
    ("WALI_COMMON_LDFLAGS", flags.ldflags),
    ("WALI_TARGET", cfg.triple),
    ("WALI_TARGET_NOVENDOR", cfg.targetNovendor)]

/-- `set (NAME value)`, the flag strings in double quotes -/
def cmake (cfg : WaliToml) (flags : FlagTexts) : Assignments :=
  [("WALI_BUILD_DIR", "$\x7bWALI_ROOT_DIR\x7d/" ++ cfg.root),
    ("WALI_LLVM_BIN_DIR", "$\x7bWALI_BUILD_DIR\x7d/" ++ cfg.llvm ++ "/bin"),
    ("WALI_LIBCXX_DIR", "$\x7bWALI_BUILD_DIR\x7d/" ++ cfg.libcxx),
    ("CMAKE_SYSROOT", "$\x7bWALI_BUILD_DIR\x7d/" ++ cfg.sysroot),
    ("CMAKE_C_COMPILER", "$\x7bWALI_LLVM_BIN_DIR\x7d/clang"),
    ("CMAKE_CXX_COMPILER", "$\x7bWALI_LLVM_BIN_DIR\x7d/clang++"),
    ("CMAKE_AR", "$\x7bWALI_LLVM_BIN_DIR\x7d/llvm-ar"),
    ("CMAKE_RANLIB", "$\x7bWALI_LLVM_BIN_DIR\x7d/llvm-ranlib"),
    ("CMAKE_LINKER", "$\x7bWALI_LLVM_BIN_DIR\x7d/wasm-ld"),
    ("CMAKE_C_FLAGS", flags.cflags),
    ("CMAKE_CXX_FLAGS", flags.cxxflags),
    ("CMAKE_EXE_LINKER_FLAGS", flags.ldflags)]

structure Toolchains where
  makefile : Assignments
  bash : Assignments
  cmake : Assignments

/-- `main` of `gen_toolchains.py` -/
def genToolchainsMain (special : SpecialFields) (cfg : WaliToml) :
    Outcome PyErr Toolchains := do
  if cfg.tripleSplit.length ≠ 4 then raises (.systemExit 1)
  else do
    let makeFlags ← formatFlags special cfg "$(WALI_SYSROOT_DIR)" "$(WALI_COMMON_CFLAGS)"
      "$(WALI_LIBCXX_DIR)"
    let bashFlags ← formatFlags special cfg "$\x7bWALI_SYSROOT_DIR\x7d"
      "$\x7bWALI_COMMON_CFLAGS\x7d" "$\x7bWALI_LIBCXX_DIR\x7d"
    let cmakeFlags ← formatFlags special cfg "$\x7bCMAKE_SYSROOT\x7d"
      "$\x7bCMAKE_C_FLAGS\x7d" "$\x7bWALI_LIBCXX_DIR\x7d"
    returns
      { makefile := makefile cfg makeFlags
        bash := bash cfg bashFlags
        cmake := cmake cfg cmakeFlags }

/-- Characters that stand for themselves in a value, in all three languages. -/
def IsPlain (c : Char) : Prop :=
  isSpace c = false ∧ c ∉ "$`\"'\\#()\x7b\x7d[]<>|&;*?!~@".toList

instance (c : Char) : Decidable (IsPlain c) :=
  inferInstanceAs (Decidable (isSpace c = false ∧ c ∉ _))

/-- The absolute directory that holds the files: its names from the root on, without
characters that the three languages read otherwise. -/
structure ToolchainDir where
  names : List Text
  proper : ∀ n ∈ names, IsName n
  plain : ∀ n ∈ names, ∀ c ∈ n, IsPlain c

namespace ToolchainDir

variable (dir : ToolchainDir)

def text : Text := absPath dir.names

/-- The path of a file of the directory. -/
def file (name : Text) : Text := absPath (dir.names ++ [name])

/-- `$(patsubst %/,%, $(dir $(mkfile_path)))/..` with `$(dir ...)` the path up to its
last slash -/
def makeRootDir : Text :=
  let mkfileDir := (dir.file "wali.mk").rdropWhile (· != '/')
  (if EndsIn '/' mkfileDir then mkfileDir.dropLast else mkfileDir) ++ "/.."

/-- `$(dirname $(realpath ${BASH_SOURCE}))/..` -/
def bashRootDir : Text :=
  let sourceDir := ((dir.file "wali.sh").rdropWhile (· != '/')).rdropWhile (· == '/')
  (if sourceDir = [] then ("/" : Text) else sourceDir) ++ "/.."

/-- `get_filename_component(WALI_ROOT_DIR "${CMAKE_CURRENT_LIST_DIR}" ABSOLUTE)` -/
def cmakeRootDir : Text := dir.text

end ToolchainDir

def makeForm : RefForm := delimited '$' '(' ')'

def cmakeForm : RefForm := delimited '$' '\x7b' '\x7d'

def isNameStart (c : Char) : Bool := c.isAlpha || c == '_'

def isNameChar (c : Char) : Bool := c.isAlphanum || c == '_'

/-- `$NAME`, the name as long as possible. -/
def readBareName : Text → Option (Text × Nat)
  | '$' :: c :: cs =>
      if isNameStart c then
        some (c :: cs.takeWhile isNameChar, (cs.takeWhile isNameChar).length + 2)
      else none
  | _ => none

/-- `$NAME` and `${NAME}` -/
def bashForm : RefForm where
  read s := ((delimited '$' '\x7b' '\x7d').read s).or (readBareName s)
  marker := '$'
  read_eq_none := by
    intro c cs hc
    have hbraced : (delimited '$' '\x7b' '\x7d').read (c :: cs) = none :=
      (delimited '$' '\x7b' '\x7d').read_eq_none c cs hc
    rw [hbraced, Option.none_or, readBareName]
    rintro d ds heq
    exact hc (List.cons.inj heq).1

/-- The variables after a file has been read, with `WALI_ROOT_DIR` set before. -/
def environment (form : RefForm) (rootDir : Text) (file : Assignments) : Env :=
  assignAll form (Function.update (fun _ => []) "WALI_ROOT_DIR" rootDir) file

/-- The locations that a file sets up. -/
structure Locations where
  root : Text
  build : Text
  llvmBin : Text
  cc : Text
  cxx : Text
  ld : Text
  ar : Text
  ranlib : Text
  sysroot : Text
  libcxx : Text
  flags : FlagTexts

/-- The locations that make and bash set up: their files use the same names. -/
def waliLocations (env : Env) : Locations where
  root := env "WALI_ROOT_DIR"
  build := env "WALI_BUILD_DIR"
  llvmBin := env "WALI_LLVM_BIN_DIR"
  cc := env "WALI_CC"
  cxx := env "WALI_CXX"
  ld := env "WALI_LD"
  ar := env "WALI_AR"
  ranlib := env "WALI_RANLIB"
  sysroot := env "WALI_SYSROOT_DIR"
  libcxx := env "WALI_LIBCXX_DIR"
  flags := ⟨env "WALI_COMMON_CFLAGS", env "WALI_COMMON_CXXFLAGS", env "WALI_COMMON_LDFLAGS"⟩

def cmakeLocations (env : Env) : Locations where
  root := env "WALI_ROOT_DIR"
  build := env "WALI_BUILD_DIR"
  llvmBin := env "WALI_LLVM_BIN_DIR"
  cc := env "CMAKE_C_COMPILER"
  cxx := env "CMAKE_CXX_COMPILER"
  ld := env "CMAKE_LINKER"
  ar := env "CMAKE_AR"
  ranlib := env "CMAKE_RANLIB"
  sysroot := env "CMAKE_SYSROOT"
  libcxx := env "WALI_LIBCXX_DIR"
  flags := ⟨env "CMAKE_C_FLAGS", env "CMAKE_CXX_FLAGS", env "CMAKE_EXE_LINKER_FLAGS"⟩

namespace Toolchains

variable (files : Toolchains) (dir : ToolchainDir)

def makeLocations : Locations :=
  waliLocations (environment makeForm dir.makeRootDir files.makefile)

def bashLocations : Locations :=
  waliLocations (environment bashForm dir.bashRootDir files.bash)

def cmakeLocations : Locations :=
  ToolchainFiles.cmakeLocations (environment cmakeForm dir.cmakeRootDir files.cmake)

end Toolchains

end Wali.ToolchainFiles
