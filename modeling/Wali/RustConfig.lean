import Wali.NestedTables
import Wali.PythonText
import Wali.RunOutcome

/-!
`rustc_config.py`: the four TOML files that it reads, changes and writes back.
-/

namespace Wali.RustConfig

open Wali.InsertionDict
open Wali.NestedTables
open Wali.PythonText
open Wali.RunOutcome
open Wali.RunOutcome.Outcome

/-- A TOML value that is no table; `ι` are the values that the script never writes. -/
inductive TomlLeaf (ι : Type)
  | str (s : Text)
  | bool (b : Bool)
  | strings (xs : List Text)
  | other (value : ι)

abbrev Toml (ι : Type) := Nested Text (TomlLeaf ι)

abbrev TomlTable (ι : Type) := List (Text × Toml ι)

variable {ι : Type}

def str (s : Text) : Toml ι := .leaf (.str s)

/-- `host` is what `llvm-config --host-target` prints, stripped; `muslroot` and
`llvmTool name` are the resolved paths of the sysroot and of `llvmbin / name`. -/
structure RustEnv where
  host : Text
  muslroot : Text
  llvmTool : Text → Text

/-- `if key not in config: config[key] = {}` -/
def ensureTable (key : Text) (config : TomlTable ι) : TomlTable ι :=
  if key ∈ config.map Prod.fst then config else assign key (.table []) config

/-- `config[key].update(new)` after `ensureTable`. -/
def updateSection (key : Text) (new config : TomlTable ι) : Outcome PyErr (TomlTable ι) :=
  match find key (ensureTable key config) with
  | some (.table entries) =>
      returns (assign key (.table (update entries new)) (ensureTable key config))
  | _ => raises .attributeError

/-- The dictionary `wali_config[rtarget]`. -/
def rtargetConfig (env : RustEnv) : TomlTable ι :=
  [("musl-root", str env.muslroot),
    ("llvm-config", str (env.llvmTool "llvm-config")),
    ("llvm-libunwind", str "system"),
    ("crt-static", .leaf (.bool true)),
    ("cc", str (env.llvmTool "clang")),
    ("cxx", str (env.llvmTool "clang++")),
    ("ar", str (env.llvmTool "llvm-ar")),
    ("ranlib", str (env.llvmTool "llvm-ranlib"))]

/-- The dictionary `wali_config[host_platform]`. -/
def hostConfig (env : RustEnv) : TomlTable ι :=
  [("llvm-config", str (env.llvmTool "llvm-config"))]

/-- In a dictionary display the later of two equal keys decides the value. -/
def waliConfig (env : RustEnv) (rtarget : Text) : TomlTable ι :=
  update [] [(rtarget, .table (rtargetConfig env)), (env.host, .table (hostConfig env))]

def buildConfig (env : RustEnv) (rtarget : Text) : TomlTable ι :=
  [("target", .leaf (.strings [env.host, rtarget]))]

def updateConfigToml (env : RustEnv) (rtarget : Text) (config : TomlTable ι) :
    Outcome PyErr (TomlTable ι) := do
  let config ← updateSection "build" (buildConfig env rtarget) config
  updateSection "target" (waliConfig env rtarget) config

/-- `cargo['patch']['crates-io'].update(patch)` where the two tables may be missing. -/
def updateCratesIo (patch cargo : TomlTable ι) : Outcome PyErr (TomlTable ι) :=
  match find "patch".toList (ensureTable "patch" cargo) with
  | some (.table entries) => do
      let entries ← updateSection "crates-io" patch entries
      returns (assign "patch".toList (.table entries) (ensureTable "patch" cargo))
  | _ => raises .typeError

def libcPatch : TomlTable ι :=
  [("libc", .table [("git", str "https://github.com/arjunr2/rust-libc.git"),
    ("branch", str "libc-0.2")])]

def updateBaseCargoToml (cargo : TomlTable ι) : Outcome PyErr (TomlTable ι) :=
  updateCratesIo libcPatch cargo

def ccPatch : TomlTable ι :=
  [("cc", .table [("git", str "https://github.com/arjunr2/rust-cc.git")])]

def updateBootstrapCargoToml (cargo : TomlTable ι) : Outcome PyErr (TomlTable ι) :=
  updateCratesIo ccPatch cargo

def linkerConfig (env : RustEnv) : TomlTable ι := [("linker", str (env.llvmTool "wasm-ld"))]

def wasmLinker (env : RustEnv) (rtarget : Text) : TomlTable ι :=
  [(rtarget, .table (linkerConfig env))]

/-- The directory `~/.cargo`: it is missing, has no `config.toml`, or has one. -/
inductive CargoHome (ι : Type)
  | missing
  | noConfig
  | config (contents : TomlTable ι)

def CargoHome.config? : CargoHome ι → Option (TomlTable ι)
  | config contents => some contents
  | _ => none

/-- The script does not make the directory: there opening the file for writing fails. -/
def addWasmLinkerToCargo (env : RustEnv) (rtarget : Text) :
    CargoHome ι → Outcome PyErr (TomlTable ι)
  | .missing => raises .fileNotFoundError
  | .noConfig => returns [("target", .table (wasmLinker env rtarget))]
  | .config config => updateSection "target" (wasmLinker env rtarget) config

/-- `config.toml` and `Cargo.toml` of the compiler source, `Cargo.toml` of its
bootstrap, and `~/.cargo` with its `config.toml`. -/
structure RustFiles (ι : Type) where
  config : TomlTable ι
  cargo : TomlTable ι
  bootstrap : TomlTable ι
  cargoHome : CargoHome ι

def RustFiles.cargoConfig (files : RustFiles ι) : Option (TomlTable ι) := files.cargoHome.config?

structure ConfigRun (ι : Type) where
  outcome : Outcome PyErr Unit
  files : RustFiles ι

/-- A file is written when its new contents are complete. -/
def writeBack (files : RustFiles ι) (updated : Outcome PyErr (TomlTable ι))
    (write : TomlTable ι → RustFiles ι) : ConfigRun ι :=
  match updated with
  | returns contents => ⟨returns (), write contents⟩
  | raises error => ⟨raises error, files⟩
  | diverges => ⟨diverges, files⟩

def ConfigRun.andThen (run : ConfigRun ι) (next : RustFiles ι → ConfigRun ι) : ConfigRun ι :=
  match run.outcome with
  | returns () => next run.files
  | raises error => ⟨raises error, run.files⟩
  | diverges => ⟨diverges, run.files⟩

def main (env : RustEnv) (rtarget : Text) (files : RustFiles ι) : ConfigRun ι :=
  (writeBack files (updateConfigToml env rtarget files.config)
    fun config => { files with config }).andThen fun files =>
  (writeBack files (updateBaseCargoToml files.cargo)
    fun cargo => { files with cargo }).andThen fun files =>
  (writeBack files (updateBootstrapCargoToml files.bootstrap)
    fun bootstrap => { files with bootstrap }).andThen fun files =>
  writeBack files (addWasmLinkerToCargo env rtarget files.cargoHome)
    fun config => { files with cargoHome := .config config }

section Sections

/-- The key is absent or leads to a table. -/
def TableAt (key : Text) (config : TomlTable ι) : Prop :=
  ∀ value, find key config = some value → ∃ entries, value = .table entries

/-- The table under a key, empty where the key is absent. -/
def entriesAt (key : Text) (config : TomlTable ι) : TomlTable ι :=
  match find key config with
  | some (.table entries) => entries
  | _ => []

variable {key : Text} {new config config' : TomlTable ι}

theorem find_ensureTable (key k : Text) (config : TomlTable ι) :
    find k (ensureTable key config) =
      (find k config).or (if key = k then some (.table []) else none) := by
  unfold ensureTable
  split
  · next hmem =>
      obtain ⟨value, hvalue⟩ := Option.isSome_iff_exists.mp ((find_isSome_iff key config).mpr hmem)
      by_cases hk : key = k
      · subst hk
        simp [hvalue]
      · simp [hk]
  · next hmem =>
      have hnone : find key config = none := by
        rw [← Option.not_isSome_iff_eq_none, find_isSome_iff]
        exact hmem
      rw [find_assign]
      by_cases hk : key = k
      · subst hk
        simp [hnone]
      · simp [hk]

theorem find_ensureTable_of_tableAt (h : TableAt key config) :
    find key (ensureTable key config) = some (.table (entriesAt key config)) := by
  rw [find_ensureTable]
  unfold entriesAt
  cases hfind : find key config with
  | none => simp
  | some value =>
      obtain ⟨entries, rfl⟩ := h value hfind
      simp

theorem tableAt_of_find_ensureTable {entries : TomlTable ι}
    (h : find key (ensureTable key config) = some (.table entries)) : TableAt key config := by
  intro value hvalue
  rw [find_ensureTable, hvalue, Option.some_or] at h
  exact ⟨entries, Option.some.inj h⟩

theorem updateSection_eq_returns_iff :
    updateSection key new config = returns config' ↔ TableAt key config ∧
      config' = assign key (.table (update (entriesAt key config) new))
        (ensureTable key config) := by
  constructor
  · intro h
    unfold updateSection at h
    split at h
    · next entries hentries =>
        have htable := tableAt_of_find_ensureTable hentries
        rw [find_ensureTable_of_tableAt htable] at hentries
        cases hentries
        cases h
        exact ⟨htable, rfl⟩
    · cases h
  · rintro ⟨htable, rfl⟩
    rw [updateSection, find_ensureTable_of_tableAt htable]

theorem find_assign_ensureTable (key k : Text) (value : Toml ι) (config : TomlTable ι) :
    find k (assign key value (ensureTable key config)) =
      if key = k then some value else find k config := by
  rw [find_assign, find_ensureTable]
  by_cases hk : key = k <;> simp [hk]

theorem find_of_updateSection (h : updateSection key new config = returns config') (k : Text) :
    find k config' = if key = k then some (.table (update (entriesAt key config) new))
      else find k config := by
  obtain ⟨_, rfl⟩ := updateSection_eq_returns_iff.mp h
  exact find_assign_ensureTable key k _ config

theorem updateCratesIo_eq_returns_iff {patch cargo cargo' : TomlTable ι} :
    updateCratesIo patch cargo = returns cargo' ↔ TableAt "patch" cargo ∧
      TableAt "crates-io" (entriesAt "patch" cargo) ∧
      ∃ entries, updateSection "crates-io" patch (entriesAt "patch" cargo) = returns entries ∧
        cargo' = assign "patch".toList (.table entries) (ensureTable "patch" cargo) := by
  constructor
  · intro h
    unfold updateCratesIo at h
    split at h
    · next entries hentries =>
        have htable := tableAt_of_find_ensureTable hentries
        rw [find_ensureTable_of_tableAt htable] at hentries
        cases hentries
        obtain ⟨entries, hupdate, heq⟩ := bind_eq_returns_iff.mp h
        cases heq
        exact ⟨htable, (updateSection_eq_returns_iff.mp hupdate).1, entries, hupdate, rfl⟩
    · cases h
  · rintro ⟨htable, _, entries, hupdate, rfl⟩
    rw [updateCratesIo, find_ensureTable_of_tableAt htable]
    exact bind_eq_returns_iff.mpr ⟨entries, hupdate, rfl⟩

theorem child_entriesAt (key k : Text) (config : TomlTable ι) :
    child (child (some (.table config)) key) k = find k (entriesAt key config) := by
  rw [child_table]
  unfold entriesAt
  cases find key config with
  | none => rfl
  | some value => cases value <;> rfl

end Sections

section Runs

variable {files after : RustFiles ι} {env : RustEnv} {rtarget : Text}

theorem writeBack_eq_iff {updated : Outcome PyErr (TomlTable ι)}
    {write : TomlTable ι → RustFiles ι} :
    writeBack files updated write = ⟨returns (), after⟩ ↔
      ∃ contents, updated = returns contents ∧ write contents = after := by
  cases updated <;> simp [writeBack]

theorem andThen_eq_iff {run : ConfigRun ι} {next : RustFiles ι → ConfigRun ι} :
    run.andThen next = ⟨returns (), after⟩ ↔
      ∃ between, run = ⟨returns (), between⟩ ∧ next between = ⟨returns (), after⟩ := by
  rcases run with ⟨outcome, between⟩
  unfold ConfigRun.andThen
  cases outcome <;> simp

theorem main_eq_iff :
    main env rtarget files = ⟨returns (), after⟩ ↔
      updateConfigToml env rtarget files.config = returns after.config ∧
      updateBaseCargoToml files.cargo = returns after.cargo ∧
      updateBootstrapCargoToml files.bootstrap = returns after.bootstrap ∧
      ∃ config, addWasmLinkerToCargo env rtarget files.cargoHome = returns config ∧
        after.cargoHome = .config config := by
  rw [main]
  simp only [andThen_eq_iff, writeBack_eq_iff]
  constructor
  · rintro ⟨_, ⟨config, hconfig, rfl⟩, _, ⟨cargo, hcargo, rfl⟩, _, ⟨bootstrap, hbootstrap, rfl⟩,
      linker, hlinker, rfl⟩
    exact ⟨hconfig, hcargo, hbootstrap, linker, hlinker, rfl⟩
  · rintro ⟨hconfig, hcargo, hbootstrap, linker, hlinker, heq⟩
    rcases after with ⟨config, cargo, bootstrap, cargoHome⟩
    cases heq
    exact ⟨_, ⟨config, hconfig, rfl⟩, _, ⟨cargo, hcargo, rfl⟩, _, ⟨bootstrap, hbootstrap, rfl⟩,
      linker, hlinker, rfl⟩

end Runs

end Wali.RustConfig
