import Wali.RustConfig

/-!
What a run of `rustc_config.py` changes in the four files: the assigned key paths
and, by the shallow update of `target`, the keys beside them.
-/

namespace Wali.ConfigFrame

open Wali.InsertionDict
open Wali.NestedTables
open Wali.PythonText
open Wali.RunOutcome
open Wali.RunOutcome.Outcome
open Wali.RustConfig

variable {ι : Type}

/-- The tables that the script lists under `target`. -/
def targetTables (env : RustEnv) (rtarget : Text) : List (Text × TomlTable ι) :=
  [(rtarget, rtargetConfig env), (env.host, hostConfig env)]

/-- `build.target`, eight keys of `target.<rtarget>` and `target.<host>.llvm-config`. -/
def configAssignments (env : RustEnv) (rtarget : Text) : Assignments Text (TomlLeaf ι) :=
  sectionsAt [("build".toList, keyed (buildConfig env rtarget)),
    ("target".toList, tablesAt (targetTables env rtarget))]

def cratesIoAssignments (patch : TomlTable ι) : Assignments Text (TomlLeaf ι) :=
  under "patch" (under "crates-io" (keyed patch))

/-- `target.<rtarget>.linker` -/
def linkerAssignments (env : RustEnv) (rtarget : Text) : Assignments Text (TomlLeaf ι) :=
  under "target" (tablesAt [(rtarget, linkerConfig env)])

/-- The four files before and after, compared path by path. -/
structure FramesUpdate (env : RustEnv) (rtarget : Text) (before after : RustFiles ι) : Prop where
  config : ChangesOnly (configAssignments env rtarget)
    (some (.table before.config)) (some (.table after.config))
  cargo : ChangesOnly (cratesIoAssignments libcPatch)
    (some (.table before.cargo)) (some (.table after.cargo))
  bootstrap : ChangesOnly (cratesIoAssignments ccPatch)
    (some (.table before.bootstrap)) (some (.table after.bootstrap))
  cargoConfig : ChangesOnly (linkerAssignments env rtarget)
    (before.cargoConfig.map .table) (after.cargoConfig.map .table)

/-- The eight keys listed for the target, and the one for the host. -/
def rtargetKeys : List Text :=
  ["musl-root", "llvm-config", "llvm-libunwind", "crt-static", "cc", "cxx", "ar", "ranlib"]

def hostKeys : List Text := ["llvm-config"]

def linkerKeys : List Text := ["linker"]

/-- Every key at a place is one of the given keys. -/
def OnlyKeys (keys : List Text) (place : Option (Toml ι)) : Prop :=
  ∀ k, (child place k).isSome → k ∈ keys

/-- The sections to be updated are tables, the host is another target, a table that is
replaced has no key of the user's own, and the last file has its directory. -/
structure Mergeable (env : RustEnv) (rtarget : Text) (files : RustFiles ι) : Prop where
  cross : env.host ≠ rtarget
  build : TableAt "build" files.config
  target : TableAt "target" files.config
  rtargetKeys : OnlyKeys rtargetKeys
    (lookup (some (.table files.config)) ["target", rtarget])
  hostKeys : OnlyKeys hostKeys
    (lookup (some (.table files.config)) ["target", env.host])
  patch : TableAt "patch" files.cargo
  cratesIo : TableAt "crates-io" (entriesAt "patch" files.cargo)
  bootstrapPatch : TableAt "patch" files.bootstrap
  bootstrapCratesIo : TableAt "crates-io" (entriesAt "patch" files.bootstrap)
  cargoHome : files.cargoHome ≠ .missing
  linkerTarget : ∀ config, files.cargoConfig = some config → TableAt "target" config
  linkerKeys : OnlyKeys linkerKeys
    (lookup (files.cargoConfig.map .table) ["target", rtarget])

section Parts

variable {env : RustEnv} {rtarget : Text} {config after : TomlTable ι}

theorem changesOnly_cratesIo {patch cargo : TomlTable ι} (hsome : patch ≠ [])
    (hnodup : (patch.map Prod.fst).Nodup) (h : updateCratesIo patch cargo = returns after) :
    ChangesOnly (cratesIoAssignments patch) (some (.table cargo)) (some (.table after)) := by
  obtain ⟨_, _, entries, hentries, rfl⟩ := updateCratesIo_eq_returns_iff.mp h
  have hpatch : ∀ k, child (some (.table (assign "patch".toList (Nested.table entries)
      (ensureTable "patch" cargo)))) k =
        if "patch".toList = k then some (.table entries) else find k cargo :=
    fun k => find_assign_ensureTable _ k _ cargo
  have hcrates : ∀ k, child (some (.table entries)) k = if "crates-io".toList = k then
      some (.table (update (entriesAt "crates-io" (entriesAt "patch" cargo)) patch))
      else find k (entriesAt "patch" cargo) :=
    find_of_updateSection hentries
  have hkeyed : keyed patch ≠ [] := by simpa [keyed] using hsome
  have hunder : under "crates-io".toList (keyed patch) ≠ [] := by simpa [under] using hkeyed
  refine (changesOnly_under_iff hunder).mpr ⟨(changesOnly_under_iff hkeyed).mpr ⟨?_, ?_⟩, ?_⟩
  · rw [hpatch, if_pos rfl, hcrates, if_pos rfl, child_entriesAt]
    exact changesOnly_update hsome hnodup fun k => child_entriesAt "crates-io" k _
  · intro k hk
    rw [hpatch, if_pos rfl, hcrates, if_neg hk.symm, child_entriesAt]
  · intro k hk
    rw [hpatch, if_neg hk.symm, child_table]

theorem entriesAt_of_updateSection {key other : Text} {new : TomlTable ι} (hne : key ≠ other)
    (h : updateSection key new config = returns after) :
    entriesAt other after = entriesAt other config := by
  unfold entriesAt
  rw [find_of_updateSection h, if_neg hne]

theorem changesOnly_wasmLinker_iff {place : Option (Toml ι)} {entries : TomlTable ι}
    (hplace : ∀ k, child place k = find k entries) :
    ChangesOnly (tablesAt [(rtarget, linkerConfig env)]) place
        (some (.table (update entries (wasmLinker env rtarget)))) ↔
      OnlyKeys linkerKeys (child place rtarget) := by
  have hshallow : ChangesOnly (tablesAt [(rtarget, linkerConfig env)]) place
      (some (.table (update entries (wasmLinker env rtarget)))) ↔
        ∀ t ∈ [(rtarget, (linkerConfig env : TomlTable ι))], ∀ k,
          (child (child place t.1) k).isSome → k ∈ t.2.map Prod.fst :=
    changesOnly_update_tables (by simp) (by simp) hplace (by simp [linkerConfig])
  rw [hshallow, List.forall_mem_singleton]
  rfl

theorem changesOnly_linker_iff {home : CargoHome ι}
    (h : addWasmLinkerToCargo env rtarget home = returns after) :
    ChangesOnly (linkerAssignments env rtarget) (home.config?.map .table) (some (.table after)) ↔
      OnlyKeys linkerKeys (lookup (home.config?.map .table) ["target", rtarget]) := by
  have hsome : tablesAt [(rtarget, (linkerConfig env : TomlTable ι))] ≠ [] := by
    simp [tablesAt, sectionsAt, under, keyed, linkerConfig]
  rw [linkerAssignments, changesOnly_under_iff hsome]
  cases home with
  | missing => cases h
  | noConfig =>
      obtain rfl : [("target".toList, Nested.table (wasmLinker env rtarget))] = after :=
        Outcome.returns.inj h
      have hplace : ∀ k, child (none : Option (Toml ι)) k = find k [] := fun _ => rfl
      have hothers : ∀ k', k' ≠ "target".toList →
          find k' [("target".toList, (Nested.table (wasmLinker env rtarget) : Toml ι))] = none :=
        fun k' hk' => if_neg hk'.symm
      exact (and_iff_left hothers).trans (changesOnly_wasmLinker_iff hplace)
  | config config =>
      have hothers : ∀ k', k' ≠ "target".toList →
          child (some (.table after)) k' = child (some (.table config)) k' := by
        intro k' hk'
        rw [child_table, find_of_updateSection h, if_neg hk'.symm, child_table]
      have htarget := find_of_updateSection h "target"
      rw [if_pos rfl] at htarget
      rw [CargoHome.config?, Option.map_some, and_iff_left hothers, child_table after, htarget]
      exact changesOnly_wasmLinker_iff fun k => child_entriesAt "target" k config

/-- Where host and target differ, the two tables go into `target` side by side. -/
theorem waliConfig_of_ne (h : env.host ≠ rtarget) :
    (waliConfig env rtarget : TomlTable ι) =
      (targetTables env rtarget).map fun (k, new) => (k, .table new) := by
  simp [waliConfig, targetTables, update, assign, h.symm]

/-- For the host itself the second of two equal keys takes the place of the first. -/
theorem waliConfig_of_eq (h : env.host = rtarget) :
    (waliConfig env rtarget : TomlTable ι) = [(rtarget, .table (hostConfig env))] := by
  simp [waliConfig, update, assign, h]

theorem changesOnly_waliConfig_iff {place : Option (Toml ι)} {entries : TomlTable ι}
    (hplace : ∀ k, child place k = find k entries) :
    ChangesOnly (tablesAt (targetTables env rtarget)) place
        (some (.table (update entries (waliConfig env rtarget)))) ↔
      env.host ≠ rtarget ∧ OnlyKeys rtargetKeys (child place rtarget) ∧
        OnlyKeys hostKeys (child place env.host) := by
  by_cases hcross : env.host = rtarget
  · refine iff_of_false (fun h => ?_) (fun h => h.1 hcross)
    have hassigned := h.assigned [rtarget, "musl-root".toList] (str env.muslroot) (by
      simp [tablesAt, targetTables, sectionsAt, under, keyed, rtargetConfig])
    rw [waliConfig_of_eq hcross, lookup_cons, child_table, find_update] at hassigned
    simp [find, hostConfig, lookup, child] at hassigned
  · have hshallow : ChangesOnly (tablesAt (targetTables env rtarget)) place
        (some (.table (update entries (waliConfig env rtarget)))) ↔
          ∀ t ∈ (targetTables env rtarget : List (Text × TomlTable ι)), ∀ k,
            (child (child place t.1) k).isSome → k ∈ t.2.map Prod.fst := by
      rw [waliConfig_of_ne hcross]
      refine changesOnly_update_tables (by simp [targetTables]) ?_ hplace ?_
      · have hne : rtarget ≠ env.host := fun heq => hcross heq.symm
        simpa [targetTables] using hne
      · have hkeys : rtargetKeys.Nodup := by decide
        rw [targetTables, List.forall_mem_cons, List.forall_mem_singleton]
        exact ⟨⟨List.cons_ne_nil _ _, hkeys⟩, List.cons_ne_nil _ _, List.nodup_singleton _⟩
    rw [hshallow, targetTables, List.forall_mem_cons, List.forall_mem_singleton]
    exact (and_iff_right hcross).symm

theorem changesOnly_config_iff (h : updateConfigToml env rtarget config = returns after) :
    ChangesOnly (configAssignments env rtarget) (some (.table config)) (some (.table after)) ↔
      env.host ≠ rtarget ∧
      OnlyKeys rtargetKeys (lookup (some (.table config)) ["target", rtarget]) ∧
      OnlyKeys hostKeys (lookup (some (.table config)) ["target", env.host]) := by
  obtain ⟨config₁, hbuild, htarget⟩ := bind_eq_returns_iff.mp h
  have hchild : ∀ k, child (some (.table after)) k = if "target".toList = k then
      some (.table (update (entriesAt "target" config) (waliConfig env rtarget)))
      else if "build".toList = k then
        some (.table (update (entriesAt "build" config) (buildConfig env rtarget)))
      else find k config := by
    intro k
    rw [child_table, find_of_updateSection htarget, find_of_updateSection hbuild,
      entriesAt_of_updateSection (by decide) hbuild]
  have hsome : ∃ part ∈ [("build".toList, keyed (buildConfig env rtarget)),
      ("target".toList, tablesAt (targetTables env rtarget : List (Text × TomlTable ι)))],
      part.2 ≠ [] := ⟨_, List.mem_cons_self, by simp [keyed, buildConfig]⟩
  have hbuilt : ChangesOnly (keyed (buildConfig env rtarget))
      (child (some (.table config)) "build".toList)
      (some (.table (update (entriesAt "build" config) (buildConfig env rtarget)))) :=
    changesOnly_update (List.cons_ne_nil _ _) (List.nodup_singleton _)
      fun k => child_entriesAt "build" k config
  have hothers : ∀ k, k ∉ [("build".toList, keyed (buildConfig env rtarget)), ("target".toList,
      tablesAt (targetTables env rtarget : List (Text × TomlTable ι)))].map Prod.fst →
        child (some (.table after)) k = child (some (.table config)) k := by
    intro k hk
    simp only [List.map_cons, List.map_nil, List.mem_cons, List.not_mem_nil, or_false,
      not_or] at hk
    rw [hchild, if_neg (Ne.symm hk.2), if_neg (Ne.symm hk.1), child_table]
  have hnodup : ([("build".toList, keyed (buildConfig env rtarget)), ("target".toList,
      tablesAt (targetTables env rtarget : List (Text × TomlTable ι)))].map Prod.fst).Nodup := by
    simp only [List.map_cons, List.map_nil]
    decide
  have hne : "target".toList ≠ "build".toList := by decide
  rw [configAssignments, changesOnly_sections_iff hsome hnodup, and_iff_left hothers,
    List.forall_mem_cons, List.forall_mem_singleton, hchild, hchild, if_pos rfl,
    if_neg hne, if_pos rfl, and_iff_right hbuilt]
  exact changesOnly_waliConfig_iff fun k => child_entriesAt "target" k config

end Parts

variable {env : RustEnv} {rtarget : Text} {files : RustFiles ι}

theorem exists_updateCratesIo_iff {patch cargo : TomlTable ι} :
    (∃ after, updateCratesIo patch cargo = returns after) ↔
      TableAt "patch" cargo ∧ TableAt "crates-io" (entriesAt "patch" cargo) := by
  constructor
  · rintro ⟨after, h⟩
    obtain ⟨hpatch, hcrates, _⟩ := updateCratesIo_eq_returns_iff.mp h
    exact ⟨hpatch, hcrates⟩
  · rintro ⟨hpatch, hcrates⟩
    exact ⟨_, updateCratesIo_eq_returns_iff.mpr
      ⟨hpatch, hcrates, _, updateSection_eq_returns_iff.mpr ⟨hcrates, rfl⟩, rfl⟩⟩

theorem exists_updateConfigToml_iff {config : TomlTable ι} :
    (∃ after, updateConfigToml env rtarget config = returns after) ↔
      TableAt "build" config ∧ TableAt "target" config := by
  have hkept : ∀ config₁, updateSection "build" (buildConfig env rtarget) config =
      returns config₁ → (TableAt "target" config₁ ↔ TableAt "target" config) := by
    intro config₁ h
    unfold TableAt
    rw [find_of_updateSection h, if_neg (by decide)]
  constructor
  · rintro ⟨after, h⟩
    obtain ⟨config₁, hbuild, htarget⟩ := bind_eq_returns_iff.mp h
    exact ⟨(updateSection_eq_returns_iff.mp hbuild).1,
      (hkept _ hbuild).mp (updateSection_eq_returns_iff.mp htarget).1⟩
  · rintro ⟨hbuild, htarget⟩
    have hbuilt := updateSection_eq_returns_iff.mpr
      ⟨hbuild, (rfl : _ = assign "build".toList (Nested.table (update (entriesAt "build" config)
        (buildConfig env rtarget))) (ensureTable "build" config))⟩
    exact ⟨_, bind_eq_returns_iff.mpr ⟨_, hbuilt, updateSection_eq_returns_iff.mpr
      ⟨(hkept _ hbuilt).mpr htarget, rfl⟩⟩⟩

theorem exists_addWasmLinkerToCargo_iff {home : CargoHome ι} :
    (∃ after, addWasmLinkerToCargo env rtarget home = returns after) ↔
      home ≠ .missing ∧ ∀ config, home.config? = some config → TableAt "target" config := by
  cases home with
  | missing => simp [addWasmLinkerToCargo]
  | noConfig => exact iff_of_true ⟨_, rfl⟩ (by simp [CargoHome.config?])
  | config config =>
      constructor
      · rintro ⟨after, h⟩
        refine ⟨nofun, fun config' heq => ?_⟩
        cases heq
        exact (updateSection_eq_returns_iff.mp h).1
      · rintro ⟨_, h⟩
        exact ⟨_, updateSection_eq_returns_iff.mpr ⟨h config rfl, rfl⟩⟩

/-- A run changes the assigned paths only, if and only if the files can be merged. -/
theorem rustc_config_frame_iff (env : RustEnv) (rtarget : Text) (files : RustFiles ι) :
    (∃ after, main env rtarget files = ⟨returns (), after⟩ ∧
        FramesUpdate env rtarget files after) ↔ Mergeable env rtarget files := by
  constructor
  · rintro ⟨after, hmain, hframe⟩
    obtain ⟨hconfig, hcargo, hbootstrap, linker, hlinker, hafter⟩ := main_eq_iff.mp hmain
    obtain ⟨hbuild, htarget⟩ := exists_updateConfigToml_iff.mp ⟨_, hconfig⟩
    obtain ⟨hpatch, hcrates⟩ := exists_updateCratesIo_iff.mp ⟨_, hcargo⟩
    obtain ⟨hpatch', hcrates'⟩ := exists_updateCratesIo_iff.mp ⟨_, hbootstrap⟩
    obtain ⟨hcross, hrtarget, hhost⟩ := (changesOnly_config_iff hconfig).mp hframe.config
    obtain ⟨hhome, hlinkerTarget⟩ := exists_addWasmLinkerToCargo_iff.mp ⟨_, hlinker⟩
    have hlinked := hframe.cargoConfig
    rw [RustFiles.cargoConfig, RustFiles.cargoConfig, hafter] at hlinked
    exact
      { cross := hcross
        build := hbuild
        target := htarget
        rtargetKeys := hrtarget
        hostKeys := hhost
        patch := hpatch
        cratesIo := hcrates
        bootstrapPatch := hpatch'
        bootstrapCratesIo := hcrates'
        cargoHome := hhome
        linkerTarget := hlinkerTarget
        linkerKeys := (changesOnly_linker_iff hlinker).mp hlinked }
  · intro h
    obtain ⟨config, hconfig⟩ := exists_updateConfigToml_iff.mpr ⟨h.build, h.target⟩
    obtain ⟨cargo, hcargo⟩ := exists_updateCratesIo_iff.mpr ⟨h.patch, h.cratesIo⟩
    obtain ⟨bootstrap, hbootstrap⟩ :=
      exists_updateCratesIo_iff.mpr ⟨h.bootstrapPatch, h.bootstrapCratesIo⟩
    obtain ⟨linker, hlinker⟩ :=
      exists_addWasmLinkerToCargo_iff.mpr ⟨h.cargoHome, h.linkerTarget⟩
    refine ⟨⟨config, cargo, bootstrap, .config linker⟩,
      main_eq_iff.mpr ⟨hconfig, hcargo, hbootstrap, linker, hlinker, rfl⟩, ?_⟩
    exact
      { config := (changesOnly_config_iff hconfig).mpr ⟨h.cross, h.rtargetKeys, h.hostKeys⟩
        cargo := changesOnly_cratesIo (List.cons_ne_nil _ _) (List.nodup_singleton _) hcargo
        bootstrap :=
          changesOnly_cratesIo (List.cons_ne_nil _ _) (List.nodup_singleton _) hbootstrap
        cargoConfig := (changesOnly_linker_iff hlinker).mpr h.linkerKeys }

/-- A cargo configuration with a runner for the target, as users write it. -/
def runnerFiles : RustFiles Empty where
  config := []
  cargo := []
  bootstrap := []
  cargoHome := .config [("target", .table [("wasm32-wali-linux-musl",
    .table [("runner", str "iwasm")])])]

def sampleEnv : RustEnv where
  host := "x86_64-unknown-linux-gnu"
  muslroot := "/opt/musl"
  llvmTool name := "/opt/llvm/bin/".toList ++ name

def runnerPath : List Text := ["target", "wasm32-wali-linux-musl", "runner"]

/-- The runner is gone after the run. -/
theorem runner_lost :
    ∃ after, main sampleEnv "wasm32-wali-linux-musl" runnerFiles = ⟨returns (), after⟩ ∧
      (lookup (runnerFiles.cargoConfig.map .table) runnerPath).isSome = true ∧
      lookup (after.cargoConfig.map .table) runnerPath = none ∧
      ¬ FramesUpdate sampleEnv "wasm32-wali-linux-musl" runnerFiles after := by
  refine ⟨_, rfl, rfl, rfl, fun h => ?_⟩
  have hpaths : (linkerAssignments sampleEnv "wasm32-wali-linux-musl" :
      Assignments Text (TomlLeaf Empty)).map Prod.fst =
        [["target".toList, "wasm32-wali-linux-musl".toList, "linker".toList]] := rfl
  have hframe := h.cargoConfig.frame runnerPath (by
    rw [hpaths]
    decide)
  cases hframe

end Wali.ConfigFrame
