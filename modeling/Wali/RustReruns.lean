import Wali.ConfigFrame
import Wali.ResumedRuns

/-!
Several runs of `rustc_config.py` on the same files: a run again after one that was broken
off, and runs for different targets.
-/

namespace Wali.RustReruns

open Wali.ConfigFrame
open Wali.InsertionDict
open Wali.NestedTables
open Wali.PythonText
open Wali.ResumedRuns
open Wali.RunOutcome
open Wali.RunOutcome.Outcome
open Wali.RustConfig

variable {ι : Type} {env : RustEnv} {rtarget : Text}

section Settled

variable {key : Text} {new config config' : TomlTable ι}

/-- The section is a table with the entries that the script puts into it. -/
def Listed (key : Text) (new config : TomlTable ι) : Prop :=
  TableAt key config ∧ key ∈ config.map Prod.fst ∧
    ∀ pair ∈ new, find pair.1 (entriesAt key config) = some pair.2

theorem listed_of_updateSection (hnodup : (new.map Prod.fst).Nodup)
    (h : updateSection key new config = returns config') : Listed key new config' := by
  have hfind := find_of_updateSection h key
  rw [if_pos rfl] at hfind
  refine ⟨?_, ?_, fun pair hpair => ?_⟩
  · intro value hvalue
    rw [hfind, Option.some.injEq] at hvalue
    exact ⟨_, hvalue.symm⟩
  · rw [← find_isSome_iff, hfind]
    rfl
  · rw [entriesAt, hfind, find_update, find_reverse hnodup, find_of_mem hnodup hpair,
      Option.some_or]

theorem updateSection_of_listed (h : Listed key new config) :
    updateSection key new config = returns config := by
  obtain ⟨htable, hkey, hentries⟩ := h
  have hensure : ensureTable key config = config := if_pos hkey
  have hfind := find_ensureTable_of_tableAt htable
  rw [hensure] at hfind
  refine updateSection_eq_returns_iff.mpr ⟨htable, ?_⟩
  rw [update_of_find hentries, hensure, assign_of_find hfind]

/-- Sections under other keys do not matter. -/
theorem listed_congr (hfind : find key config' = find key config) (h : Listed key new config) :
    Listed key new config' := by
  obtain ⟨htable, hkey, hentries⟩ := h
  refine ⟨?_, ?_, ?_⟩
  · unfold TableAt
    rwa [hfind]
  · rwa [← find_isSome_iff, hfind, find_isSome_iff]
  · unfold entriesAt at hentries ⊢
    rwa [hfind]

theorem nodup_waliConfig (env : RustEnv) (rtarget : Text) :
    ((waliConfig env rtarget : TomlTable ι).map Prod.fst).Nodup := by
  by_cases hcross : env.host = rtarget
  · rw [waliConfig_of_eq hcross]
    exact List.nodup_singleton _
  · rw [waliConfig_of_ne hcross]
    have hne : rtarget ≠ env.host := fun heq => hcross heq.symm
    simpa [targetTables] using hne

theorem updateConfigToml_returned
    (h : updateConfigToml env rtarget config = returns config') :
    updateConfigToml env rtarget config' = returns config' := by
  obtain ⟨between, hbuild, htarget⟩ := bind_eq_returns_iff.mp h
  have hbuilt : Listed "build" (buildConfig env rtarget) config' := by
    refine listed_congr ?_ (listed_of_updateSection (List.nodup_singleton _) hbuild)
    rw [find_of_updateSection htarget, if_neg (by decide)]
  have htargets := listed_of_updateSection (nodup_waliConfig env rtarget) htarget
  rw [updateConfigToml, updateSection_of_listed hbuilt, returns_bind,
    updateSection_of_listed htargets]

theorem updateCratesIo_returned {patch cargo cargo' : TomlTable ι}
    (hnodup : (patch.map Prod.fst).Nodup) (h : updateCratesIo patch cargo = returns cargo') :
    updateCratesIo patch cargo' = returns cargo' := by
  obtain ⟨_, _, entries, hentries, rfl⟩ := updateCratesIo_eq_returns_iff.mp h
  have hcrates := listed_of_updateSection hnodup hentries
  have hpatch := find_assign_ensureTable "patch" "patch" (Nested.table entries) cargo
  rw [if_pos rfl] at hpatch
  have hensure : ensureTable "patch" (assign "patch".toList (Nested.table entries)
      (ensureTable "patch" cargo)) =
        assign "patch".toList (Nested.table entries) (ensureTable "patch" cargo) := by
    refine if_pos ?_
    rw [← find_isSome_iff, hpatch]
    rfl
  rw [updateCratesIo, hensure, hpatch]
  refine bind_eq_returns_iff.mpr ⟨entries, updateSection_of_listed hcrates, ?_⟩
  rw [assign_of_find hpatch]

theorem addWasmLinkerToCargo_returned {home : CargoHome ι}
    (h : addWasmLinkerToCargo env rtarget home = returns config') :
    addWasmLinkerToCargo env rtarget (.config config') = returns config' := by
  have hlisted : Listed "target" (wasmLinker env rtarget) config' := by
    cases home with
    | missing => cases h
    | noConfig =>
        cases h
        refine ⟨?_, by simp, by simp [wasmLinker, entriesAt, find]⟩
        intro value hvalue
        exact ⟨_, (Option.some.inj hvalue).symm⟩
    | config config => exact listed_of_updateSection (List.nodup_singleton _) h
  exact updateSection_of_listed hlisted

end Settled

section Resumed

/-- The four parts of `main`, one for each file -/
def rewrites (env : RustEnv) (rtarget : Text) : List (Rewrite PyErr (RustFiles ι)) :=
  [{ get := RustFiles.config
     set := fun config files => { files with config }
     rewritten := updateConfigToml env rtarget
     get_set := fun _ _ => rfl
     set_get := fun _ => rfl
     rewritten_returned := fun _ _ => updateConfigToml_returned },
   { get := RustFiles.cargo
     set := fun cargo files => { files with cargo }
     rewritten := updateBaseCargoToml
     get_set := fun _ _ => rfl
     set_get := fun _ => rfl
     rewritten_returned := fun _ _ => updateCratesIo_returned (List.nodup_singleton _) },
   { get := RustFiles.bootstrap
     set := fun bootstrap files => { files with bootstrap }
     rewritten := updateBootstrapCargoToml
     get_set := fun _ _ => rfl
     set_get := fun _ => rfl
     rewritten_returned := fun _ _ => updateCratesIo_returned (List.nodup_singleton _) },
   { get := RustFiles.cargoHome
     set := fun cargoHome files => { files with cargoHome }
     rewritten := fun cargoHome => do
       let config ← addWasmLinkerToCargo env rtarget cargoHome
       returns (.config config)
     get_set := fun _ _ => rfl
     set_get := fun _ => rfl
     rewritten_returned := by
       intro cargoHome cargoHome' h
       obtain ⟨config, hconfig, heq⟩ := bind_eq_returns_iff.mp h
       cases heq
       exact bind_eq_returns_iff.mpr ⟨config, addWasmLinkerToCargo_returned hconfig, rfl⟩ }]

def steps (env : RustEnv) (rtarget : Text) : List (Step PyErr (RustFiles ι)) :=
  (rewrites env rtarget).map Rewrite.step

theorem resumable_steps (env : RustEnv) (rtarget : Text) :
    Resumable (steps env rtarget : List (Step PyErr (RustFiles ι))) := by
  refine resumable_rewrites fun r hr r' hr' => ?_
  simp only [rewrites, List.mem_cons, List.not_mem_nil, or_false] at hr hr'
  rcases hr with rfl | rfl | rfl | rfl <;> rcases hr' with rfl | rfl | rfl | rfl
  all_goals first | exact .inl rfl | exact .inr fun _ _ => rfl

/-- The run of the steps is the run of `main`. -/
theorem runSteps_steps (env : RustEnv) (rtarget : Text) (files : RustFiles ι) :
    runSteps (steps env rtarget) files =
      ((main env rtarget files).outcome, (main env rtarget files).files) := by
  rcases files with ⟨config, cargo, bootstrap, cargoHome⟩
  simp only [main, steps, rewrites, List.map_cons, List.map_nil, runSteps, Rewrite.step]
  cases updateConfigToml env rtarget config with
  | raises error => rfl
  | diverges => rfl
  | returns config =>
      simp only [writeBack, ConfigRun.andThen]
      cases updateBaseCargoToml cargo with
      | raises error => rfl
      | diverges => rfl
      | returns cargo =>
          simp only
          cases updateBootstrapCargoToml bootstrap with
          | raises error => rfl
          | diverges => rfl
          | returns bootstrap =>
              simp only
              cases addWasmLinkerToCargo env rtarget cargoHome <;> rfl

/-- What is left of a run that ends after the first `k` files, or at an earlier failure. -/
def leftAfter (k : Nat) (env : RustEnv) (rtarget : Text) (files : RustFiles ι) : RustFiles ι :=
  (runSteps ((steps env rtarget).take k) files).2

/-- The first `k` files and the others from two places -/
def mixed (k : Nat) (first others : RustFiles ι) : RustFiles ι where
  config := if 0 < k then first.config else others.config
  cargo := if 1 < k then first.cargo else others.cargo
  bootstrap := if 2 < k then first.bootstrap else others.bootstrap
  cargoHome := if 3 < k then first.cargoHome else others.cargoHome

/-- The first `k` steps see only the first `k` files. -/
theorem step_mixed {k i : Nat} (others : RustFiles ι) {r : Rewrite PyErr (RustFiles ι)}
    (hk : i < k) (hr : (rewrites env rtarget)[i]? = some r) (files : RustFiles ι) :
    r.step (mixed k files others) = ((r.step files).1, mixed k (r.step files).2 others) := by
  have hget : ∀ files, r.get (mixed k files others) = r.get files := by
    intro files
    rcases i with _ | _ | _ | _ | i
    all_goals
      cases hr
      try exact if_pos hk
  have hset : ∀ part files,
      r.set part (mixed k files others) = mixed k (r.set part files) others := by
    intro part files
    rcases i with _ | _ | _ | _ | i
    all_goals
      cases hr
      try simp [mixed, hk]
  exact @step_edit _ _ r (fun files => mixed k files others) hget hset files

theorem rerun_mixed (k : Nat) (env : RustEnv) (rtarget : Text) (files others : RustFiles ι) :
    runSteps (steps env rtarget) (mixed k (leftAfter k env rtarget files) others) =
      runSteps (steps env rtarget) (mixed k files others) := by
  have hresumable : Resumable ((steps env rtarget).take k ++ (steps env rtarget).drop k :
      List (Step PyErr (RustFiles ι))) := by
    rw [List.take_append_drop]
    exact resumable_steps env rtarget
  have hedit : ∀ step ∈ (steps env rtarget).take k, ∀ files,
      step (mixed k files others) = ((step files).1, mixed k (step files).2 others) := by
    intro step hstep files
    rw [steps, ← List.map_take] at hstep
    obtain ⟨r, hr, rfl⟩ := List.mem_map.mp hstep
    obtain ⟨i, hi, hget⟩ := List.mem_take_iff_getElem.mp hr
    rw [Nat.lt_min] at hi
    exact step_mixed others hi.1 (List.getElem?_eq_some_iff.mpr ⟨hi.2, hget⟩) files
  have hrun := @runSteps_repaired _ _ _ _ hresumable (fun files => mixed k files others) hedit files
  rwa [List.take_append_drop] at hrun

/-- A run is broken off at any place, by an error in the next file or from outside, and the
files that it did not reach are changed in any way: the next run leads to the same as if the
broken one had not been made. -/
theorem rerun_completes (k : Nat) (env : RustEnv) (rtarget : Text) (files others : RustFiles ι) :
    main env rtarget (leftAfter k env rtarget files) = main env rtarget files ∧
      main env rtarget (mixed k (leftAfter k env rtarget files) others) =
        main env rtarget (mixed k files others) := by
  have hmain : ∀ files files' : RustFiles ι,
      runSteps (steps env rtarget) files = runSteps (steps env rtarget) files' →
        main env rtarget files = main env rtarget files' := by
    intro files files' h
    simp only [runSteps_steps, Prod.mk.injEq] at h
    cases hrun : main env rtarget files
    cases hrun' : main env rtarget files'
    simp only [hrun, hrun'] at h
    rw [h.1, h.2]
  refine ⟨hmain _ _ ?_, hmain _ _ (rerun_mixed k env rtarget files others)⟩
  have hresume := @runSteps_resume _ _ ((steps env rtarget).take k) ((steps env rtarget).drop k)
    (by rw [List.take_append_drop]; exact resumable_steps env rtarget) files
  rwa [List.take_append_drop] at hresume

end Resumed

section Histories

/-- Runs one after another, until one of them fails. -/
def runAll : List (RustEnv × Text) → RustFiles ι → ConfigRun ι
  | [], files => ⟨returns (), files⟩
  | (env, rtarget) :: history, files => (main env rtarget files).andThen (runAll history)

/-- What the last of the runs that list the key puts there. -/
def lastEntry (entries : RustEnv → Text → TomlTable ι) (history : List (RustEnv × Text))
    (k : Text) : Option (Toml ι) :=
  history.reverse.findSome? fun (env, rtarget) => find k (entries env rtarget)

/-- The section of `after` is that of `before` with the entries of the runs on top. -/
def Overlaid (key : Text) (entries : RustEnv → Text → TomlTable ι)
    (history : List (RustEnv × Text)) (before after : TomlTable ι) : Prop :=
  ∀ k, find k (entriesAt key after) =
    (lastEntry entries history k).or (find k (entriesAt key before))

def SameBeside (keys : List Text) (before after : TomlTable ι) : Prop :=
  ∀ k, k ∉ keys → find k after = find k before

structure Patched (patch : TomlTable ι) (history : List (RustEnv × Text))
    (before after : TomlTable ι) : Prop where
  cratesIo : Overlaid "crates-io" (fun _ _ => patch) history
    (entriesAt "patch" before) (entriesAt "patch" after)
  patch : SameBeside ["crates-io"] (entriesAt "patch" before) (entriesAt "patch" after)
  others : SameBeside ["patch"] before after

/-- The files after all runs of a history; a missing cargo configuration counts as an empty one. -/
structure Configured (history : List (RustEnv × Text)) (before after : RustFiles ι) : Prop where
  build : Overlaid "build" buildConfig history before.config after.config
  target : Overlaid "target" waliConfig history before.config after.config
  config : SameBeside ["build", "target"] before.config after.config
  cargo : Patched libcPatch history before.cargo after.cargo
  bootstrap : Patched ccPatch history before.bootstrap after.bootstrap
  linker : Overlaid "target" wasmLinker history
    (before.cargoConfig.getD []) (after.cargoConfig.getD [])
  cargoConfig : SameBeside ["target"] (before.cargoConfig.getD []) (after.cargoConfig.getD [])

/-- The sections to be updated are tables, and the last file has its directory. -/
structure Updatable (files : RustFiles ι) : Prop where
  build : TableAt "build" files.config
  target : TableAt "target" files.config
  patch : TableAt "patch" files.cargo
  cratesIo : TableAt "crates-io" (entriesAt "patch" files.cargo)
  bootstrapPatch : TableAt "patch" files.bootstrap
  bootstrapCratesIo : TableAt "crates-io" (entriesAt "patch" files.bootstrap)
  cargoHome : files.cargoHome ≠ .missing
  linkerTarget : TableAt "target" (files.cargoConfig.getD [])

variable {key : Text} {entries : RustEnv → Text → TomlTable ι} {history : List (RustEnv × Text)}
  {before between after : TomlTable ι}

theorem lastEntry_cons (k : Text) :
    lastEntry entries ((env, rtarget) :: history) k =
      (lastEntry entries history k).or (find k (entries env rtarget)) := by
  rw [lastEntry, List.reverse_cons, List.findSome?_append]
  simp [lastEntry]

theorem overlaid_cons (hnodup : ((entries env rtarget).map Prod.fst).Nodup)
    (hbetween : entriesAt key between = update (entriesAt key before) (entries env rtarget))
    (hafter : Overlaid key entries history between after) :
    Overlaid key entries ((env, rtarget) :: history) before after := by
  intro k
  rw [hafter k, hbetween, find_update, find_reverse hnodup, lastEntry_cons, Option.or_assoc]

theorem sameBeside_trans {keys : List Text} (h : SameBeside keys before between)
    (h' : SameBeside keys between after) : SameBeside keys before after :=
  fun k hk => (h' k hk).trans (h k hk)

theorem tableAt_of_find {entries : TomlTable ι} (h : find key after = some (.table entries)) :
    TableAt key after ∧ entriesAt key after = entries := by
  refine ⟨fun value hvalue => ⟨entries, ?_⟩, by rw [entriesAt, h]⟩
  rw [h] at hvalue
  exact (Option.some.inj hvalue).symm

theorem section_of_updateSection {new : TomlTable ι}
    (h : updateSection key new before = returns after) :
    TableAt key after ∧ entriesAt key after = update (entriesAt key before) new := by
  have hfind := find_of_updateSection h key
  rw [if_pos rfl] at hfind
  exact tableAt_of_find hfind

theorem sameBeside_of_updateSection {new : TomlTable ι}
    (h : updateSection key new before = returns after) : SameBeside [key] before after := by
  intro k hk
  have hne : key ≠ k := fun heq => hk (List.mem_singleton.mpr heq.symm)
  rw [find_of_updateSection h, if_neg hne]

theorem config_of_returns (h : updateConfigToml env rtarget before = returns after) :
    TableAt "build" after ∧ TableAt "target" after ∧
      entriesAt "build" after = update (entriesAt "build" before) (buildConfig env rtarget) ∧
      entriesAt "target" after = update (entriesAt "target" before) (waliConfig env rtarget) ∧
      SameBeside ["build", "target"] before after := by
  obtain ⟨between, hbuild, htarget⟩ := bind_eq_returns_iff.mp h
  obtain ⟨hbuildTable, hbuildEntries⟩ := section_of_updateSection hbuild
  obtain ⟨htargetTable, htargetEntries⟩ := section_of_updateSection htarget
  have hkept : find "build".toList after = find "build".toList between := by
    rw [find_of_updateSection htarget, if_neg (by decide)]
  refine ⟨?_, htargetTable, ?_, ?_, fun k hk => ?_⟩
  · unfold TableAt
    rwa [hkept]
  · rw [entriesAt_of_updateSection (by decide) htarget, hbuildEntries]
  · rw [htargetEntries, entriesAt_of_updateSection (by decide) hbuild]
  · rw [List.mem_pair, not_or] at hk
    rw [sameBeside_of_updateSection htarget k (by simpa using hk.2),
      sameBeside_of_updateSection hbuild k (by simpa using hk.1)]

theorem cratesIo_of_returns {patch : TomlTable ι}
    (h : updateCratesIo patch before = returns after) :
    TableAt "patch" after ∧ TableAt "crates-io" (entriesAt "patch" after) ∧
      entriesAt "crates-io" (entriesAt "patch" after) =
        update (entriesAt "crates-io" (entriesAt "patch" before)) patch ∧
      SameBeside ["crates-io"] (entriesAt "patch" before) (entriesAt "patch" after) ∧
      SameBeside ["patch"] before after := by
  obtain ⟨_, _, entries, hentries, rfl⟩ := updateCratesIo_eq_returns_iff.mp h
  have hfind := fun k => find_assign_ensureTable "patch" k (Nested.table entries) before
  obtain ⟨htable, hpatch⟩ := tableAt_of_find ((hfind "patch").trans (if_pos rfl))
  obtain ⟨hcratesTable, hcrates⟩ := section_of_updateSection hentries
  refine ⟨htable, ?_, ?_, ?_, fun k hk => ?_⟩
  · rwa [hpatch]
  · rw [hpatch, hcrates]
  · rw [hpatch]
    exact sameBeside_of_updateSection hentries
  · have hne : "patch".toList ≠ k := fun heq => hk (List.mem_singleton.mpr heq.symm)
    rw [hfind, if_neg hne]

theorem linker_of_returns {home : CargoHome ι}
    (h : addWasmLinkerToCargo env rtarget home = returns after) :
    TableAt "target" after ∧
      entriesAt "target" after =
        update (entriesAt "target" (home.config?.getD [])) (wasmLinker env rtarget) ∧
      SameBeside ["target"] (home.config?.getD []) after := by
  cases home with
  | missing => cases h
  | config config =>
      obtain ⟨htable, hentries⟩ := section_of_updateSection h
      exact ⟨htable, hentries, sameBeside_of_updateSection h⟩
  | noConfig =>
      obtain rfl : [("target".toList, Nested.table (wasmLinker env rtarget))] = after :=
        Outcome.returns.inj h
      have hfind : find "target".toList
          [("target".toList, (Nested.table (wasmLinker env rtarget) : Toml ι))] =
            some (.table (wasmLinker env rtarget)) := if_pos rfl
      obtain ⟨htable, hentries⟩ := tableAt_of_find hfind
      refine ⟨htable, hentries, fun k hk => if_neg fun heq => hk ?_⟩
      exact List.mem_singleton.mpr heq.symm

theorem updatable_of_main {files after : RustFiles ι}
    (h : main env rtarget files = ⟨returns (), after⟩) : Updatable after := by
  obtain ⟨hconfig, hcargo, hbootstrap, linker, hlinker, hafter⟩ := main_eq_iff.mp h
  obtain ⟨hbuild, htarget, _⟩ := config_of_returns hconfig
  obtain ⟨hpatch, hcrates, _⟩ := cratesIo_of_returns hcargo
  obtain ⟨hpatch', hcrates', _⟩ := cratesIo_of_returns hbootstrap
  refine ⟨hbuild, htarget, hpatch, hcrates, hpatch', hcrates', ?_, ?_⟩
  · rw [hafter]
    exact nofun
  · rw [RustFiles.cargoConfig, hafter]
    exact (linker_of_returns hlinker).1

theorem exists_main_iff {files : RustFiles ι} :
    (∃ after, main env rtarget files = ⟨returns (), after⟩) ↔ Updatable files := by
  have hlinker : (∀ config, files.cargoConfig = some config → TableAt "target" config) ↔
      TableAt "target" (files.cargoConfig.getD []) := by
    cases files.cargoConfig with
    | none =>
        refine iff_of_true (by simp) fun value hvalue => ?_
        cases hvalue
    | some config => simp
  constructor
  · rintro ⟨after, hmain⟩
    obtain ⟨hconfig, hcargo, hbootstrap, linker, hlink, _⟩ := main_eq_iff.mp hmain
    obtain ⟨hbuild, htarget⟩ := exists_updateConfigToml_iff.mp ⟨_, hconfig⟩
    obtain ⟨hpatch, hcrates⟩ := exists_updateCratesIo_iff.mp ⟨_, hcargo⟩
    obtain ⟨hpatch', hcrates'⟩ := exists_updateCratesIo_iff.mp ⟨_, hbootstrap⟩
    obtain ⟨hhome, hlinked⟩ := exists_addWasmLinkerToCargo_iff.mp ⟨_, hlink⟩
    exact ⟨hbuild, htarget, hpatch, hcrates, hpatch', hcrates', hhome, hlinker.mp hlinked⟩
  · intro h
    obtain ⟨config, hconfig⟩ := exists_updateConfigToml_iff.mpr ⟨h.build, h.target⟩
    obtain ⟨cargo, hcargo⟩ := exists_updateCratesIo_iff.mpr ⟨h.patch, h.cratesIo⟩
    obtain ⟨bootstrap, hbootstrap⟩ :=
      exists_updateCratesIo_iff.mpr ⟨h.bootstrapPatch, h.bootstrapCratesIo⟩
    obtain ⟨linker, hlink⟩ :=
      exists_addWasmLinkerToCargo_iff.mpr ⟨h.cargoHome, hlinker.mpr h.linkerTarget⟩
    exact ⟨⟨config, cargo, bootstrap, .config linker⟩,
      main_eq_iff.mpr ⟨hconfig, hcargo, hbootstrap, linker, hlink, rfl⟩⟩

theorem configured_cons {files between after : RustFiles ι}
    (h : main env rtarget files = ⟨returns (), between⟩)
    (hafter : Configured history between after) :
    Configured ((env, rtarget) :: history) files after := by
  obtain ⟨hconfig, hcargo, hbootstrap, linker, hlinker, hbetween⟩ := main_eq_iff.mp h
  have hpatched : ∀ {patch before between after : TomlTable ι}, (patch.map Prod.fst).Nodup →
      updateCratesIo patch before = returns between → Patched patch history between after →
        Patched patch ((env, rtarget) :: history) before after := by
    intro patch before between after hnodup h hafter
    obtain ⟨_, _, hcrates, hpatch, hothers⟩ := cratesIo_of_returns h
    exact
      { cratesIo := overlaid_cons hnodup hcrates hafter.cratesIo
        patch := sameBeside_trans hpatch hafter.patch
        others := sameBeside_trans hothers hafter.others }
  obtain ⟨_, _, hbuild, htarget, hconfig⟩ := config_of_returns hconfig
  obtain ⟨_, hlinker, hcargoConfig⟩ := linker_of_returns hlinker
  have hlinked := hafter.linker
  have hkept := hafter.cargoConfig
  rw [RustFiles.cargoConfig, hbetween] at hlinked hkept
  exact
    { build := overlaid_cons (List.nodup_singleton _) hbuild hafter.build
      target := overlaid_cons (nodup_waliConfig env rtarget) htarget hafter.target
      config := sameBeside_trans hconfig hafter.config
      cargo := hpatched (List.nodup_singleton _) hcargo hafter.cargo
      bootstrap := hpatched (List.nodup_singleton _) hbootstrap hafter.bootstrap
      linker := overlaid_cons (List.nodup_singleton _) hlinker hlinked
      cargoConfig := sameBeside_trans hcargoConfig hkept }

theorem configured_nil (files : RustFiles ι) : Configured [] files files := by
  have hover : ∀ key entries (config : TomlTable ι), Overlaid key entries [] config config :=
    fun _ _ _ _ => rfl
  have hsame : ∀ keys (config : TomlTable ι), SameBeside keys config config := fun _ _ _ _ => rfl
  exact ⟨hover _ _ _, hover _ _ _, hsame _ _, ⟨hover _ _ _, hsame _ _, hsame _ _⟩,
    ⟨hover _ _ _, hsame _ _, hsame _ _⟩, hover _ _ _, hsame _ _⟩

/-- Runs for any targets, with any tools: all of them succeed if the first one can, and then
the sections hold for each key what the last run that lists it puts there. The tables of
the other targets and everything beside the sections are as they were. -/
theorem history_configures (history : List (RustEnv × Text)) (files : RustFiles ι) :
    ((runAll history files).outcome = returns () ↔ history = [] ∨ Updatable files) ∧
      ((runAll history files).outcome = returns () →
        Configured history files (runAll history files).files) := by
  induction history generalizing files with
  | nil => exact ⟨iff_of_true rfl (.inl rfl), fun _ => configured_nil files⟩
  | cons run history ih =>
      obtain ⟨env, rtarget⟩ := run
      by_cases hupdatable : Updatable files
      · obtain ⟨between, hbetween⟩ := exists_main_iff.mpr hupdatable
        obtain ⟨hsucceeds, hconfigured⟩ := ih between
        have hrun : runAll ((env, rtarget) :: history) files = runAll history between := by
          rw [runAll, hbetween]
          rfl
        rw [hrun]
        have hreturns := hsucceeds.mpr (.inr (updatable_of_main hbetween))
        exact ⟨iff_of_true hreturns (.inr hupdatable),
          fun h => configured_cons hbetween (hconfigured h)⟩
      · have hfails : (runAll ((env, rtarget) :: history) files).outcome ≠ returns () := by
          intro h
          rw [runAll] at h
          cases hmain : main env rtarget files with
          | mk outcome left =>
              rw [hmain] at h
              cases outcome with
              | returns value => exact hupdatable (exists_main_iff.mp ⟨left, hmain⟩)
              | raises error => cases h
              | diverges => cases h
        exact ⟨iff_of_false hfails (by simpa using hupdatable), fun h => absurd h hfails⟩

end Histories

end Wali.RustReruns
