import Wali.ToolchainLocations

/-!
The flag strings of the three toolchain files: which flags of the configuration they
hold, and when they hold the characters of the user as they are.
-/

namespace Wali.FlagRendering

open Wali.InsertionDict
open Wali.PythonFormat
open Wali.PythonText
open Wali.RunOutcome
open Wali.RunOutcome.Outcome
open Wali.ToolchainFiles
open Wali.ToolchainLocations
open Wali.VariableExpansion

section Files

/-- The variables of a file that concern flags. -/
structure FlagNames where
  language : Language
  sysroot : Text
  cflags : Text
  cxxflags : Text
  ldflags : Text
  isVarName_cflags : isVarName cflags = true
  cflags_ne_libcxx : cflags ≠ "WALI_LIBCXX_DIR"

namespace FlagNames

variable (names : FlagNames)

def sysrootRef : Text := names.language.flagRef names.sysroot

def cflagsRef : Text := names.language.flagRef names.cflags

def libcxxRef : Text := names.language.flagRef "WALI_LIBCXX_DIR"

end FlagNames

def makeNames : FlagNames where
  language := makeLanguage
  sysroot := "WALI_SYSROOT_DIR"
  cflags := "WALI_COMMON_CFLAGS"
  cxxflags := "WALI_COMMON_CXXFLAGS"
  ldflags := "WALI_COMMON_LDFLAGS"
  isVarName_cflags := by decide
  cflags_ne_libcxx := by decide

def bashNames : FlagNames where
  language := bashLanguage
  sysroot := "WALI_SYSROOT_DIR"
  cflags := "WALI_COMMON_CFLAGS"
  cxxflags := "WALI_COMMON_CXXFLAGS"
  ldflags := "WALI_COMMON_LDFLAGS"
  isVarName_cflags := by decide
  cflags_ne_libcxx := by decide

def cmakeNames : FlagNames where
  language := cmakeLanguage
  sysroot := "CMAKE_SYSROOT"
  cflags := "CMAKE_C_FLAGS"
  cxxflags := "CMAKE_CXX_FLAGS"
  ldflags := "CMAKE_EXE_LINKER_FLAGS"
  isVarName_cflags := by decide
  cflags_ne_libcxx := by decide

/-- Value that a file gives to a variable. -/
def valueOf (file : Assignments) (name : Text) : Text := (find name file).getD []

/-- The flag strings of a file; the C++ flags with the C flags for the reference to
them. -/
def flagsOf (names : FlagNames) (file : Assignments) : FlagTexts where
  cflags := valueOf file names.cflags
  cxxflags := expand names.language.form
    (Function.update names.language.flagRef names.cflags (valueOf file names.cflags))
    (valueOf file names.cxxflags)
  ldflags := valueOf file names.ldflags

def flagFiles (files : Toolchains) : List (FlagNames × Assignments) :=
  [(makeNames, files.makefile), (bashNames, files.bash), (cmakeNames, files.cmake)]

variable {special : SpecialFields} {cfg : WaliToml} {files : Toolchains}

/-- The C++ flags of a file whose C flags are `cflags`. -/
theorem expand_cxxflags (names : FlagNames) (cflags : Text) :
    expand names.language.form (Function.update names.language.flagRef names.cflags cflags)
        (cxxflagsText names.cflagsRef names.libcxxRef) =
      cxxflagsText cflags names.libcxxRef := by
  unfold FlagNames.cflagsRef FlagNames.libcxxRef
  rw [expand_cxxflagsText names.language names.isVarName_cflags (by decide), Function.update_self,
    Function.update_of_ne names.cflags_ne_libcxx.symm]

theorem formatFlags_eq_returns_iff {sysrootVar cflagsVar libcxxVar : Text} {flags : FlagTexts} :
    formatFlags special cfg sysrootVar cflagsVar libcxxVar = returns flags ↔
      format special (Dict.ofList [("SYSROOTVAR", sysrootVar)]) cfg.commonCflags =
          returns flags.cflags ∧
        flags.cxxflags = cxxflagsText cflagsVar libcxxVar ∧
        format special (Dict.ofList [("SYSROOTVAR", sysrootVar), ("LIBCXXVAR", libcxxVar)])
          cfg.commonLdflags = returns flags.ldflags := by
  simp only [formatFlags, format_commonCxxflags, returns_bind, bind_eq_returns_iff,
    returns.injEq]
  constructor
  · rintro ⟨cflags, hcflags, ldflags, hldflags, rfl⟩
    exact ⟨hcflags, rfl, hldflags⟩
  · rintro ⟨hcflags, hcxxflags, hldflags⟩
    refine ⟨flags.cflags, hcflags, flags.ldflags, hldflags, ?_⟩
    rw [← hcxxflags]

/-- What the flag strings of a file say about the runs of `str.format`. -/
structure Rendered (special : SpecialFields) (cfg : WaliToml) (names : FlagNames)
    (flags : FlagTexts) : Prop where
  cflags : format special (Dict.ofList [("SYSROOTVAR", names.sysrootRef)]) cfg.commonCflags =
    returns flags.cflags
  cxxflags : flags.cxxflags = cxxflagsText flags.cflags names.libcxxRef
  ldflags : format special (Dict.ofList [("SYSROOTVAR", names.sysrootRef),
    ("LIBCXXVAR", names.libcxxRef)]) cfg.commonLdflags = returns flags.ldflags

theorem rendered_of_formatFlags {names : FlagNames} {file : Assignments} {flags : FlagTexts}
    (hcflags : valueOf file names.cflags = flags.cflags)
    (hcxxflags : valueOf file names.cxxflags = flags.cxxflags)
    (hldflags : valueOf file names.ldflags = flags.ldflags)
    (hflags : formatFlags special cfg names.sysrootRef names.cflagsRef names.libcxxRef =
      returns flags) : Rendered special cfg names (flagsOf names file) := by
  obtain ⟨hc, hcxx, hld⟩ := formatFlags_eq_returns_iff.mp hflags
  refine ⟨?_, ?_, ?_⟩
  · rw [hc, flagsOf, hcflags]
  · rw [flagsOf, hcxxflags, hcxx]
    exact expand_cxxflags names _
  · rw [hld, flagsOf, hldflags]

/-- All three files are rendered alike, each with its own names. -/
theorem rendered_of_main (hmain : genToolchainsMain special cfg = returns files)
    {names : FlagNames} {file : Assignments} (hfile : (names, file) ∈ flagFiles files) :
    Rendered special cfg names (flagsOf names file) := by
  obtain ⟨_, makeFlags, bashFlags, cmakeFlags, hmake, hbash, hcmake, rfl⟩ :=
    genToolchainsMain_eq_returns_iff.mp hmain
  simp only [flagFiles, List.mem_cons, Prod.mk.injEq, List.not_mem_nil, or_false] at hfile
  rcases hfile with ⟨rfl, rfl⟩ | ⟨rfl, rfl⟩ | ⟨rfl, rfl⟩
  · exact rendered_of_formatFlags rfl rfl rfl hmake
  · exact rendered_of_formatFlags rfl rfl rfl hbash
  · exact rendered_of_formatFlags rfl rfl rfl hcmake

end Files

section Lost

/-- The entries stand in a flag string, in order, each between blanks or ends. -/
def OccurInOrder (entries : List Text) (flags : Text) : Prop :=
  ∃ words, flags = shJoin words ∧ entries.Sublist words

/-- The linker flags that a table `flags.link` asks for. -/
inductive LinkEntries : List (Text × LinkValue) → List Text → Prop
  | nil : LinkEntries [] []
  | on {key table entries} : LinkEntries table entries →
      LinkEntries ((key, .bool true) :: table) (("-Wl,--" ++ key) :: entries)
  | off {key table entries} : LinkEntries table entries →
      LinkEntries ((key, .bool false) :: table) entries
  | list {key val table entries} : LinkEntries table entries →
      LinkEntries ((key, .list val) :: table)
        (val.map (fun x => "-Wl,--" ++ key ++ "=" ++ x) ++ entries)
  | scalar {key val table entries} : LinkEntries table entries →
      LinkEntries ((key, .scalar val) :: table) (("-Wl,--" ++ key ++ "=" ++ val) :: entries)

/-- The flag strings of one file hold all flags of the configuration; the linker flags are
the two library paths of the generator and those of the table. -/
structure NoFlagLost (cfg : WaliToml) (names : FlagNames) (flags : FlagTexts) : Prop where
  cflags : OccurInOrder (cfg.extraCflags ++ cfg.warningCflags.map (fun x => ("-W" : Text) ++ x) ++
    cfg.wasmFeatures) flags.cflags
  cxxflags : OccurInOrder (cfg.extraCflags ++ cfg.warningCflags.map (fun x => ("-W" : Text) ++ x) ++
    cfg.wasmFeatures) flags.cxxflags
  extraCxxflags : OccurInOrder cfg.extraCxxflags flags.cxxflags
  ldflags : ∃ entries, LinkEntries cfg.link entries ∧ flags.ldflags =
    shJoin (["-L" ++ names.sysrootRef ++ "/lib", "-L" ++ names.libcxxRef ++ "/lib"] ++ entries)

/-- The arguments of the generator in front of the C flags. -/
def targetTemplate (cfg : WaliToml) : Text :=
  "--target=" ++ cfg.triple ++ " --sysroot=\x7bSYSROOTVAR\x7d"

variable {special : SpecialFields} {cfg : WaliToml}

theorem linkEntries_ldflags (table : List (Text × LinkValue)) :
    LinkEntries table (table.flatMap linkFlags) := by
  induction table with
  | nil => exact .nil
  | cons entry table ih =>
      obtain ⟨key, val⟩ := entry
      cases val with
      | bool val =>
          cases val with
          | false => exact .off ih
          | true => exact .on ih
      | list val => exact .list ih
      | scalar val => exact .scalar ih

theorem flagTail_cons (flag : Text) (flags : List Text) :
    flagTail (flag :: flags) = (' ' :: flag) ++ flagTail flags := rfl

theorem flagTail_append (flags flags' : List Text) :
    flagTail (flags ++ flags') = flagTail flags ++ flagTail flags' :=
  List.flatMap_append

theorem join_between (first flag last : Text) (flags : List Text) :
    shJoin ([first, flag] ++ flags ++ [last]) =
      (first ++ [' ']) ++ (shJoin (flag :: flags) ++ (' ' :: last)) := by
  rw [List.cons_append, List.cons_append, join_cons_blank, join_cons_blank, flagTail_append,
    flagTail_append]
  simp [flagTail]

theorem commonCflags_eq (cfg : WaliToml) :
    cfg.commonCflags = targetTemplate cfg ++ flagTail cfg.userCflags := by
  have htext : cfg.commonCflags = shJoin (("--target=" ++ cfg.triple) ::
      "--sysroot=\x7bSYSROOTVAR\x7d".toList :: cfg.userCflags) := rfl
  rw [htext, join_cons_blank, flagTail_cons]
  exact (List.append_assoc (_ ++ cfg.triple) _ _).symm

/-- The C flags behind the arguments of the generator are the flags of the user. -/
theorem Rendered.cflags_eq (hrule : FieldRule special) {names : FlagNames} {flags : FlagTexts}
    (h : Rendered special cfg names flags)
    (huser : ∀ flag ∈ cfg.userCflags, ∀ c ∈ flag, ¬ IsBrace c) :
    ∃ target, format special (Dict.ofList [("SYSROOTVAR", names.sysrootRef)])
        (targetTemplate cfg) = returns target ∧
      flags.cflags = shJoin (target :: cfg.userCflags) := by
  have hcflags := h.cflags
  rw [commonCflags_eq] at hcflags
  obtain ⟨target, htarget, heq⟩ :=
    format_append_literal hrule (not_isBrace_flagTail huser) hcflags
  exact ⟨target, htarget, by rw [heq, join_cons_blank]⟩

theorem Rendered.ldflags_eq {names : FlagNames} {flags : FlagTexts}
    (h : Rendered special cfg names flags)
    (huser : ∀ flag ∈ cfg.ldflags, ∀ c ∈ flag, ¬ IsBrace c) :
    flags.ldflags = ldflagsText cfg names.sysrootRef names.libcxxRef := by
  have hldflags := h.ldflags
  rw [format_commonLdflags huser] at hldflags
  exact (returns.inj hldflags).symm

theorem ldflagsText_eq (cfg : WaliToml) (sysroot libcxx : Text) :
    ldflagsText cfg sysroot libcxx =
      shJoin (["-L" ++ sysroot ++ "/lib", "-L" ++ libcxx ++ "/lib"] ++ cfg.ldflags) := by
  rw [List.cons_append, List.cons_append, List.nil_append, join_cons_blank]
  simp [ldflagsText, flagTail]

theorem cxxflagsText_eq (first : Text) (flags : List Text) (libcxx : Text) :
    cxxflagsText (shJoin (first :: flags)) libcxx =
      shJoin (["-stdlib=libc++".toList, first] ++ flags ++
        ["-I" ++ (libcxx ++ "/include/c++/v1")]) := by
  rw [join_between]
  rfl

def flagNames : List FlagNames := [makeNames, bashNames, cmakeNames]

theorem exists_mem_flagFiles {names : FlagNames} (hnames : names ∈ flagNames)
    (files : Toolchains) : ∃ file, (names, file) ∈ flagFiles files := by
  simp only [flagNames, List.mem_cons, List.not_mem_nil, or_false] at hnames
  rcases hnames with rfl | rfl | rfl
  · exact ⟨files.makefile, by simp [flagFiles]⟩
  · exact ⟨files.bash, by simp [flagFiles]⟩
  · exact ⟨files.cmake, by simp [flagFiles]⟩

theorem mem_flagNames {names : FlagNames} {file : Assignments} {files : Toolchains}
    (hfile : (names, file) ∈ flagFiles files) : names ∈ flagNames := by
  have hmap : names ∈ (flagFiles files).map Prod.fst := List.mem_map.mpr ⟨_, hfile, rfl⟩
  exact hmap

/-- What the C++ flags of a file consist of: all flags but those of `extra_cxxflags`. -/
def cxxWords (cfg : WaliToml) (names : FlagNames) (target : Text) : List Text :=
  ["-stdlib=libc++".toList, target] ++ cfg.userCflags ++
    ["-I" ++ (names.libcxxRef ++ "/include/c++/v1")]

theorem userCflags_sublist_cxxWords (cfg : WaliToml) (names : FlagNames) (target : Text) :
    cfg.userCflags.Sublist (cxxWords cfg names target) :=
  (List.sublist_append_right _ _).trans (List.sublist_append_left _ _)

/-- The flags of a file hold everything but `extra_cxxflags`; these the C++ flags hold
where the other words of the C++ flags hold them. -/
theorem Rendered.noFlagLost_iff (hrule : FieldRule special) {names : FlagNames}
    {flags : FlagTexts} (h : Rendered special cfg names flags)
    (hcflags : ∀ flag ∈ cfg.userCflags, ∀ c ∈ flag, ¬ IsBrace c)
    (hldflags : ∀ flag ∈ cfg.ldflags, ∀ c ∈ flag, ¬ IsBrace c) :
    NoFlagLost cfg names flags ↔ ∀ target,
      format special (Dict.ofList [("SYSROOTVAR", names.sysrootRef)]) (targetTemplate cfg) =
        returns target →
      OccurInOrder cfg.extraCxxflags (shJoin (cxxWords cfg names target)) := by
  obtain ⟨target, htarget, hctext⟩ := h.cflags_eq hrule hcflags
  have hcxxtext : flags.cxxflags = shJoin (cxxWords cfg names target) := by
    rw [h.cxxflags, hctext, cxxflagsText_eq]
    rfl
  constructor
  · intro hlost target' htarget'
    rw [htarget] at htarget'
    cases htarget'
    rw [← hcxxtext]
    exact hlost.extraCxxflags
  · intro hextra
    refine ⟨⟨_, hctext, List.sublist_cons_self _ _⟩,
      ⟨_, hcxxtext, userCflags_sublist_cxxWords cfg names target⟩, ?_, ?_⟩
    · rw [hcxxtext]
      exact hextra target htarget
    · exact ⟨cfg.ldflags, linkEntries_ldflags cfg.link,
        (h.ldflags_eq hldflags).trans (ldflagsText_eq cfg _ _)⟩

/-- No flag is lost apart from those of `extra_cxxflags`, which the generator reads and
does not use: they are in the C++ flags only where the flags of the other lists, or the
arguments of the generator, happen to spell them out. -/
theorem no_flag_lost_iff (hrule : FieldRule special) {files : Toolchains}
    (hmain : genToolchainsMain special cfg = returns files)
    (hcflags : ∀ flag ∈ cfg.userCflags, ∀ c ∈ flag, ¬ IsBrace c)
    (hldflags : ∀ flag ∈ cfg.ldflags, ∀ c ∈ flag, ¬ IsBrace c) :
    (∀ names file, (names, file) ∈ flagFiles files → NoFlagLost cfg names (flagsOf names file)) ↔
      ∀ names ∈ flagNames, ∀ target,
        format special (Dict.ofList [("SYSROOTVAR", names.sysrootRef)]) (targetTemplate cfg) =
          returns target →
        OccurInOrder cfg.extraCxxflags (shJoin (cxxWords cfg names target)) := by
  have hiff : ∀ {names file}, (names, file) ∈ flagFiles files → _ := fun hfile =>
    (rendered_of_main hmain hfile).noFlagLost_iff hrule hcflags hldflags
  constructor
  · intro h names hnames
    obtain ⟨file, hfile⟩ := exists_mem_flagFiles hnames files
    exact (hiff hfile).mp (h names file hfile)
  · intro h names file hfile
    exact (hiff hfile).mpr (h names (mem_flagNames hfile))

theorem fieldRule_noSpecialFields : FieldRule noSpecialFields := by
  constructor
  · intro kwargs s t len h
    cases h
  · intro kwargs field rest t h
    cases h
  · intro kwargs field rest t h
    cases h

theorem shippedToml_keeps_flags :
    ∃ files, genToolchainsMain noSpecialFields shippedToml = returns files ∧
      ∀ names file, (names, file) ∈ flagFiles files →
        NoFlagLost shippedToml names (flagsOf names file) := by
  obtain ⟨files, hmain⟩ := finishes_shippedToml
  have hcfg := plainToml_shippedToml.braceFree
  refine ⟨files, hmain, (no_flag_lost_iff fieldRule_noSpecialFields hmain hcfg.cflags
    hcfg.ldflags).mpr ?_⟩
  intro names _ target _
  exact ⟨_, rfl, List.nil_sublist _⟩

theorem mem_shJoin {words : List Text} {word : Text} {c : Char} (hword : word ∈ words)
    (hc : c ∈ word) : c ∈ shJoin words := by
  obtain ⟨first, flags, rfl⟩ := List.exists_cons_of_ne_nil (List.ne_nil_of_mem hword)
  rw [join_cons_blank, List.mem_append]
  rcases List.mem_cons.mp hword with rfl | hmem
  · exact .inl hc
  · exact .inr (List.mem_flatMap.mpr ⟨word, hmem, List.mem_cons_of_mem _ hc⟩)

theorem OccurInOrder.mem {entries : List Text} {flags entry : Text} {c : Char}
    (h : OccurInOrder entries flags) (hentry : entry ∈ entries) (hc : c ∈ entry) : c ∈ flags := by
  obtain ⟨words, rfl, hsublist⟩ := h
  exact mem_shJoin (hsublist.subset hentry) hc

/-- The `wali.toml` of the repository with a flag for C++ only. -/
def ndebugToml : WaliToml := { shippedToml with extraCxxflags := ["-DNDEBUG"] }

theorem braceFree_ndebugToml : BraceFree ndebugToml :=
  have h := plainToml_shippedToml.braceFree
  ⟨h.triple, h.cflags, h.ldflags⟩

theorem ndebug_flag_lost :
    ∃ files, genToolchainsMain noSpecialFields ndebugToml = returns files ∧
      ¬ ∀ names file, (names, file) ∈ flagFiles files →
        NoFlagLost ndebugToml names (flagsOf names file) := by
  obtain ⟨files, hmain⟩ : (genToolchainsMain noSpecialFields ndebugToml).Finishes :=
    finishes_genToolchainsMain braceFree_ndebugToml (by decide)
  refine ⟨files, hmain, fun h => ?_⟩
  have hfile : (makeNames, files.makefile) ∈ flagFiles files := by simp [flagFiles]
  have hrendered := rendered_of_main hmain hfile
  have hcflags := hrendered.cflags
  rw [format_commonCflags braceFree_ndebugToml] at hcflags
  have hmem := (h _ _ hfile).extraCxxflags.mem (List.mem_cons_self) (show 'G' ∈ _ by decide)
  rw [hrendered.cxxflags, ← returns.inj hcflags] at hmem
  revert hmem
  decide

end Lost

section Verbatim

/-- The C flags and the linker flags of a file with the references of the generator in
its own arguments and nothing else changed. -/
structure Verbatim (cfg : WaliToml) (names : FlagNames) (flags : FlagTexts) : Prop where
  cflags : flags.cflags =
    shJoin (["--target=" ++ cfg.triple, "--sysroot=" ++ names.sysrootRef] ++ cfg.userCflags)
  ldflags : flags.ldflags =
    shJoin (["-L" ++ names.sysrootRef ++ "/lib", "-L" ++ names.libcxxRef ++ "/lib"] ++
      cfg.ldflags)

/-- The files are generated, with the flags of the user verbatim in all three. -/
def RendersVerbatim (special : SpecialFields) (cfg : WaliToml) : Prop :=
  ∃ files, genToolchainsMain special cfg = returns files ∧
    ∀ names file, (names, file) ∈ flagFiles files → Verbatim cfg names (flagsOf names file)

variable {special : SpecialFields} {cfg : WaliToml}

theorem cflagsText_eq (cfg : WaliToml) (sysroot : Text) :
    cflagsText cfg sysroot =
      shJoin (["--target=" ++ cfg.triple, "--sysroot=" ++ sysroot] ++ cfg.userCflags) := by
  have hsplit (a b c d e : Text) : a ++ (b ++ ((' ' :: c) ++ (d ++ e))) =
      (a ++ b) ++ ((' ' :: (c ++ d)) ++ e) := by simp
  rw [List.cons_append, List.cons_append, List.nil_append, join_cons_blank, flagTail_cons]
  exact hsplit "--target=" cfg.triple "--sysroot=" sysroot _

theorem Rendered.verbatim {names : FlagNames} {flags : FlagTexts}
    (h : Rendered special cfg names flags) (hcfg : BraceFree cfg) : Verbatim cfg names flags := by
  have hcflags := h.cflags
  rw [format_commonCflags hcfg] at hcflags
  refine ⟨?_, ?_⟩
  · rw [← returns.inj hcflags, cflagsText_eq]
  · rw [h.ldflags_eq hcfg.ldflags, ldflagsText_eq]

theorem braces_cflagsText (cfg : WaliToml) {sysroot : Text}
    (hsysroot : ∀ c ∈ sysroot, ¬ IsBrace c) :
    braces (cflagsText cfg sysroot) = braces cfg.triple + braces (flagTail cfg.userCflags) := by
  have htarget : braces "--target=" = 0 := by decide
  have hflag : braces " --sysroot=" = 0 := by decide
  unfold cflagsText
  rw [braces_append, braces_append, braces_append, braces_append, htarget, hflag,
    braces_eq_zero_iff.mpr hsysroot]
  omega

theorem doubled_append_flagTail (s : Text) (flags : List Text) :
    doubled (s ++ flagTail flags) = doubled s + doubled (flagTail flags) := by
  cases flags with
  | nil => simp [flagTail, doubled]
  | cons flag flags =>
      have hblank : doubled (flagTail (flag :: flags)) = doubled (flag ++ flagTail flags) := by
        rw [flagTail_cons, List.cons_append, doubled, if_neg (fun h => absurd h.1 (by decide)),
          Nat.zero_add]
      rw [hblank, flagTail_cons, List.cons_append, doubled_append_cons (by decide)]

theorem doubled_commonCflags (cfg : WaliToml) :
    doubled cfg.commonCflags = doubled cfg.triple + doubled (flagTail cfg.userCflags) := by
  have htarget : targetTemplate cfg =
      ("--target" ++ '=' :: cfg.triple) ++ ' ' :: "--sysroot=\x7bSYSROOTVAR\x7d".toList := rfl
  have hflag : doubled "--target" = 0 := by decide
  have hsysroot : doubled "--sysroot=\x7bSYSROOTVAR\x7d" = 0 := by decide
  rw [commonCflags_eq, doubled_append_flagTail, htarget, doubled_append_cons (by decide),
    doubled_append_cons (by decide), hflag, hsysroot]
  omega

theorem braces_ldflagsText (cfg : WaliToml) {sysroot libcxx : Text}
    (hsysroot : ∀ c ∈ sysroot, ¬ IsBrace c) (hlibcxx : ∀ c ∈ libcxx, ¬ IsBrace c) :
    braces (ldflagsText cfg sysroot libcxx) = braces (flagTail cfg.ldflags) := by
  have hfirst : braces "-L" = 0 := by decide
  have hsecond : braces "/lib -L" = 0 := by decide
  have hlib : braces "/lib" = 0 := by decide
  unfold ldflagsText
  rw [braces_append, braces_append, braces_append, braces_append, braces_append, hfirst, hsecond,
    hlib, braces_eq_zero_iff.mpr hsysroot, braces_eq_zero_iff.mpr hlibcxx]
  omega

theorem doubled_commonLdflags (cfg : WaliToml) :
    doubled cfg.commonLdflags = doubled (flagTail cfg.ldflags) := by
  have htext : cfg.commonLdflags = shJoin ("-L\x7bSYSROOTVAR\x7d/lib".toList ::
      "-L\x7bLIBCXXVAR\x7d/lib".toList :: cfg.ldflags) := rfl
  have hsysroot : doubled "-L\x7bSYSROOTVAR\x7d/lib" = 0 := by decide
  have hlibcxx : doubled (' ' :: "-L\x7bLIBCXXVAR\x7d/lib".toList) = 0 := by decide
  rw [htext, join_cons_blank, doubled_append_flagTail, flagTail_cons, doubled_append_flagTail,
    hsysroot, hlibcxx]
  omega

theorem not_isBrace_of_flagTail {flags : List Text} (h : braces (flagTail flags) = 0) :
    ∀ flag ∈ flags, ∀ c ∈ flag, ¬ IsBrace c := by
  intro flag hflag c hc
  exact braces_eq_zero_iff.mp h c
    (List.mem_flatMap.mpr ⟨flag, hflag, List.mem_cons_of_mem _ hc⟩)

/-- A file whose references hold no braces shows the braces of the user: formatting
keeps fewer braces of a text than it has. -/
theorem Rendered.braceFree (hrule : FieldRule special) {names : FlagNames} {flags : FlagTexts}
    (h : Rendered special cfg names flags) (hverbatim : Verbatim cfg names flags)
    (hsysroot : ∀ c ∈ names.sysrootRef, ¬ IsBrace c)
    (hlibcxx : ∀ c ∈ names.libcxxRef, ¬ IsBrace c)
    (hcfields : ¬ ReadsAttribute cfg.commonCflags)
    (hldfields : ¬ ReadsAttribute cfg.commonLdflags) : BraceFree cfg := by
  have hctext : flags.cflags = cflagsText cfg names.sysrootRef :=
    hverbatim.cflags.trans (cflagsText_eq cfg _).symm
  have hldtext : flags.ldflags = ldflagsText cfg names.sysrootRef names.libcxxRef :=
    hverbatim.ldflags.trans (ldflagsText_eq cfg _ _).symm
  have hcbraces := braces_format_le hrule ?_ hcfields h.cflags
  have hldbraces := braces_format_le hrule ?_ hldfields h.ldflags
  · rw [hctext, braces_cflagsText cfg hsysroot, doubled_commonCflags] at hcbraces
    rw [hldtext, braces_ldflagsText cfg hsysroot hlibcxx, doubled_commonLdflags] at hldbraces
    have htriple := doubled_le cfg.triple
    have huser := doubled_le (flagTail cfg.userCflags)
    have hlink := doubled_le (flagTail cfg.ldflags)
    exact
      { triple := braces_eq_zero_iff.mp (by omega)
        cflags := not_isBrace_of_flagTail (by omega)
        ldflags := not_isBrace_of_flagTail (by omega) }
  · intro name value hvalue
    have hmem := Dict.mem_pairs_of_get?_ofList hvalue
    simp only [List.mem_cons, Prod.mk.injEq, List.not_mem_nil, or_false] at hmem
    rcases hmem with ⟨_, rfl⟩ | ⟨_, rfl⟩
    · exact hsysroot
    · exact hlibcxx
  · intro name value hvalue
    have hmem := Dict.mem_pairs_of_get?_ofList hvalue
    simp only [List.mem_cons, Prod.mk.injEq, List.not_mem_nil, or_false] at hmem
    obtain ⟨_, rfl⟩ := hmem
    exact hsysroot

/-- Flags without braces are rendered verbatim. A brace in a text of the user is
doubled, or opens or closes a field: the former loses a brace, the latter fails or
loses the field, unless the field reads an attribute whose text holds braces again. -/
theorem renders_verbatim_iff (hrule : FieldRule special) (htriple : cfg.tripleSplit.length = 4) :
    (BraceFree cfg → RendersVerbatim special cfg) ∧
      (¬ ReadsAttribute cfg.commonCflags → ¬ ReadsAttribute cfg.commonLdflags →
        (RendersVerbatim special cfg ↔ BraceFree cfg)) := by
  have hrenders : BraceFree cfg → RendersVerbatim special cfg := by
    intro hcfg
    obtain ⟨files, hmain⟩ := finishes_genToolchainsMain hcfg htriple
    exact ⟨files, hmain, fun names file hfile => (rendered_of_main hmain hfile).verbatim hcfg⟩
  refine ⟨hrenders, fun hcfields hldfields => ⟨?_, hrenders⟩⟩
  rintro ⟨files, hmain, hverbatim⟩
  have hfile : (makeNames, files.makefile) ∈ flagFiles files := by simp [flagFiles]
  exact (rendered_of_main hmain hfile).braceFree hrule (hverbatim _ _ hfile) (by decide)
    (by decide) hcfields hldfields

theorem shippedToml_renders_verbatim : RendersVerbatim noSpecialFields shippedToml :=
  (renders_verbatim_iff fieldRule_noSpecialFields (by decide)).1 plainToml_shippedToml.braceFree

/-- The `wali.toml` of the repository with a macro whose value is `{0}`. -/
def macroToml : WaliToml := { shippedToml with extraCflags := ["-DZERO=\x7b0\x7d"] }

theorem macroToml_not_rendered : ¬ RendersVerbatim noSpecialFields macroToml := by
  rintro ⟨files, hmain, _⟩
  obtain ⟨_, _, _, _, hmake, _⟩ := genToolchainsMain_eq_returns_iff.mp hmain
  have hcflags := (formatFlags_eq_returns_iff.mp hmake).1
  have hraises : format noSpecialFields (Dict.ofList [("SYSROOTVAR", "$(WALI_SYSROOT_DIR)")])
      macroToml.commonCflags = raises .indexError := rfl
  rw [hraises] at hcflags
  cases hcflags

end Verbatim

end Wali.FlagRendering
