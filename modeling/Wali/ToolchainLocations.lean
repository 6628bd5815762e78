import Wali.ToolchainFiles

/-!
Where the three toolchain files put the directories, the tools and the flags: each
file gives all locations below the root directory that it starts from, and the CMake
file starts from another one.
-/

namespace Wali.ToolchainLocations

open Wali.InsertionDict
open Wali.PathNormalisation
open Wali.PythonFormat
open Wali.PythonText
open Wali.RunOutcome
open Wali.RunOutcome.Outcome
open Wali.ToolchainFiles
open Wali.VariableExpansion

section Flags

/-- Flags appended to a flag string. -/
def flagTail (flags : List Text) : Text := flags.flatMap fun flag => ' ' :: flag

def cflagsText (cfg : WaliToml) (sysroot : Text) : Text :=
  "--target=" ++ (cfg.triple ++ (" --sysroot=" ++ (sysroot ++ flagTail cfg.userCflags)))

def cxxflagsText (cflags libcxx : Text) : Text :=
  "-stdlib=libc++ " ++ (cflags ++ (" -I" ++ (libcxx ++ "/include/c++/v1")))

def ldflagsText (cfg : WaliToml) (sysroot libcxx : Text) : Text :=
  "-L" ++ (sysroot ++ ("/lib -L" ++ (libcxx ++ ("/lib" ++ flagTail cfg.ldflags))))

/-- Strings whose characters the generator, make, bash and CMake leave alone; flags
may contain blanks. -/
structure PlainToml (cfg : WaliToml) : Prop where
  words : ∀ w ∈ [cfg.triple, cfg.root, cfg.llvm, cfg.sysroot, cfg.libcxx], ∀ c ∈ w, IsPlain c
  cflags : ∀ flag ∈ cfg.userCflags, ∀ c ∈ flag, c = ' ' ∨ IsPlain c
  ldflags : ∀ flag ∈ cfg.ldflags, ∀ c ∈ flag, c = ' ' ∨ IsPlain c

/-- No text in front of, among or behind the generator's own fields holds a brace. -/
structure BraceFree (cfg : WaliToml) : Prop where
  triple : ∀ c ∈ cfg.triple, ¬ IsBrace c
  cflags : ∀ flag ∈ cfg.userCflags, ∀ c ∈ flag, ¬ IsBrace c
  ldflags : ∀ flag ∈ cfg.ldflags, ∀ c ∈ flag, ¬ IsBrace c

theorem join_cons_blank (first : Text) (flags : List Text) :
    shJoin (first :: flags) = first ++ flagTail flags := by
  unfold shJoin join
  induction flags generalizing first with
  | nil => simp [flagTail]
  | cons flag flags ih =>
      rw [List.intercalate_cons_cons, ih]
      simp [flagTail]

theorem not_isBrace_of_isPlain {c : Char} (h : IsPlain c) : ¬ IsBrace c := by
  rintro (rfl | rfl)
  · exact h.2 (by decide)
  · exact h.2 (by decide)

theorem ne_dollar_of_isPlain {c : Char} (h : IsPlain c) : c ≠ '$' := by
  rintro rfl
  exact h.2 (by decide)

theorem mem_flagTail {flags : List Text} {c : Char} (hc : c ∈ flagTail flags) :
    c = ' ' ∨ ∃ flag ∈ flags, c ∈ flag := by
  obtain ⟨flag, hflag, hmem⟩ := List.mem_flatMap.mp hc
  rcases List.mem_cons.mp hmem with heq | hmem
  · exact .inl heq
  · exact .inr ⟨flag, hflag, hmem⟩

theorem not_isBrace_flagTail {flags : List Text}
    (h : ∀ flag ∈ flags, ∀ c ∈ flag, ¬ IsBrace c) : ∀ c ∈ flagTail flags, ¬ IsBrace c := by
  intro c hc
  rcases mem_flagTail hc with rfl | ⟨flag, hflag, hmem⟩
  · decide
  · exact h flag hflag c hmem

theorem dollar_not_mem_flagTail {flags : List Text}
    (h : ∀ flag ∈ flags, ∀ c ∈ flag, c = ' ' ∨ IsPlain c) : '$' ∉ flagTail flags := by
  intro hdollar
  rcases mem_flagTail hdollar with heq | ⟨flag, hflag, hmem⟩
  · exact absurd heq (by decide)
  · rcases h flag hflag '$' hmem with heq | hplain
    · exact absurd heq (by decide)
    · exact ne_dollar_of_isPlain hplain rfl

variable {special : SpecialFields} {cfg : WaliToml} {sysroot cflags libcxx : Text}

theorem PlainToml.braceFree (hcfg : PlainToml cfg) : BraceFree cfg := by
  have hflag : ∀ {c : Char}, c = ' ' ∨ IsPlain c → ¬ IsBrace c := by
    rintro c (rfl | hplain)
    · decide
    · exact not_isBrace_of_isPlain hplain
  exact
    { triple := fun c hc => not_isBrace_of_isPlain (hcfg.words cfg.triple (by simp) c hc)
      cflags := fun flag hmem c hc => hflag (hcfg.cflags flag hmem c hc)
      ldflags := fun flag hmem c hc => hflag (hcfg.ldflags flag hmem c hc) }

theorem format_commonCflags (hcfg : BraceFree cfg) :
    format special (Dict.ofList [("SYSROOTVAR", sysroot)]) cfg.commonCflags =
      returns (cflagsText cfg sysroot) := by
  have htext : cfg.commonCflags = "--target=" ++ (cfg.triple ++ (" --sysroot=" ++
      ('\x7b' :: ("SYSROOTVAR" ++ '\x7d' :: flagTail cfg.userCflags)))) := by
    rw [WaliToml.commonCflags, List.cons_append, List.cons_append, List.nil_append,
      join_cons_blank]
    simp [flagTail]
  rw [htext, format_literal_append (by decide), format_literal_append hcfg.triple,
    format_literal_append (by decide), format_keyword_append (by decide) rfl,
    format_literal (not_isBrace_flagTail hcfg.cflags)]
  rfl

theorem format_commonCxxflags :
    format special (Dict.ofList [("CFLAGSVAR", cflags), ("LIBCXXVAR", libcxx)])
        commonCxxflags = returns (cxxflagsText cflags libcxx) := by
  have htext : commonCxxflags = "-stdlib=libc++ " ++ ('\x7b' :: ("CFLAGSVAR" ++ '\x7d' ::
      (" -I" ++ ('\x7b' :: ("LIBCXXVAR" ++ '\x7d' :: "/include/c++/v1".toList))))) := rfl
  rw [htext, format_literal_append (by decide), format_keyword_append (by decide) rfl,
    format_literal_append (by decide), format_keyword_append (by decide) rfl,
    format_literal (by decide)]
  rfl

theorem format_commonLdflags (hldflags : ∀ flag ∈ cfg.ldflags, ∀ c ∈ flag, ¬ IsBrace c) :
    format special (Dict.ofList [("SYSROOTVAR", sysroot), ("LIBCXXVAR", libcxx)])
        cfg.commonLdflags = returns (ldflagsText cfg sysroot libcxx) := by
  have htext : cfg.commonLdflags = "-L" ++ ('\x7b' :: ("SYSROOTVAR" ++ '\x7d' ::
      ("/lib -L" ++ ('\x7b' :: ("LIBCXXVAR" ++ '\x7d' ::
        ("/lib" ++ flagTail cfg.ldflags)))))) := by
    rw [WaliToml.commonLdflags, List.cons_append, List.cons_append, List.nil_append,
      join_cons_blank]
    simp [flagTail]
  rw [htext, format_literal_append (by decide), format_keyword_append (by decide) rfl,
    format_literal_append (by decide), format_keyword_append (by decide) rfl,
    format_literal_append (by decide), format_literal (not_isBrace_flagTail hldflags)]
  rfl

theorem formatFlags_eq (hcfg : BraceFree cfg) :
    formatFlags special cfg sysroot cflags libcxx =
      returns ⟨cflagsText cfg sysroot, cxxflagsText cflags libcxx,
        ldflagsText cfg sysroot libcxx⟩ := by
  rw [formatFlags, format_commonCflags hcfg, returns_bind, format_commonCxxflags, returns_bind,
    format_commonLdflags hcfg.ldflags, returns_bind]

end Flags

section Languages

/-- Names of variables: letters, digits and underscores, no digit first. -/
def isVarName : Text → Bool
  | [] => false
  | c :: cs => isNameStart c && cs.all isNameChar

/-- How a language refers to a variable: `pathRef` before a slash, `flagRef` before
any text. -/
structure Language where
  form : RefForm
  pathRef : Text → Text
  flagRef : Text → Text
  marker_eq : form.marker = '$'
  read_pathRef : ∀ name rel, isVarName name = true →
    form.read (pathRef name ++ '/' :: rel) = some (name, (pathRef name).length)
  read_flagRef : ∀ name rest, isVarName name = true →
    form.read (flagRef name ++ rest) = some (name, (flagRef name).length)

theorem isNameChar_of_isVarName {name : Text} (h : isVarName name = true) :
    ∀ c ∈ name, isNameChar c = true := by
  rcases name with _ | ⟨c, cs⟩
  · cases h
  · simp only [isVarName, Bool.and_eq_true, List.all_eq_true] at h
    intro d hd
    rcases List.mem_cons.mp hd with rfl | hd
    · simp only [isNameStart, isNameChar, Char.isAlphanum, Bool.or_eq_true] at h ⊢
      tauto
    · exact h.2 d hd

theorem read_bracketed {opening closing : Char} (hclosing : isNameChar closing = false)
    {name : Text} (h : isVarName name = true) (rest : Text) :
    (delimited '$' opening closing).read (('$' :: opening :: (name ++ [closing])) ++ rest) =
      some (name, ('$' :: opening :: (name ++ [closing])).length) := by
  have hname : closing ∉ name := by
    intro hmem
    rw [isNameChar_of_isVarName h closing hmem] at hclosing
    cases hclosing
  have hread := @read_delimited name '$' opening closing hname rest
  simpa using hread

def makeLanguage : Language where
  form := makeForm
  pathRef name := '$' :: '(' :: (name ++ [')'])
  flagRef name := '$' :: '(' :: (name ++ [')'])
  marker_eq := rfl
  read_pathRef := fun _ _ h => read_bracketed (by decide) h _
  read_flagRef := fun _ _ h => read_bracketed (by decide) h _

def cmakeLanguage : Language where
  form := cmakeForm
  pathRef name := '$' :: '\x7b' :: (name ++ ['\x7d'])
  flagRef name := '$' :: '\x7b' :: (name ++ ['\x7d'])
  marker_eq := rfl
  read_pathRef := fun _ _ h => read_bracketed (by decide) h _
  read_flagRef := fun _ _ h => read_bracketed (by decide) h _

theorem bashForm_read (s : Text) :
    bashForm.read s = ((delimited '$' '\x7b' '\x7d').read s).or (readBareName s) :=
  rfl

theorem read_bareName {name : Text} (h : isVarName name = true) (rel : Text) :
    bashForm.read (('$' :: name) ++ '/' :: rel) = some (name, ('$' :: name).length) := by
  rcases name with _ | ⟨c, cs⟩
  · cases h
  · simp only [isVarName, Bool.and_eq_true, List.all_eq_true] at h
    have hbrace : c ≠ '\x7b' := by
      rintro rfl
      exact absurd h.1 (by decide)
    have htake : (cs ++ '/' :: rel).takeWhile isNameChar = cs := by
      rw [List.takeWhile_append_of_pos h.2, List.takeWhile_cons_of_neg (by decide),
        List.append_nil]
    have hbare : readBareName ('$' :: c :: (cs ++ '/' :: rel)) =
        some (c :: cs, cs.length + 2) := by
      rw [readBareName, if_pos h.1, htake]
    have hdelimited : (delimited '$' '\x7b' '\x7d').read ('$' :: c :: (cs ++ '/' :: rel)) =
        none := by
      simp [delimited, hbrace]
    rw [List.cons_append, List.cons_append, bashForm_read, hdelimited, Option.none_or, hbare]
    rfl

theorem read_bracedName {name : Text} (h : isVarName name = true) (rest : Text) :
    bashForm.read (('$' :: '\x7b' :: (name ++ ['\x7d'])) ++ rest) =
      some (name, ('$' :: '\x7b' :: (name ++ ['\x7d'])).length) := by
  rw [bashForm_read, read_bracketed (by decide) h rest]
  rfl

def bashLanguage : Language where
  form := bashForm
  pathRef name := '$' :: name
  flagRef name := '$' :: '\x7b' :: (name ++ ['\x7d'])
  marker_eq := rfl
  read_pathRef := fun _ rel h => read_bareName h rel
  read_flagRef := fun _ rest h => read_bracedName h rest

end Languages

section Environments

variable (L : Language) {env : Env} {name name' rel rest : Text} {cfg : WaliToml}

theorem pathRef_ne_nil (hname : isVarName name = true) : L.pathRef name ≠ [] := by
  intro hnil
  have hread := L.read_pathRef name [] hname
  rw [hnil, List.nil_append, L.form.read_eq_none _ _ (by rw [L.marker_eq]; decide)] at hread
  cases hread

theorem flagRef_ne_nil (hname : isVarName name = true) : L.flagRef name ≠ [] := by
  intro hnil
  have hread := L.read_flagRef name ['/'] hname
  rw [hnil, List.nil_append, L.form.read_eq_none _ _ (by rw [L.marker_eq]; decide)] at hread
  cases hread

theorem marker_not_mem (h : '$' ∉ rel) : L.form.marker ∉ rel := by
  rwa [L.marker_eq]

theorem expand_pathRef (hname : isVarName name = true) (hrel : '$' ∉ rel) :
    expand L.form env (L.pathRef name ++ '/' :: rel) = env name ++ '/' :: rel := by
  rw [expand_ref_append (pathRef_ne_nil L hname) (L.read_pathRef name rel hname),
    expand_literal (marker_not_mem L (by simpa using hrel))]

theorem refs_pathRef (hname : isVarName name = true) (hrel : '$' ∉ rel) :
    refs L.form (L.pathRef name ++ '/' :: rel) = [name] := by
  rw [refs_ref_append (pathRef_ne_nil L hname) (L.read_pathRef name rel hname),
    refs_literal (marker_not_mem L (by simpa using hrel))]

theorem expand_flagRef (hname : isVarName name = true) (rest : Text) :
    expand L.form env (L.flagRef name ++ rest) = env name ++ expand L.form env rest :=
  expand_ref_append (flagRef_ne_nil L hname) (L.read_flagRef name rest hname)

theorem refs_flagRef (hname : isVarName name = true) (rest : Text) :
    refs L.form (L.flagRef name ++ rest) = name :: refs L.form rest :=
  refs_ref_append (flagRef_ne_nil L hname) (L.read_flagRef name rest hname)

theorem dollar_not_mem_word (hcfg : PlainToml cfg) {w : Text}
    (hw : w ∈ [cfg.triple, cfg.root, cfg.llvm, cfg.sysroot, cfg.libcxx]) : '$' ∉ w :=
  fun hc => ne_dollar_of_isPlain (hcfg.words w hw '$' hc) rfl

theorem expand_cflagsText (hcfg : PlainToml cfg) (hname : isVarName name = true) :
    expand L.form env (cflagsText cfg (L.flagRef name)) = cflagsText cfg (env name) := by
  unfold cflagsText
  rw [expand_literal_append (marker_not_mem L (by decide)),
    expand_literal_append (marker_not_mem L (dollar_not_mem_word hcfg (by simp))),
    expand_literal_append (marker_not_mem L (by decide)), expand_flagRef L hname,
    expand_literal (marker_not_mem L (dollar_not_mem_flagTail hcfg.cflags))]

theorem refs_cflagsText (hcfg : PlainToml cfg) (hname : isVarName name = true) :
    refs L.form (cflagsText cfg (L.flagRef name)) = [name] := by
  unfold cflagsText
  rw [refs_literal_append (marker_not_mem L (by decide)),
    refs_literal_append (marker_not_mem L (dollar_not_mem_word hcfg (by simp))),
    refs_literal_append (marker_not_mem L (by decide)), refs_flagRef L hname,
    refs_literal (marker_not_mem L (dollar_not_mem_flagTail hcfg.cflags))]

theorem expand_cxxflagsText (hname : isVarName name = true) (hname' : isVarName name' = true) :
    expand L.form env (cxxflagsText (L.flagRef name) (L.flagRef name')) =
      cxxflagsText (env name) (env name') := by
  unfold cxxflagsText
  rw [expand_literal_append (marker_not_mem L (by decide)),
    expand_flagRef L hname, expand_literal_append (marker_not_mem L (by decide)),
    expand_flagRef L hname', expand_literal (marker_not_mem L (by decide))]

theorem refs_cxxflagsText (hname : isVarName name = true) (hname' : isVarName name' = true) :
    refs L.form (cxxflagsText (L.flagRef name) (L.flagRef name')) = [name, name'] := by
  unfold cxxflagsText
  rw [refs_literal_append (marker_not_mem L (by decide)),
    refs_flagRef L hname, refs_literal_append (marker_not_mem L (by decide)),
    refs_flagRef L hname', refs_literal (marker_not_mem L (by decide))]

theorem expand_ldflagsText (hcfg : PlainToml cfg) (hname : isVarName name = true)
    (hname' : isVarName name' = true) :
    expand L.form env (ldflagsText cfg (L.flagRef name) (L.flagRef name')) =
      ldflagsText cfg (env name) (env name') := by
  unfold ldflagsText
  rw [expand_literal_append (marker_not_mem L (by decide)),
    expand_flagRef L hname, expand_literal_append (marker_not_mem L (by decide)),
    expand_flagRef L hname', expand_literal_append (marker_not_mem L (by decide)),
    expand_literal (marker_not_mem L (dollar_not_mem_flagTail hcfg.ldflags))]

theorem refs_ldflagsText (hcfg : PlainToml cfg) (hname : isVarName name = true)
    (hname' : isVarName name' = true) :
    refs L.form (ldflagsText cfg (L.flagRef name) (L.flagRef name')) = [name, name'] := by
  unfold ldflagsText
  rw [refs_literal_append (marker_not_mem L (by decide)),
    refs_flagRef L hname, refs_literal_append (marker_not_mem L (by decide)),
    refs_flagRef L hname', refs_literal_append (marker_not_mem L (by decide)),
    refs_literal (marker_not_mem L (dollar_not_mem_flagTail hcfg.ldflags))]

/-- The locations below a root directory, as the configuration has them. -/
def locationsUnder (cfg : WaliToml) (root : Text) : Locations :=
  let build := root ++ '/' :: cfg.root
  let llvmBin := build ++ '/' :: (cfg.llvm ++ '/' :: "bin")
  let sysroot := build ++ '/' :: cfg.sysroot
  let libcxx := build ++ '/' :: cfg.libcxx
  { root, build, llvmBin, sysroot, libcxx
    cc := llvmBin ++ '/' :: "clang"
    cxx := llvmBin ++ '/' :: "clang++"
    ld := llvmBin ++ '/' :: "wasm-ld"
    ar := llvmBin ++ '/' :: "llvm-ar"
    ranlib := llvmBin ++ '/' :: "llvm-ranlib"
    flags := ⟨cflagsText cfg sysroot, cxxflagsText (cflagsText cfg sysroot) libcxx,
      ldflagsText cfg sysroot libcxx⟩ }

/-- The assignments that the make file and the bash file share, before those of the
target names. -/
def waliDirs (cfg : WaliToml) : Assignments :=
  [("WALI_BUILD_DIR", L.pathRef "WALI_ROOT_DIR" ++ '/' :: cfg.root),
    ("WALI_LLVM_DIR", L.pathRef "WALI_BUILD_DIR" ++ '/' :: cfg.llvm),
    ("WALI_SYSROOT_DIR", L.pathRef "WALI_BUILD_DIR" ++ '/' :: cfg.sysroot),
    ("WALI_LIBCXX_DIR", L.pathRef "WALI_BUILD_DIR" ++ '/' :: cfg.libcxx),
    ("WALI_LLVM_BIN_DIR", L.pathRef "WALI_LLVM_DIR" ++ '/' :: "bin"),
    ("WALI_CC", L.pathRef "WALI_LLVM_BIN_DIR" ++ '/' :: "clang"),
    ("WALI_CXX", L.pathRef "WALI_LLVM_BIN_DIR" ++ '/' :: "clang++"),
    ("WALI_LD", L.pathRef "WALI_LLVM_BIN_DIR" ++ '/' :: "wasm-ld"),
    ("WALI_AR", L.pathRef "WALI_LLVM_BIN_DIR" ++ '/' :: "llvm-ar"),
    ("WALI_RANLIB", L.pathRef "WALI_LLVM_BIN_DIR" ++ '/' :: "llvm-ranlib"),
    ("WALI_COMMON_CFLAGS", cflagsText cfg (L.flagRef "WALI_SYSROOT_DIR")),
    ("WALI_COMMON_CXXFLAGS",
      cxxflagsText (L.flagRef "WALI_COMMON_CFLAGS") (L.flagRef "WALI_LIBCXX_DIR")),
    ("WALI_COMMON_LDFLAGS",
      ldflagsText cfg (L.flagRef "WALI_SYSROOT_DIR") (L.flagRef "WALI_LIBCXX_DIR"))]

def targetNames (cfg : WaliToml) : Assignments :=
  [("WALI_TARGET", cfg.triple), ("WALI_TARGET_NOVENDOR", cfg.targetNovendor)]

def waliDependencies : List (Text × List Text) :=
  [("WALI_BUILD_DIR", ["WALI_ROOT_DIR"]), ("WALI_LLVM_DIR", ["WALI_BUILD_DIR"]),
    ("WALI_SYSROOT_DIR", ["WALI_BUILD_DIR"]), ("WALI_LIBCXX_DIR", ["WALI_BUILD_DIR"]),
    ("WALI_LLVM_BIN_DIR", ["WALI_LLVM_DIR"]), ("WALI_CC", ["WALI_LLVM_BIN_DIR"]),
    ("WALI_CXX", ["WALI_LLVM_BIN_DIR"]), ("WALI_LD", ["WALI_LLVM_BIN_DIR"]),
    ("WALI_AR", ["WALI_LLVM_BIN_DIR"]), ("WALI_RANLIB", ["WALI_LLVM_BIN_DIR"]),
    ("WALI_COMMON_CFLAGS", ["WALI_SYSROOT_DIR"]),
    ("WALI_COMMON_CXXFLAGS", ["WALI_COMMON_CFLAGS", "WALI_LIBCXX_DIR"]),
    ("WALI_COMMON_LDFLAGS", ["WALI_SYSROOT_DIR", "WALI_LIBCXX_DIR"])]

theorem dependencies_waliDirs (hcfg : PlainToml cfg) :
    dependencies L.form (waliDirs L cfg) = waliDependencies := by
  have hword : ∀ w ∈ [cfg.triple, cfg.root, cfg.llvm, cfg.sysroot, cfg.libcxx], '$' ∉ w :=
    fun w hw => dollar_not_mem_word hcfg hw
  have hpath : ∀ name rel, isVarName name = true → '$' ∉ rel →
      refs L.form (L.pathRef name ++ '/' :: rel) = [name] :=
    fun name rel => refs_pathRef L
  simp only [dependencies, waliDirs, List.map_cons, List.map_nil]
  rw [hpath _ _ (by decide) (hword cfg.root (by simp)),
    hpath _ _ (by decide) (hword cfg.llvm (by simp)),
    hpath _ _ (by decide) (hword cfg.sysroot (by simp)),
    hpath _ _ (by decide) (hword cfg.libcxx (by simp)),
    hpath "WALI_LLVM_DIR" "bin" (by decide) (by decide),
    hpath "WALI_LLVM_BIN_DIR" "clang" (by decide) (by decide),
    hpath "WALI_LLVM_BIN_DIR" "clang++" (by decide) (by decide),
    hpath "WALI_LLVM_BIN_DIR" "wasm-ld" (by decide) (by decide),
    hpath "WALI_LLVM_BIN_DIR" "llvm-ar" (by decide) (by decide),
    hpath "WALI_LLVM_BIN_DIR" "llvm-ranlib" (by decide) (by decide),
    refs_cflagsText L hcfg (by decide), refs_cxxflagsText L (by decide) (by decide),
    refs_ldflagsText L hcfg (by decide) (by decide)]
  rfl

theorem ordered_waliDependencies : Ordered waliDependencies := by
  simp only [waliDependencies, Ordered, and_true]
  decide

theorem environment_root {form : RefForm} {root : Text} {file : Assignments}
    (hnot : "WALI_ROOT_DIR".toList ∉ file.map Prod.fst) :
    environment form root file "WALI_ROOT_DIR" = root := by
  rw [environment, assignAll_of_not_mem hnot, Function.update_self]

theorem waliLocations_eq (hcfg : PlainToml cfg) (root : Text) :
    waliLocations (environment L.form root (waliDirs L cfg ++ targetNames cfg)) =
      locationsUnder cfg root := by
  have hword : ∀ w ∈ [cfg.triple, cfg.root, cfg.llvm, cfg.sysroot, cfg.libcxx], '$' ∉ w :=
    fun w hw => dollar_not_mem_word hcfg hw
  have horder : Ordered (dependencies L.form (waliDirs L cfg)) := by
    rw [dependencies_waliDirs L hcfg]
    exact ordered_waliDependencies
  unfold environment
  rw [assignAll_append]
  generalize hdirs : assignAll L.form (Function.update (fun _ => []) "WALI_ROOT_DIR" root)
    (waliDirs L cfg) = dirs
  have hkeep : ∀ n ∉ ["WALI_TARGET".toList, "WALI_TARGET_NOVENDOR".toList],
      assignAll L.form dirs (targetNames cfg) n = dirs n :=
    fun n hn => assignAll_of_not_mem hn
  have hroot : dirs "WALI_ROOT_DIR" = root := by
    have hnot : "WALI_ROOT_DIR".toList ∉ waliDependencies.map Prod.fst := by decide
    rw [← hdirs]
    exact environment_root hnot
  have heq : ∀ assignment ∈ waliDirs L cfg,
      dirs assignment.1 = expand L.form dirs assignment.2 := by
    intro assignment h
    rw [← hdirs]
    exact assignAll_eq horder h
  simp only [waliDirs, List.forall_mem_cons] at heq
  obtain ⟨hbuild, hllvm, hsysroot, hlibcxx, hbin, hcc, hcxx, hld, har, hranlib, hcflags,
    hcxxflags, hldflags, _⟩ := heq
  rw [expand_pathRef L (by decide) (hword cfg.root (by simp)), hroot] at hbuild
  rw [expand_pathRef L (by decide) (hword cfg.llvm (by simp)), hbuild] at hllvm
  rw [expand_pathRef L (by decide) (hword cfg.sysroot (by simp)), hbuild] at hsysroot
  rw [expand_pathRef L (by decide) (hword cfg.libcxx (by simp)), hbuild] at hlibcxx
  rw [expand_pathRef L (by decide) (by decide), hllvm] at hbin
  rw [expand_pathRef L (by decide) (by decide), hbin] at hcc hcxx hld har hranlib
  rw [expand_cflagsText L hcfg (by decide), hsysroot] at hcflags
  rw [expand_cxxflagsText L (by decide) (by decide), hcflags, hlibcxx] at hcxxflags
  rw [expand_ldflagsText L hcfg (by decide) (by decide), hsysroot, hlibcxx] at hldflags
  unfold waliLocations
  rw [hkeep _ (by decide), hkeep _ (by decide), hkeep _ (by decide), hkeep _ (by decide),
    hkeep _ (by decide), hkeep _ (by decide), hkeep _ (by decide), hkeep _ (by decide),
    hkeep _ (by decide), hkeep _ (by decide), hkeep _ (by decide), hkeep _ (by decide),
    hkeep _ (by decide), hroot, hbuild, hbin, hcc, hcxx, hld, har, hranlib, hsysroot, hlibcxx,
    hcflags, hcxxflags, hldflags]
  simp [locationsUnder]

/-- The assignments of the CMake file. -/
def cmakeDirs (cfg : WaliToml) : Assignments :=
  [("WALI_BUILD_DIR", L.pathRef "WALI_ROOT_DIR" ++ '/' :: cfg.root),
    ("WALI_LLVM_BIN_DIR", L.pathRef "WALI_BUILD_DIR" ++ '/' :: (cfg.llvm ++ "/bin")),
    ("WALI_LIBCXX_DIR", L.pathRef "WALI_BUILD_DIR" ++ '/' :: cfg.libcxx),
    ("CMAKE_SYSROOT", L.pathRef "WALI_BUILD_DIR" ++ '/' :: cfg.sysroot),
    ("CMAKE_C_COMPILER", L.pathRef "WALI_LLVM_BIN_DIR" ++ '/' :: "clang"),
    ("CMAKE_CXX_COMPILER", L.pathRef "WALI_LLVM_BIN_DIR" ++ '/' :: "clang++"),
    ("CMAKE_AR", L.pathRef "WALI_LLVM_BIN_DIR" ++ '/' :: "llvm-ar"),
    ("CMAKE_RANLIB", L.pathRef "WALI_LLVM_BIN_DIR" ++ '/' :: "llvm-ranlib"),
    ("CMAKE_LINKER", L.pathRef "WALI_LLVM_BIN_DIR" ++ '/' :: "wasm-ld"),
    ("CMAKE_C_FLAGS", cflagsText cfg (L.flagRef "CMAKE_SYSROOT")),
    ("CMAKE_CXX_FLAGS",
      cxxflagsText (L.flagRef "CMAKE_C_FLAGS") (L.flagRef "WALI_LIBCXX_DIR")),
    ("CMAKE_EXE_LINKER_FLAGS",
      ldflagsText cfg (L.flagRef "CMAKE_SYSROOT") (L.flagRef "WALI_LIBCXX_DIR"))]

def cmakeDependencies : List (Text × List Text) :=
  [("WALI_BUILD_DIR", ["WALI_ROOT_DIR"]), ("WALI_LLVM_BIN_DIR", ["WALI_BUILD_DIR"]),
    ("WALI_LIBCXX_DIR", ["WALI_BUILD_DIR"]), ("CMAKE_SYSROOT", ["WALI_BUILD_DIR"]),
    ("CMAKE_C_COMPILER", ["WALI_LLVM_BIN_DIR"]),
    ("CMAKE_CXX_COMPILER", ["WALI_LLVM_BIN_DIR"]), ("CMAKE_AR", ["WALI_LLVM_BIN_DIR"]),
    ("CMAKE_RANLIB", ["WALI_LLVM_BIN_DIR"]), ("CMAKE_LINKER", ["WALI_LLVM_BIN_DIR"]),
    ("CMAKE_C_FLAGS", ["CMAKE_SYSROOT"]),
    ("CMAKE_CXX_FLAGS", ["CMAKE_C_FLAGS", "WALI_LIBCXX_DIR"]),
    ("CMAKE_EXE_LINKER_FLAGS", ["CMAKE_SYSROOT", "WALI_LIBCXX_DIR"])]

theorem dollar_not_mem_llvmBin (hcfg : PlainToml cfg) : '$' ∉ cfg.llvm ++ ("/bin" : Text) := by
  rw [List.mem_append, not_or]
  exact ⟨dollar_not_mem_word hcfg (by simp), by decide⟩

theorem dependencies_cmakeDirs (hcfg : PlainToml cfg) :
    dependencies L.form (cmakeDirs L cfg) = cmakeDependencies := by
  have hword : ∀ w ∈ [cfg.triple, cfg.root, cfg.llvm, cfg.sysroot, cfg.libcxx], '$' ∉ w :=
    fun w hw => dollar_not_mem_word hcfg hw
  have hpath : ∀ name rel, isVarName name = true → '$' ∉ rel →
      refs L.form (L.pathRef name ++ '/' :: rel) = [name] :=
    fun name rel => refs_pathRef L
  simp only [dependencies, cmakeDirs, List.map_cons, List.map_nil]
  rw [hpath _ _ (by decide) (hword cfg.root (by simp)),
    hpath _ _ (by decide) (dollar_not_mem_llvmBin hcfg),
    hpath _ _ (by decide) (hword cfg.libcxx (by simp)),
    hpath _ _ (by decide) (hword cfg.sysroot (by simp)),
    hpath "WALI_LLVM_BIN_DIR" "clang" (by decide) (by decide),
    hpath "WALI_LLVM_BIN_DIR" "clang++" (by decide) (by decide),
    hpath "WALI_LLVM_BIN_DIR" "llvm-ar" (by decide) (by decide),
    hpath "WALI_LLVM_BIN_DIR" "llvm-ranlib" (by decide) (by decide),
    hpath "WALI_LLVM_BIN_DIR" "wasm-ld" (by decide) (by decide),
    refs_cflagsText L hcfg (by decide), refs_cxxflagsText L (by decide) (by decide),
    refs_ldflagsText L hcfg (by decide) (by decide)]
  rfl

theorem ordered_cmakeDependencies : Ordered cmakeDependencies := by
  simp only [cmakeDependencies, Ordered, and_true]
  decide

theorem cmakeLocations_eq (hcfg : PlainToml cfg) (root : Text) :
    cmakeLocations (environment L.form root (cmakeDirs L cfg)) = locationsUnder cfg root := by
  have hword : ∀ w ∈ [cfg.triple, cfg.root, cfg.llvm, cfg.sysroot, cfg.libcxx], '$' ∉ w :=
    fun w hw => dollar_not_mem_word hcfg hw
  have horder : Ordered (dependencies L.form (cmakeDirs L cfg)) := by
    rw [dependencies_cmakeDirs L hcfg]
    exact ordered_cmakeDependencies
  unfold environment
  generalize hdirs : assignAll L.form (Function.update (fun _ => []) "WALI_ROOT_DIR" root)
    (cmakeDirs L cfg) = dirs
  have hroot : dirs "WALI_ROOT_DIR" = root := by
    have hnot : "WALI_ROOT_DIR".toList ∉ cmakeDependencies.map Prod.fst := by decide
    rw [← hdirs]
    exact environment_root hnot
  have heq : ∀ assignment ∈ cmakeDirs L cfg,
      dirs assignment.1 = expand L.form dirs assignment.2 := by
    intro assignment h
    rw [← hdirs]
    exact assignAll_eq horder h
  simp only [cmakeDirs, List.forall_mem_cons] at heq
  obtain ⟨hbuild, hbin, hlibcxx, hsysroot, hcc, hcxx, har, hranlib, hld, hcflags, hcxxflags,
    hldflags, _⟩ := heq
  rw [expand_pathRef L (by decide) (hword cfg.root (by simp)), hroot] at hbuild
  rw [expand_pathRef L (by decide) (dollar_not_mem_llvmBin hcfg), hbuild] at hbin
  rw [expand_pathRef L (by decide) (hword cfg.libcxx (by simp)), hbuild] at hlibcxx
  rw [expand_pathRef L (by decide) (hword cfg.sysroot (by simp)), hbuild] at hsysroot
  rw [expand_pathRef L (by decide) (by decide), hbin] at hcc hcxx har hranlib hld
  rw [expand_cflagsText L hcfg (by decide), hsysroot] at hcflags
  rw [expand_cxxflagsText L (by decide) (by decide), hcflags, hlibcxx] at hcxxflags
  rw [expand_ldflagsText L hcfg (by decide) (by decide), hsysroot, hlibcxx] at hldflags
  unfold cmakeLocations
  rw [hroot, hbuild, hbin, hcc, hcxx, hld, har, hranlib, hsysroot, hlibcxx, hcflags, hcxxflags,
    hldflags]
  rfl

end Environments

section Main

variable {special : SpecialFields} {cfg : WaliToml} {files : Toolchains}

theorem genToolchainsMain_eq_returns_iff :
    genToolchainsMain special cfg = returns files ↔
      cfg.tripleSplit.length = 4 ∧ ∃ makeFlags bashFlags cmakeFlags,
        formatFlags special cfg "$(WALI_SYSROOT_DIR)" "$(WALI_COMMON_CFLAGS)"
          "$(WALI_LIBCXX_DIR)" = returns makeFlags ∧
        formatFlags special cfg "$\x7bWALI_SYSROOT_DIR\x7d" "$\x7bWALI_COMMON_CFLAGS\x7d"
          "$\x7bWALI_LIBCXX_DIR\x7d" = returns bashFlags ∧
        formatFlags special cfg "$\x7bCMAKE_SYSROOT\x7d" "$\x7bCMAKE_C_FLAGS\x7d"
          "$\x7bWALI_LIBCXX_DIR\x7d" = returns cmakeFlags ∧
        files = ⟨makefile cfg makeFlags, bash cfg bashFlags, cmake cfg cmakeFlags⟩ := by
  unfold genToolchainsMain
  split
  · next hlength => simp [hlength]
  · next hlength =>
      simp only [bind_eq_returns_iff, returns.injEq, not_not.mp hlength, true_and]
      constructor
      · rintro ⟨makeFlags, hmake, bashFlags, hbash, cmakeFlags, hcmake, rfl⟩
        exact ⟨makeFlags, bashFlags, cmakeFlags, hmake, hbash, hcmake, rfl⟩
      · rintro ⟨makeFlags, bashFlags, cmakeFlags, hmake, hbash, hcmake, rfl⟩
        exact ⟨makeFlags, hmake, bashFlags, hbash, cmakeFlags, hcmake, rfl⟩

theorem finishes_genToolchainsMain (hcfg : BraceFree cfg) (h : cfg.tripleSplit.length = 4) :
    (genToolchainsMain special cfg).Finishes := by
  rw [genToolchainsMain, if_neg (by simp [h]), formatFlags_eq hcfg, returns_bind,
    formatFlags_eq hcfg, returns_bind, formatFlags_eq hcfg, returns_bind]
  exact finishes_returns _

theorem root_of_main (hmain : genToolchainsMain special cfg = returns files)
    (dir : ToolchainDir) :
    (files.makeLocations dir).root = dir.makeRootDir ∧
      (files.bashLocations dir).root = dir.bashRootDir ∧
      (files.cmakeLocations dir).root = dir.cmakeRootDir := by
  obtain ⟨_, makeFlags, bashFlags, cmakeFlags, _, _, _, hfiles⟩ :=
    genToolchainsMain_eq_returns_iff.mp hmain
  have hnot : "WALI_ROOT_DIR".toList ∉ waliDependencies.map Prod.fst ++
      ["WALI_TARGET".toList, "WALI_TARGET_NOVENDOR".toList] := by decide
  have hnotCmake : "WALI_ROOT_DIR".toList ∉ cmakeDependencies.map Prod.fst := by decide
  have hmakeNot : "WALI_ROOT_DIR".toList ∉ files.makefile.map Prod.fst := by
    rw [hfiles]
    exact hnot
  have hbashNot : "WALI_ROOT_DIR".toList ∉ files.bash.map Prod.fst := by
    rw [hfiles]
    exact hnot
  have hcmakeNot : "WALI_ROOT_DIR".toList ∉ files.cmake.map Prod.fst := by
    rw [hfiles]
    exact hnotCmake
  refine ⟨?_, ?_, ?_⟩
  · exact environment_root hmakeNot
  · exact environment_root hbashNot
  · exact environment_root hcmakeNot

theorem locations_of_main (hcfg : PlainToml cfg)
    (hmain : genToolchainsMain special cfg = returns files) (dir : ToolchainDir) :
    files.makeLocations dir = locationsUnder cfg dir.makeRootDir ∧
      files.bashLocations dir = locationsUnder cfg dir.bashRootDir ∧
      files.cmakeLocations dir = locationsUnder cfg dir.cmakeRootDir := by
  unfold genToolchainsMain at hmain
  split at hmain
  · cases hmain
  · rw [formatFlags_eq hcfg.braceFree, returns_bind, formatFlags_eq hcfg.braceFree, returns_bind,
      formatFlags_eq hcfg.braceFree, returns_bind] at hmain
    cases hmain
    exact ⟨waliLocations_eq makeLanguage hcfg _, waliLocations_eq bashLanguage hcfg _,
      cmakeLocations_eq cmakeLanguage hcfg _⟩

end Main

section RootDirs

theorem rdropWhile_slash (p : Text) {n : Text} (h : '/' ∉ n) :
    (p ++ '/' :: n).rdropWhile (· != '/') = p ++ ['/'] := by
  have hn : ∀ c ∈ n.reverse, (c != '/') = true := by
    intro c hc
    have hne : c ≠ '/' := fun heq => h (heq ▸ List.mem_reverse.mp hc)
    simpa using hne
  have hreverse : (p ++ '/' :: n).reverse = n.reverse ++ ('/' :: p.reverse) := by simp
  rw [List.rdropWhile, hreverse, List.dropWhile_append_of_pos hn]
  simp

variable (dir : ToolchainDir)

theorem file_eq (name : Text) : dir.file name = slashed dir.names ++ '/' :: name := by
  rw [ToolchainDir.file, absPath, if_neg (by simp), slashed_concat]

theorem makeRootDir_eq : dir.makeRootDir = slashed dir.names ++ "/.." := by
  have hdir : (dir.file "wali.mk").rdropWhile (· != '/') = slashed dir.names ++ ['/'] := by
    rw [file_eq]
    exact rdropWhile_slash _ (by decide)
  unfold ToolchainDir.makeRootDir
  simp only [hdir]
  rw [if_pos (endsIn_iff_concat.mpr ⟨_, rfl⟩), List.dropLast_concat]

theorem rdropWhile_slashed :
    (slashed dir.names ++ ['/']).rdropWhile (· == '/') = slashed dir.names := by
  rw [List.rdropWhile_concat_pos _ _ _ (by decide)]
  rcases List.eq_nil_or_concat dir.names with hnil | ⟨names, n, hnames⟩
  · rw [hnil]
    rfl
  · have hn : IsName n := dir.proper n (by simp [hnames])
    obtain ⟨body, c, hbody⟩ := (List.eq_nil_or_concat n).resolve_left hn.ne_nil
    have hc : c ≠ '/' := by
      rintro rfl
      exact hn.not_mem_slash (by simp [hbody])
    have hlast : slashed dir.names = (slashed names ++ '/' :: body) ++ [c] := by
      rw [hnames, List.concat_eq_append, slashed_concat, hbody]
      simp
    rw [hlast, List.rdropWhile_concat_neg _ _ _ (by simpa using hc)]

theorem bashRootDir_eq : dir.bashRootDir = absPath dir.names ++ "/.." := by
  have hdir : ((dir.file "wali.sh").rdropWhile (· != '/')).rdropWhile (· == '/') =
      slashed dir.names := by
    rw [file_eq, rdropWhile_slash _ (by decide), rdropWhile_slashed]
  have hnil : slashed dir.names = [] ↔ dir.names = [] := by
    rcases dir.names with _ | ⟨n, names⟩ <;> simp [slashed]
  unfold ToolchainDir.bashRootDir
  simp only [hdir, hnil]
  rfl

theorem normalise_makeRootDir : normalise dir.makeRootDir = dir.names.dropLast := by
  rw [makeRootDir_eq]
  exact (normalise_parent _).trans (by rw [normalise_slashed dir.proper])

theorem normalise_bashRootDir : normalise dir.bashRootDir = dir.names.dropLast := by
  rw [bashRootDir_eq]
  exact (normalise_parent _).trans (by rw [normalise_absPath dir.proper])

theorem normalise_cmakeRootDir : normalise dir.cmakeRootDir = dir.names :=
  normalise_absPath dir.proper

end RootDirs

section Agreement

/-- Arguments of the flags with the prefix `pre` in a flag string. -/
def flagArguments (pre flags : Text) : List Text :=
  (flags.splitOn ' ').filterMap fun flag =>
    if startsWith pre flag then some (flag.drop pre.length) else none

def locationFlags : List Text := ["--sysroot=", "-I", "-L"]

def SameFlagDirs (a b : Text) : Prop :=
  ∀ pre ∈ locationFlags, List.Forall₂ SameDir (flagArguments pre a) (flagArguments pre b)

/-- The same directories up to normalisation, those in the flags included. -/
structure SameLocations (a b : Locations) : Prop where
  root : SameDir a.root b.root
  build : SameDir a.build b.build
  llvmBin : SameDir a.llvmBin b.llvmBin
  cc : SameDir a.cc b.cc
  cxx : SameDir a.cxx b.cxx
  ld : SameDir a.ld b.ld
  ar : SameDir a.ar b.ar
  ranlib : SameDir a.ranlib b.ranlib
  sysroot : SameDir a.sysroot b.sysroot
  libcxx : SameDir a.libcxx b.libcxx
  cflags : SameFlagDirs a.flags.cflags b.flags.cflags
  cxxflags : SameFlagDirs a.flags.cxxflags b.flags.cxxflags
  ldflags : SameFlagDirs a.flags.ldflags b.flags.ldflags

/-- The three files in the directory `dir` agree. -/
structure LocationsAgree (files : Toolchains) (dir : ToolchainDir) : Prop where
  makeBash : SameLocations (files.makeLocations dir) (files.bashLocations dir)
  makeCmake : SameLocations (files.makeLocations dir) (files.cmakeLocations dir)

variable {a b c d s s' : Text}

theorem flagArguments_append_blank (pre a b : Text) :
    flagArguments pre (a ++ ' ' :: b) = flagArguments pre a ++ flagArguments pre b := by
  simp [flagArguments, List.splitOn_append_cons_self]

theorem SameFlagDirs.refl (a : Text) : SameFlagDirs a a :=
  fun _ _ => List.forall₂_same.mpr fun _ _ => rfl

theorem SameFlagDirs.append (h : SameFlagDirs a b) (h' : SameFlagDirs c d) :
    SameFlagDirs (a ++ ' ' :: c) (b ++ ' ' :: d) := by
  intro pre hpre
  rw [flagArguments_append_blank, flagArguments_append_blank]
  exact List.rel_append (h pre hpre) (h' pre hpre)

theorem SameFlagDirs.append_flagTail (h : SameFlagDirs a b) (flags : List Text) :
    SameFlagDirs (a ++ flagTail flags) (b ++ flagTail flags) := by
  induction flags generalizing a b with
  | nil => simpa [flagTail] using h
  | cons flag flags ih =>
      have hflag := ih (h.append (.refl flag))
      simpa [flagTail] using hflag

theorem flagArguments_single (pre : Text) {pre' : Text} (hpre : ' ' ∉ pre') (hs : ' ' ∉ s) :
    flagArguments pre (pre' ++ s) =
      if startsWith pre (pre' ++ s) then [(pre' ++ s).drop pre.length] else [] := by
  have hblank : ' ' ∉ pre' ++ s := by
    rw [List.mem_append, not_or]
    exact ⟨hpre, hs⟩
  rw [flagArguments, List.splitOn_eq_singleton hblank]
  split <;> simp [*]

theorem SameFlagDirs.single {pre' : Text} (hpre' : pre' ∈ locationFlags) (hs : ' ' ∉ s)
    (hs' : ' ' ∉ s') (h : SameDir s s') : SameFlagDirs (pre' ++ s) (pre' ++ s') := by
  have hblank : ' ' ∉ pre' := by
    revert hpre'
    revert pre'
    decide
  have hother : ∀ p ∈ locationFlags, ∀ q ∈ locationFlags, p ≠ q → ¬ p <+: q ∧ ¬ q <+: p := by
    decide
  intro pre hpre
  rw [flagArguments_single pre hblank hs, flagArguments_single pre hblank hs']
  by_cases heq : pre = pre'
  · subst heq
    simp only [startsWith, List.prefix_append, if_true, List.drop_left]
    exact .cons h .nil
  · have hnot : ∀ x : Text, ¬ startsWith pre (pre' ++ x) := by
      intro x hprefix
      rcases List.prefix_or_prefix_of_prefix hprefix (List.prefix_append pre' x) with hle | hle
      · exact (hother pre hpre pre' hpre' heq).1 hle
      · exact (hother pre hpre pre' hpre' heq).2 hle
    simp [hnot]

theorem sameFlagDirs_cflagsText (cfg : WaliToml) (hs : ' ' ∉ s) (hs' : ' ' ∉ s')
    (h : SameDir s s') : SameFlagDirs (cflagsText cfg s) (cflagsText cfg s') := by
  have hsplit : ∀ x, cflagsText cfg x =
      (("--target=" ++ cfg.triple) ++ ' ' :: (("--sysroot=" : Text) ++ x)) ++
        flagTail cfg.userCflags := by
    intro x
    unfold cflagsText
    simp
  rw [hsplit, hsplit]
  refine SameFlagDirs.append_flagTail (SameFlagDirs.append (.refl _) ?_) _
  exact SameFlagDirs.single (by decide) hs hs' h

theorem sameFlagDirs_cxxflagsText (hs : ' ' ∉ s) (hs' : ' ' ∉ s') (hflags : SameFlagDirs a b)
    (h : SameDir s s') : SameFlagDirs (cxxflagsText a s) (cxxflagsText b s') := by
  have hsplit : ∀ x y, cxxflagsText x y =
      "-stdlib=libc++" ++ ' ' :: (x ++ ' ' :: (("-I" : Text) ++
        (y ++ '/' :: "include/c++/v1"))) := by
    intro x y
    unfold cxxflagsText
    simp
  have hblank : ∀ y : Text, ' ' ∉ y → ' ' ∉ y ++ '/' :: ("include/c++/v1" : Text) := by
    intro y hy
    rw [List.mem_append, not_or]
    exact ⟨hy, by decide⟩
  rw [hsplit, hsplit]
  refine SameFlagDirs.append (.refl _) (hflags.append ?_)
  exact SameFlagDirs.single (by decide) (hblank s hs) (hblank s' hs') (h.append _)

theorem sameFlagDirs_ldflagsText (cfg : WaliToml) (ha : ' ' ∉ a) (hb : ' ' ∉ b)
    (hs : ' ' ∉ s) (hs' : ' ' ∉ s') (hsysroot : SameDir a b) (hlibcxx : SameDir s s') :
    SameFlagDirs (ldflagsText cfg a s) (ldflagsText cfg b s') := by
  have hsplit : ∀ x y, ldflagsText cfg x y =
      ((("-L" : Text) ++ (x ++ '/' :: "lib")) ++ ' ' ::
        (("-L" : Text) ++ (y ++ '/' :: "lib"))) ++ flagTail cfg.ldflags := by
    intro x y
    unfold ldflagsText
    simp
  have hblank : ∀ y : Text, ' ' ∉ y → ' ' ∉ y ++ '/' :: ("lib" : Text) := by
    intro y hy
    rw [List.mem_append, not_or]
    exact ⟨hy, by decide⟩
  rw [hsplit, hsplit]
  refine SameFlagDirs.append_flagTail (SameFlagDirs.append ?_ ?_) _
  · exact SameFlagDirs.single (by decide) (hblank a ha) (hblank b hb) (hsysroot.append _)
  · exact SameFlagDirs.single (by decide) (hblank s hs) (hblank s' hs') (hlibcxx.append _)

theorem sameLocations_under {cfg : WaliToml} (hcfg : PlainToml cfg) {root root' : Text}
    (hroot : ' ' ∉ root) (hroot' : ' ' ∉ root') (h : SameDir root root') :
    SameLocations (locationsUnder cfg root) (locationsUnder cfg root') := by
  have hword : ∀ w ∈ [cfg.triple, cfg.root, cfg.llvm, cfg.sysroot, cfg.libcxx], ' ' ∉ w := by
    intro w hw hblank
    exact absurd (hcfg.words w hw ' ' hblank) (by decide)
  have hbelow : ∀ x y : Text, ' ' ∉ x → ' ' ∉ y → ' ' ∉ x ++ '/' :: y := by
    intro x y hx hy
    simp [hx, hy]
  have hbuild : SameDir (root ++ '/' :: cfg.root) (root' ++ '/' :: cfg.root) := h.append _
  have hblank := hbelow root cfg.root hroot (hword _ (by simp))
  have hblank' := hbelow root' cfg.root hroot' (hword _ (by simp))
  have hsysroot := hbelow _ cfg.sysroot hblank (hword _ (by simp))
  have hsysroot' := hbelow _ cfg.sysroot hblank' (hword _ (by simp))
  have hlibcxx := hbelow _ cfg.libcxx hblank (hword _ (by simp))
  have hlibcxx' := hbelow _ cfg.libcxx hblank' (hword _ (by simp))
  have hcflags := sameFlagDirs_cflagsText cfg hsysroot hsysroot' (hbuild.append cfg.sysroot)
  exact
    { root := h
      build := hbuild
      llvmBin := hbuild.append _
      cc := (hbuild.append _).append _
      cxx := (hbuild.append _).append _
      ld := (hbuild.append _).append _
      ar := (hbuild.append _).append _
      ranlib := (hbuild.append _).append _
      sysroot := hbuild.append _
      libcxx := hbuild.append _
      cflags := hcflags
      cxxflags := sameFlagDirs_cxxflagsText hlibcxx hlibcxx' hcflags (hbuild.append _)
      ldflags := sameFlagDirs_ldflagsText cfg hsysroot hsysroot' hlibcxx hlibcxx'
        (hbuild.append _) (hbuild.append _) }

theorem blank_not_mem_slashed (dir : ToolchainDir) : ' ' ∉ slashed dir.names := by
  intro h
  obtain ⟨n, hn, hmem⟩ := List.mem_flatMap.mp h
  rcases List.mem_cons.mp hmem with heq | hmem
  · exact absurd heq (by decide)
  · exact absurd (dir.plain n hn ' ' hmem) (by decide)

/-- The make file and the bash file agree wherever they are. -/
theorem sameLocations_make_bash {special : SpecialFields} {cfg : WaliToml}
    {files : Toolchains} (hcfg : PlainToml cfg)
    (hmain : genToolchainsMain special cfg = returns files) (dir : ToolchainDir) :
    SameLocations (files.makeLocations dir) (files.bashLocations dir) := by
  obtain ⟨hmake, hbash, _⟩ := locations_of_main hcfg hmain dir
  have hslashed : ' ' ∉ slashed dir.names := blank_not_mem_slashed dir
  have habs : ' ' ∉ absPath dir.names := by
    unfold absPath
    split
    · decide
    · exact hslashed
  rw [hmake, hbash]
  refine sameLocations_under hcfg ?_ ?_ ?_
  · rw [makeRootDir_eq, List.mem_append, not_or]
    exact ⟨hslashed, by decide⟩
  · rw [bashRootDir_eq, List.mem_append, not_or]
    exact ⟨habs, by decide⟩
  · rw [SameDir, normalise_makeRootDir, normalise_bashRootDir]

/-- Make and bash take the directory above the files as root, CMake the directory of
the files: they agree in the root directory of the file system and nowhere else. -/
theorem locationsAgree_iff_root {special : SpecialFields} {cfg : WaliToml}
    {files : Toolchains} (hmain : genToolchainsMain special cfg = returns files)
    (dir : ToolchainDir) :
    (LocationsAgree files dir → dir.names = []) ∧
      (PlainToml cfg → (LocationsAgree files dir ↔ dir.names = [])) := by
  have honly : LocationsAgree files dir → dir.names = [] := by
    intro h
    obtain ⟨hmake, _, hcmake⟩ := root_of_main hmain dir
    have hroot := h.makeCmake.root
    rw [hmake, hcmake, SameDir, normalise_makeRootDir, normalise_cmakeRootDir] at hroot
    have hlength := congrArg List.length hroot
    rw [List.length_dropLast] at hlength
    exact List.length_eq_zero_iff.mp (by omega)
  refine ⟨honly, fun hcfg => ⟨honly, fun hdir => ?_⟩⟩
  refine ⟨sameLocations_make_bash hcfg hmain dir, ?_⟩
  obtain ⟨hmake, _, hcmake⟩ := locations_of_main hcfg hmain dir
  have hmakeRoot : dir.makeRootDir = "/.." := by
    rw [makeRootDir_eq, hdir]
    rfl
  have hcmakeRoot : dir.cmakeRootDir = "/" := by
    rw [ToolchainDir.cmakeRootDir, ToolchainDir.text, hdir]
    rfl
  rw [hmake, hcmake, hmakeRoot, hcmakeRoot]
  exact sameLocations_under hcfg (by decide) (by decide) (by decide)

/-- The `wali.toml` of the repository. -/
def shippedToml : WaliToml where
  triple := "wasm32-unknown-linux-muslwali"
  root := "build"
  llvm := "llvm"
  sysroot := "sysroot"
  libcxx := "libcxx"
  warningCflags := ["no-implicit-function-declaration", "no-int-conversion",
    "no-incompatible-function-pointer-types", "no-incompatible-pointer-types"]
  wasmFeatures := ["-mcpu=generic", "-matomics", "-mbulk-memory", "-mexception-handling"]
  extraCflags := ["-O0", "-pthread", "-fdeclspec", "-fwasm-exceptions"]
  extraCxxflags := []
  link := [("shared-memory", .bool true), ("export-memory", .bool true),
    ("max-memory", .scalar "2147483648"), ("undefined", .list ["__walirt_wasm_memory_size"])]

theorem plainToml_shippedToml : PlainToml shippedToml := by
  constructor <;> decide

def noSpecialFields : SpecialFields := fun _ _ => raises .valueError

/-- `/` -/
def rootDir : ToolchainDir where
  names := []
  proper := by simp
  plain := by simp

/-- `/wali/toolchains` -/
def checkoutDir : ToolchainDir where
  names := ["wali", "toolchains"]
  proper := by
    intro n hn
    simp only [List.mem_cons, List.not_mem_nil, or_false] at hn
    rcases hn with rfl | rfl <;> constructor <;> decide
  plain := by decide

theorem finishes_shippedToml : (genToolchainsMain noSpecialFields shippedToml).Finishes :=
  finishes_genToolchainsMain plainToml_shippedToml.braceFree (by decide)

theorem locationsAgree_rootDir :
    ∃ files, genToolchainsMain noSpecialFields shippedToml = returns files ∧
      LocationsAgree files rootDir := by
  obtain ⟨files, hmain⟩ := finishes_shippedToml
  exact ⟨files, hmain,
    ((locationsAgree_iff_root hmain rootDir).2 plainToml_shippedToml).mpr rfl⟩

/-- In a checkout at `/wali` the CMake file looks for everything below
`/wali/toolchains`, the other two below `/wali`. -/
theorem checkoutDir_locations_disagree :
    ∃ files, genToolchainsMain noSpecialFields shippedToml = returns files ∧
      ¬ LocationsAgree files checkoutDir := by
  obtain ⟨files, hmain⟩ := finishes_shippedToml
  refine ⟨files, hmain, fun h => ?_⟩
  obtain ⟨hmake, _, hcmake⟩ := root_of_main hmain checkoutDir
  have hroot := h.makeCmake.root
  rw [hmake, hcmake] at hroot
  revert hroot
  decide

end Agreement

end Wali.ToolchainLocations
